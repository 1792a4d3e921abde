import MiniC.Proofs.Machine.Binding
import MiniC.Proofs.Machine.Commands
import MiniC.Proofs.Typing.Unit

/-!
What the commands of a lowered program declare.

The only commands that put an existing object in a slot store the arguments of a
function, and those of a struct store a copy. Everything else declares new
objects or copies fields. The initialisation declares all the global variables,
and the bodies of the functions declare none.
-/

namespace MiniC

def Node.isCopy : Node → Bool
  | .copy _ => true
  | _ => false

def Command.bindsCopies : Command → Bool
  | .bind _ (.mk (.struct _ _) _ node) => node.isCopy
  | _ => true

def Command.isGlobal : Command → Bool
  | .expr _ => true
  | .newArray _ _ _ => true
  | .newStruct _ _ _ => true
  | _ => false

private theorem Command.part_of_isGlobal {command part : Command} (global : command.isGlobal = true)
    (inside : command.Part part) : part = command := by
  cases inside with
  | self => rfl
  | _ => cases global

abbrev Command.Copying (command : Command) : Prop :=
  command.Everywhere fun part => part.bindsCopies = true

namespace Command.Copying

theorem block {body : List Command} (each : ∀ command ∈ body, command.Copying) :
    (Command.block body).Copying := by
  intro part inside
  cases inside with
  | self => rfl
  | block listed inner => exact each _ listed part inner

theorem branch {cond : Term} {yes : Command} {no : Option Command} (first : yes.Copying)
    (second : ∀ command, no = some command → command.Copying) :
    (Command.branch cond yes no).Copying := by
  intro part inside
  cases inside with
  | self => rfl
  | yes inner => exact first part inner
  | no inner => exact second _ rfl part inner

theorem whileLoop {cond : Term} {body : Command} {step : Option Term} (inBody : body.Copying) :
    (Command.whileLoop cond body step).Copying := by
  intro part inside
  cases inside with
  | self => rfl
  | whileBody inner => exact inBody part inner

theorem doLoop {body : Command} {cond : Term} (inBody : body.Copying) :
    (Command.doLoop body cond).Copying := by
  intro part inside
  cases inside with
  | self => rfl
  | doBody inner => exact inBody part inner

theorem of_isGlobal {command : Command} (global : command.isGlobal = true) :
    command.Copying := by
  intro part inside
  rw [part_of_isGlobal global inside]
  cases command with
  | bind slot value => cases global
  | _ => rfl

theorem ret (value : Option Term) : (Command.ret value).Copying := by
  intro part inside
  cases inside
  rfl

end Command.Copying

namespace Lowering

open ScopeTree

section Declarations

variable {scope : ScopeId} {base : Ty} {tree after : ScopeTree} {commands : List Command}

private theorem lowerDeclarator_isGlobal {declarator : Declarator}
    (accepted : lowerDeclarator scope base declarator tree = .ok (commands, after)) :
    ∀ command ∈ commands, command.isGlobal = true := by
  unfold lowerDeclarator at accepted
  split at accepted
  · obtain ⟨_, _, _, _, _, _, _, _, rfl⟩ := lowerArray_eq_ok accepted
    exact List.forall_mem_singleton.mpr rfl
  · split at accepted
    · obtain ⟨_, _, rfl | ⟨_, _, _, _, _, rfl⟩⟩ := lowerStructVariable_eq_ok accepted
      · exact List.forall_mem_singleton.mpr rfl
      · exact List.forall_mem_cons.mpr ⟨rfl, List.forall_mem_singleton.mpr rfl⟩
    · obtain ⟨_, _, _, rfl, _⟩ := lowerScalar_eq_ok accepted
      exact List.forall_mem_singleton.mpr rfl

private theorem lowerDeclarators_isGlobal {declarators : List Declarator}
    (accepted : lowerDeclarators scope base declarators tree = .ok (commands, after)) :
    ∀ command ∈ commands, command.isGlobal = true := by
  induction declarators generalizing tree commands with
  | nil =>
      cases accepted
      exact nofun
  | cons declarator rest ih =>
      obtain ⟨first, middle, others, _, lowered, loweredRest, rfl⟩ :=
        lowerDeclarators_cons_eq_ok accepted
      exact List.forall_mem_append.mpr ⟨lowerDeclarator_isGlobal lowered, ih loweredRest⟩

theorem lowerDeclaration_isGlobal {declaration : Declaration}
    (accepted : lowerDeclaration scope declaration tree = .ok (commands, after)) :
    ∀ command ∈ commands, command.isGlobal = true := by
  obtain ⟨_, _, _, _, ⟨rfl, _⟩ | lowered⟩ := lowerDeclaration_eq_ok accepted
  · exact nofun
  · exact lowerDeclarators_isGlobal lowered

private theorem lowerDeclaration_copying {declaration : Declaration}
    (accepted : lowerDeclaration scope declaration tree = .ok (commands, after)) :
    ∀ command ∈ commands, command.Copying :=
  fun command listed => .of_isGlobal (lowerDeclaration_isGlobal accepted command listed)

end Declarations

private theorem lowerReturn_copying {context : Context} {scope : ScopeId} {value? : Option Expr}
    {span : Span} {tree : ScopeTree} {command : Command}
    (accepted : lowerReturn context scope value? span tree = .ok command) : command.Copying := by
  unfold lowerReturn at accepted
  split at accepted
  · cases accepted
    exact .ret _
  · cases accepted
  · cases accepted
  · obtain ⟨_, _, built⟩ := bind_eq_ok.mp accepted
    obtain ⟨_, _, built⟩ := bind_eq_ok.mp built
    cases built
    exact .ret _

private theorem needLoop_copying {context : Context} {word : String} {command result : Command}
    {span : Span} (copying : command.Copying)
    (accepted : needLoop context word command span = .ok result) : result.Copying := by
  unfold needLoop at accepted
  split at accepted
  · cases accepted
    exact copying
  · cases accepted

private theorem lowerForInit_copying {scope : ScopeId} {init : ForInit} {tree after : ScopeTree}
    {commands : List Command} (accepted : lowerForInit scope init tree = .ok (commands, after)) :
    ∀ command ∈ commands, command.Copying := by
  cases init with
  | none =>
      cases accepted
      intro command impossible
      cases impossible
  | decl span declaration =>
      obtain ⟨_, lowered, built⟩ := bind_eq_ok.mp accepted
      cases built
      exact List.forall_mem_singleton.mpr (.block (lowerDeclaration_copying lowered))
  | expr span expr =>
      obtain ⟨_, _, built⟩ := bind_eq_ok.mp accepted
      cases built
      exact List.forall_mem_singleton.mpr (.of_isGlobal rfl)

mutual

private theorem lowerStmt_copying : ∀ (stmt : Stmt) (context : Context) (scope : ScopeId)
    (tree after : ScopeTree) (command : Command),
    lowerStmt context scope stmt tree = .ok (command, after) → command.Copying
  | .block _ body, context, scope, tree, after, command, accepted => by
      rw [lowerStmt] at accepted
      obtain ⟨_, lowered, built⟩ := bind_eq_ok.mp accepted
      cases built
      exact .block (lowerStmts_copying body _ _ _ _ _ lowered)
  | .expr _ expr, context, scope, tree, after, command, accepted => by
      rw [lowerStmt] at accepted
      obtain ⟨_, _, built⟩ := bind_eq_ok.mp accepted
      cases built
      exact .of_isGlobal rfl
  | .decl _ declaration, context, scope, tree, after, command, accepted => by
      rw [lowerStmt] at accepted
      obtain ⟨_, lowered, built⟩ := bind_eq_ok.mp accepted
      cases built
      exact .block (lowerDeclaration_copying lowered)
  | .branch _ cond yes no, context, scope, tree, after, command, accepted => by
      rw [lowerStmt] at accepted
      obtain ⟨_, _, rest⟩ := bind_eq_ok.mp accepted
      obtain ⟨_, loweredYes, rest⟩ := bind_eq_ok.mp rest
      obtain ⟨_, loweredNo, built⟩ := bind_eq_ok.mp rest
      cases built
      exact .branch (lowerStmt_copying yes _ _ _ _ _ loweredYes)
        (lowerElse_copying no _ _ _ _ _ loweredNo)
  | .whileLoop _ cond body, context, scope, tree, after, command, accepted => by
      rw [lowerStmt] at accepted
      obtain ⟨_, _, rest⟩ := bind_eq_ok.mp accepted
      obtain ⟨_, lowered, built⟩ := bind_eq_ok.mp rest
      cases built
      exact .whileLoop (lowerStmt_copying body _ _ _ _ _ lowered)
  | .doLoop _ body cond, context, scope, tree, after, command, accepted => by
      rw [lowerStmt] at accepted
      obtain ⟨_, lowered, rest⟩ := bind_eq_ok.mp accepted
      obtain ⟨_, _, built⟩ := bind_eq_ok.mp rest
      cases built
      exact .doLoop (lowerStmt_copying body _ _ _ _ _ lowered)
  | .forLoop span init cond step body, context, scope, tree, after, command, accepted => by
      obtain ⟨_, _, _, _, _, _, _, _, _, _, loweredInit, _, _, _, lowered, rfl⟩ :=
        lowerStmt_forLoop_eq_ok accepted
      refine .block (List.forall_mem_append.mpr ⟨lowerForInit_copying loweredInit, ?_⟩)
      exact List.forall_mem_singleton.mpr (.whileLoop (lowerStmt_copying body _ _ _ _ _ lowered))
  | .ret span value, context, scope, tree, after, command, accepted => by
      rw [lowerStmt] at accepted
      obtain ⟨_, lowered, built⟩ := bind_eq_ok.mp accepted
      cases built
      exact lowerReturn_copying lowered
  | .brk span, context, scope, tree, after, command, accepted => by
      rw [lowerStmt] at accepted
      obtain ⟨_, lowered, built⟩ := bind_eq_ok.mp accepted
      cases built
      refine needLoop_copying ?_ lowered
      intro part inside
      cases inside
      rfl
  | .cont span, context, scope, tree, after, command, accepted => by
      rw [lowerStmt] at accepted
      obtain ⟨_, lowered, built⟩ := bind_eq_ok.mp accepted
      cases built
      refine needLoop_copying ?_ lowered
      intro part inside
      cases inside
      rfl
  | .empty _, context, scope, tree, after, command, accepted => by
      rw [lowerStmt] at accepted
      cases accepted
      exact .block nofun
termination_by structural stmt => stmt

private theorem lowerElse_copying : ∀ (stmt : Option Stmt) (context : Context) (scope : ScopeId)
    (tree after : ScopeTree) (command? : Option Command),
    lowerElse context scope stmt tree = .ok (command?, after) →
    ∀ command, command? = some command → command.Copying
  | none, context, scope, tree, after, command?, accepted => by
      rw [lowerElse] at accepted
      cases accepted
      exact nofun
  | some stmt, context, scope, tree, after, command?, accepted => by
      rw [lowerElse] at accepted
      obtain ⟨_, lowered, built⟩ := bind_eq_ok.mp accepted
      cases built
      intro command same
      cases same
      exact lowerStmt_copying stmt _ _ _ _ _ lowered
termination_by structural stmt => stmt

private theorem lowerStmts_copying : ∀ (stmts : List Stmt) (context : Context) (scope : ScopeId)
    (tree after : ScopeTree) (commands : List Command),
    lowerStmts context scope stmts tree = .ok (commands, after) →
    ∀ command ∈ commands, command.Copying
  | [], context, scope, tree, after, commands, accepted => by
      rw [lowerStmts] at accepted
      cases accepted
      exact nofun
  | first :: rest, context, scope, tree, after, commands, accepted => by
      rw [lowerStmts] at accepted
      obtain ⟨_, lowered, continued⟩ := bind_eq_ok.mp accepted
      obtain ⟨_, loweredRest, built⟩ := bind_eq_ok.mp continued
      cases built
      exact List.forall_mem_cons.mpr ⟨lowerStmt_copying first _ _ _ _ _ lowered,
        lowerStmts_copying rest _ _ _ _ _ loweredRest⟩
termination_by structural stmts => stmts

end

private theorem storeArgument_copying (index : Nat) (ty : Ty) (slot : Slot) (span : Span) :
    (storeArgument index ty slot span).Copying := by
  intro part inside
  cases ty <;> cases inside <;> rfl

private theorem storeArguments_copying {scope : ScopeId} {index : Nat} {params : List Param}
    {tys : List Ty} {tree after : ScopeTree} {commands : List Command}
    (accepted : storeArguments scope index params tys tree = .ok (commands, after)) :
    ∀ command ∈ commands, command.Copying := by
  induction params generalizing index tys tree commands with
  | nil =>
      cases accepted
      exact nofun
  | cons param rest ih =>
      cases tys with
      | nil =>
          cases accepted
          exact nofun
      | cons ty others =>
          rw [storeArguments] at accepted
          split at accepted
          · exact ih accepted
          · obtain ⟨_, _, continued⟩ := bind_eq_ok.mp accepted
            obtain ⟨_, loweredRest, built⟩ := bind_eq_ok.mp continued
            cases built
            exact List.forall_mem_cons.mpr ⟨storeArgument_copying _ _ _ _, ih loweredRest⟩

/-- The initialisation and all bodies, as far as they have been lowered. -/
structure StateCopying (state : State) : Prop where
  init : ∀ command ∈ state.init, command.isGlobal = true
  body : ∀ (id : FunctionId) function body, state.functions[id]? = some function →
    function.body? = some body → body.Copying

private theorem declareFunction_copying {definition : FunctionDef} {params : List Ty} {ret : Ty}
    {state after : State} {id : FunctionId} (copying : StateCopying state)
    (accepted : declareFunction definition params ret state = .ok (id, after)) :
    StateCopying after := by
  rcases declareFunction_eq_ok accepted with ⟨rfl, _⟩ | ⟨_, _, functions, init⟩
  · exact copying
  · refine ⟨?_, ?_⟩
    · rw [init]
      exact copying.init
    · intro other function body found defined
      rw [functions, Array.getElem?_push] at found
      split at found
      · cases found
        cases defined
      · exact copying.body other function body found defined

private theorem lowerFunction_copying {definition : FunctionDef} {state after : State}
    (copying : StateCopying state) (accepted : lowerFunction definition state = .ok after) :
    StateCopying after := by
  obtain ⟨ret, first, params, second, id, declared, _, _, known, rest⟩ :=
    lowerFunction_eq_ok accepted
  have resolved : StateCopying { state with tree := second } := ⟨copying.init, copying.body⟩
  have before : StateCopying declared := declareFunction_copying resolved known
  rcases rest with rfl | ⟨body, prologue, stored, commands, last, stores, lowered, rfl⟩
  · exact before
  · refine ⟨before.init, ?_⟩
    intro other function otherBody found defined
    simp only [Array.getElem?_modify] at found
    split at found
    · obtain ⟨prototype, _, rfl⟩ := Option.map_eq_some_iff.mp found
      cases defined
      exact .block (List.forall_mem_append.mpr
        ⟨storeArguments_copying stores, lowerStmts_copying body _ _ _ _ _ lowered⟩)
    · exact before.body other function otherBody found defined

theorem lowerItems_copying {items : List Item} {state after : State}
    (copying : StateCopying state) (accepted : lowerItems items state = .ok after) :
    StateCopying after := by
  induction items generalizing state with
  | nil =>
      cases accepted
      exact copying
  | cons item rest ih =>
      rw [lowerItems] at accepted
      obtain ⟨middle, lowered, continued⟩ := bind_eq_ok.mp accepted
      refine ih ?_ continued
      cases item with
      | function definition => exact lowerFunction_copying copying lowered
      | declaration declaration =>
          obtain ⟨_, declared, built⟩ := bind_eq_ok.mp lowered
          cases built
          exact ⟨List.forall_mem_append.mpr ⟨copying.init, lowerDeclaration_isGlobal declared⟩,
            copying.body⟩

end Lowering

open Lowering

/-- In an accepted program every parameter of a struct type is a copy of its argument. -/
theorem lower_copying {items : List Item} {program : Program}
    (accepted : lower items = .ok program) :
    (∀ command ∈ program.init, command.isGlobal = true) ∧
      program.BodiesObey fun part => part.bindsCopies = true := by
  obtain ⟨state, lowered, built⟩ := bind_eq_ok.mp accepted
  cases built
  have start : StateCopying .initial := ⟨nofun, nofun⟩
  have copying := lowerItems_copying start lowered
  exact ⟨copying.init, copying.body⟩

/-! ### Global variables -/

theorem lower_bodies_declare_own {items : List Item} {program : Program}
    (accepted : lower items = .ok program) {slot : Slot} (global : slot.region = .global) :
    program.BodiesObey fun command => command.declares slot = false := by
  obtain ⟨globals, typed⟩ : ∃ globals, program.Typed true globals := lower_typed nofun accepted
  intro id function body found defined part inside
  obtain ⟨out, bodyTyped⟩ := typed.body id function body found defined
  obtain ⟨inLoop, vars, after, partTyped⟩ := inside.typed bodyTyped
  have different {other : Slot} (own : other.region = (program.bodySetting function).region) :
      decide (other = slot) = false := by
    refine decide_eq_false ?_
    intro same
    rw [same, global] at own
    cases own
  cases partTyped with
  | newArray _ _ _ _ own => exact different own
  | newStruct _ _ _ own => exact different own
  | bind _ _ _ _ own => exact different own
  | _ => rfl

def Program.DeclaresStruct (program : Program) (index : Nat) : Prop :=
  ∃ name members, Command.newStruct ⟨.global, index⟩ name members ∈ program.init

def Command.declaresStruct (slot : Slot) : Command → Bool
  | .newStruct other _ _ => other = slot
  | .bind other _ => other = slot
  | _ => false

private theorem Command.declares_of_declaresStruct {command : Command} {slot : Slot}
    (declares : command.declaresStruct slot = true) : command.declares slot = true := by
  cases command with
  | newStruct other name members => exact declares
  | bind other value => exact declares
  | _ => cases declares

/-- Structs are bound to copies only, and those that are global are in the given slots. -/
structure Command.Declaring (structs : Nat → Prop) (command : Command) : Prop where
  copies : command.bindsCopies = true
  listed : ∀ index, command.declaresStruct ⟨.global, index⟩ = true → structs index

theorem lower_declaring {items : List Item} {program : Program}
    (accepted : lower items = .ok program) :
    (∀ command ∈ program.init,
      command.Everywhere (Command.Declaring program.DeclaresStruct)) ∧
      program.BodiesObey (Command.Declaring program.DeclaresStruct) := by
  obtain ⟨init, bodies⟩ := lower_copying accepted
  constructor
  · intro command listed part inside
    have global := init command listed
    rw [Command.part_of_isGlobal global inside]
    refine ⟨Command.Copying.of_isGlobal global command (.self command), ?_⟩
    intro index declares
    cases command with
    | newStruct slot name members =>
        cases of_decide_eq_true declares
        exact ⟨name, members, listed⟩
    | bind slot value => cases global
    | _ => cases declares
  · intro id function body found defined part inside
    refine ⟨bodies id function body found defined part inside, ?_⟩
    intro index declares
    have never : part.declares ⟨.global, index⟩ = false :=
      lower_bodies_declare_own accepted rfl id function body found defined part inside
    rw [Command.declares_of_declaresStruct declares] at never
    cases never

theorem Commands.Typed.struct_declared {setting : Typing.Setting} {inLoop : Bool}
    {vars out : Typing.Variables} {commands : List Command} {slot : Slot} {name : String}
    {members : List (String × Ty)} (global : ∀ command ∈ commands, command.isGlobal = true)
    (typed : Commands.Typed setting inLoop vars commands out)
    (known : out.reference slot = some (.struct name members)) :
    vars.reference slot = some (.struct name members) ∨
      .newStruct slot name members ∈ commands := by
  induction commands generalizing vars with
  | nil =>
      cases typed
      exact Or.inl known
  | cons first rest ih =>
      cases typed with
      | @cons _ _ middle _ _ _ here behind =>
          obtain ⟨globalHere, globalBehind⟩ := List.forall_mem_cons.mp global
          rcases ih globalBehind behind with before | later
          · cases here with
            | expr _ => exact Or.inl before
            | declare _ _ _ _ _ => exact Or.inl before
            | @newArray _ _ other kind _ _ _ _ _ _ =>
                change (if slot = other then some (Ty.array (.num kind)) else vars.reference slot) =
                  some (.struct name members) at before
                split at before
                · cases before
                · exact Or.inl before
            | @newStruct _ _ other title fields _ _ _ _ =>
                change (if slot = other then some (Ty.struct title fields)
                  else vars.reference slot) = some (.struct name members) at before
                split at before
                · rename_i same
                  cases before
                  rw [same]
                  exact Or.inr List.mem_cons_self
                · exact Or.inl before
            | _ => cases globalHere
          · exact Or.inr (List.mem_cons_of_mem _ later)

end MiniC
