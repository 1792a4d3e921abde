import MiniC.Lowering.Unit
import MiniC.Proofs.Lowering.Renaming
import MiniC.Proofs.Typing.Unit

/-!
The name of a variable does not matter.

A source in which a variable is given another name lowers to the same program.
Functions keep their names, and so do the streams, so the symbols of the root
scope that a program can reach by name are the same in both.
-/

namespace MiniC

def mentionsIn (items : List Item) : List Mention := items.flatMap Item.mentions

/-- A name that stands for variables alone. It is not the variable that `sync_r` reads. -/
structure OnlyVariable (items : List Item) (name : String) : Prop where
  notDeclared : .function name ∉ mentionsIn items
  notCalled : .call name ∉ mentionsIn items
  notStream : name ∉ Builtin.streams.map Prod.fst
  notRead : .call "sync_r" ∈ mentionsIn items → name ≠ "r"

structure Unused (items : List Item) (name : String) : Prop where
  nonempty : name ≠ ""
  notMentioned : ∀ mention ∈ mentionsIn items, mention.name ≠ name
  notStream : name ∉ Builtin.streams.map Prod.fst
  notRead : name ≠ "r"

def replaceName (old new name : String) : String := if name = old then new else name

private theorem replaceName_of_ne {old new name : String} (different : name ≠ old) :
    replaceName old new name = name :=
  if_neg different

def Renaming.replace (old new : String) (nonempty : new ≠ "") : Renaming where
  map := replaceName old new
  Known := fun name => name ≠ new
  injective := by
    intro first second firstKnown secondKnown same
    unfold replaceName at same
    by_cases firstIs : first = old
    · by_cases secondIs : second = old
      · rw [firstIs, secondIs]
      · rw [if_pos firstIs, if_neg secondIs] at same
        exact absurd same.symm secondKnown
    · by_cases secondIs : second = old
      · rw [if_neg firstIs, if_pos secondIs] at same
        exact absurd same firstKnown
      · rw [if_neg firstIs, if_neg secondIs] at same
        exact same
  named := by
    intro name _ named
    unfold replaceName
    by_cases isOld : name = old
    · rw [if_pos isOld]
      exact nonempty
    · rw [if_neg isOld]
      exact named

private theorem Renaming.replace_admits {items : List Item} {old new : String}
    (variableName : OnlyVariable items old) (unused : Unused items new) :
    ∀ mention ∈ mentionsIn items, (replace old new unused.nonempty).Admits mention := by
  intro mention mentioned
  have known := unused.notMentioned mention mentioned
  cases mention with
  | var name => exact known
  | function name =>
      have other : name ≠ old := fun same => variableName.notDeclared (same ▸ mentioned)
      exact ⟨known, replaceName_of_ne other⟩
  | call name =>
      have other : name ≠ old := fun same => variableName.notCalled (same ▸ mentioned)
      refine ⟨known, replaceName_of_ne other, ?_⟩
      rintro rfl
      exact ⟨unused.notRead.symm, replaceName_of_ne (variableName.notRead mentioned).symm⟩

namespace Lowering

open ScopeTree

variable {names : Renaming}

private theorem paramType_alike {Related : ScopeTree → ScopeTree → Prop}
    (named : NamesTypes root root Related) (param : Param) {leftTree rightTree : ScopeTree}
    (related : Related leftTree rightTree) :
    Alike (fun first second => first.1 = second.1 ∧ Related first.2 second.2)
      (paramType param leftTree) (paramType (param.rename names.map) rightTree) := by
  unfold paramType
  refine (resolveSpecifier_alike named none param.span param.spec related).bind ?_
  rintro ⟨ty, leftTree⟩ ⟨_, rightTree⟩ ⟨rfl, related⟩
  cases isArray : param.isArray with
  | true =>
      simp only [Param.rename, isArray, if_true]
      cases ty with
      | num kind => exact .ok ⟨rfl, related⟩
      | _ => exact .error _ _
  | false =>
      simp only [Param.rename, isArray, Bool.false_eq_true, if_false]
      by_cases isVoid : ty = .void
      · simp only [if_pos isVoid]
        exact .error _ _
      · simp only [if_neg isVoid]
        exact .ok ⟨rfl, related⟩

private theorem paramTypes_alike {Related : ScopeTree → ScopeTree → Prop}
    (named : NamesTypes root root Related) (params : List Param)
    {leftTree rightTree : ScopeTree} (related : Related leftTree rightTree) :
    Alike (fun first second => first.1 = second.1 ∧ Related first.2 second.2)
      (paramTypes params leftTree)
      (paramTypes (params.map (Param.rename names.map)) rightTree) := by
  induction params generalizing leftTree rightTree with
  | nil => exact .ok ⟨rfl, related⟩
  | cons param rest ih =>
      rw [List.map_cons, paramTypes, paramTypes]
      refine (paramType_alike named param related).bind ?_
      rintro ⟨ty, leftTree⟩ ⟨_, rightTree⟩ ⟨rfl, related⟩
      refine (ih related).bind ?_
      rintro ⟨tys, leftTree⟩ ⟨_, rightTree⟩ ⟨rfl, related⟩
      exact .ok ⟨rfl, related⟩

private theorem storeArguments_alike {left right : ScopeId} {leftTree rightTree : ScopeTree}
    (mirrors : Mirrors names left leftTree right rightTree) (index : Nat) (params : List Param)
    (tys : List Ty) (known : ∀ param ∈ params, names.Known param.name) :
    Alike (SameCommands names left leftTree right rightTree)
      (storeArguments left index params tys leftTree)
      (storeArguments right index (params.map (Param.rename names.map)) tys rightTree) := by
  induction params generalizing index tys leftTree rightTree with
  | nil => exact .ok ⟨rfl, .refl mirrors⟩
  | cons param rest ih =>
      have knownFirst := known param List.mem_cons_self
      have knownRest : ∀ param ∈ rest, names.Known param.name :=
        fun param listed => known param (List.mem_cons_of_mem _ listed)
      cases tys with
      | nil => exact .ok ⟨rfl, .refl mirrors⟩
      | cons ty tys =>
          rw [List.map_cons, storeArguments, storeArguments]
          cases unnamed : param.name.isEmpty with
          | true =>
              simp only [Param.rename, unnamed, if_true]
              exact ih mirrors (index + 1) tys knownRest
          | false =>
              have nonempty : (names.map param.name).isEmpty = false := by
                have named : param.name ≠ "" := by
                  intro empty
                  rw [empty] at unnamed
                  cases unnamed
                have still := names.named param.name knownFirst named
                exact Bool.eq_false_iff.mpr fun empty => still (String.isEmpty_iff.mp empty)
              simp only [Param.rename, unnamed, nonempty, Bool.false_eq_true, if_false]
              refine (defineSlot_alike mirrors knownFirst ty param.span).bind ?_
              rintro ⟨slot, leftMiddle⟩ ⟨_, rightMiddle⟩ ⟨rfl, moves⟩
              refine (ih moves.mirrors (index + 1) tys knownRest).bind ?_
              rintro ⟨commands, leftAfter⟩ ⟨_, rightAfter⟩ ⟨rfl, further⟩
              exact .ok ⟨rfl, moves.trans further⟩

/-- The same functions under the same names, the same initialisation, and root scopes that mirror
each other. -/
structure SameState (names : Renaming) (first second : State) : Prop where
  mirrors : Mirrors names root first.tree root second.tree
  functions_eq : second.functions = first.functions
  init_eq : second.init = first.init
  named : ∀ name, second.tree.functionIn? root name = first.tree.functionIn? root name

theorem SameState.moved {first second : State} (same : SameState names first second)
    {leftAfter rightAfter : ScopeTree}
    (moves : Moves names root first.tree root second.tree leftAfter rightAfter) :
    SameState names { first with tree := leftAfter } { second with tree := rightAfter } where
  mirrors := moves.mirrors
  functions_eq := same.functions_eq
  init_eq := same.init_eq
  named := by
    intro name
    rw [moves.leftKept.functions_eq, moves.rightKept.functions_eq]
    exact same.named name

theorem SameState.withFunction {first second : State} (same : SameState names first second)
    {symbol : Symbol} (known : names.Known symbol.name)
    (fixed : names.map symbol.name = symbol.name) (function : Function) :
    SameState names
      { first with
        tree := first.tree.changed root (Scope.withSymbol symbol) first.tree.layouts
        functions := first.functions.push function }
      { second with
        tree := second.tree.changed root (Scope.withSymbol symbol) second.tree.layouts
        functions := second.functions.push function } where
  mirrors := by
    rw [same.mirrors.layouts_eq]
    exact same.mirrors.withSymbol known fixed.symm rfl _
  functions_eq := by rw [same.functions_eq]
  init_eq := same.init_eq
  named := by
    intro name
    rw [functionIn?_withSymbol same.mirrors.leftInside,
      functionIn?_withSymbol same.mirrors.rightInside, same.named]

private theorem declareFunction_new {definition : FunctionDef} {state : State}
    (free : state.tree.resolveLocal? root definition.name = none) (params : List Ty) (ret : Ty) :
    declareFunction definition params ret state = .ok (state.functions.size,
      { state with
        tree := state.tree.changed root (Scope.withSymbol
          ⟨definition.name, .func params ret, .function state.functions.size⟩) state.tree.layouts
        functions := state.functions.push
          ⟨definition.name, params, ret, ⟨0, 0⟩, none, definition.span⟩ }) := by
  have defined : state.tree.defineFunction? root definition.name (.func params ret)
      state.functions.size = some (⟨definition.name, .func params ret,
        .function state.functions.size⟩, state.tree.changed root (Scope.withSymbol
          ⟨definition.name, .func params ret, .function state.functions.size⟩)
          state.tree.layouts) := by
    unfold defineFunction? insert?
    rw [free]
    rfl
  unfold declareFunction
  simp only [free, defined]

private theorem declareFunction_alike {first second : State} (same : SameState names first second)
    (definition : FunctionDef) (admitted : names.Admits (.function definition.name))
    (params : List Ty) (ret : Ty) :
    Alike (fun left right => left.1 = right.1 ∧ SameState names left.2 right.2)
      (declareFunction definition params ret first)
      (declareFunction (definition.rename names.map) params ret second) := by
  obtain ⟨known, fixed⟩ := admitted
  have symbols := same.mirrors.locals definition.name known
  rw [fixed] at symbols
  cases found : first.tree.resolveLocal? root definition.name with
  | none =>
      rw [found, Option.map_none, Option.map_eq_none_iff] at symbols
      have sameSize : second.functions.size = first.functions.size :=
        congrArg Array.size same.functions_eq
      rw [declareFunction_new found, @declareFunction_new (definition.rename names.map) _ symbols,
        sameSize]
      apply Alike.ok
      constructor
      · rfl
      · apply same.withFunction
        · exact known
        · exact fixed
  | some symbol =>
      rw [found, Option.map_some, Option.map_eq_some_iff] at symbols
      obtain ⟨other, otherFound, sameContent⟩ := symbols
      obtain ⟨sameTy, sameStorage⟩ := content_eq sameContent
      have sameBody : (definition.rename names.map).body?.isSome = definition.body?.isSome :=
        Option.isSome_map
      have renamed : (definition.rename names.map).name = definition.name := rfl
      unfold declareFunction
      simp only [renamed, found, otherFound, sameTy, sameStorage, sameBody, same.functions_eq]
      cases symbol.storage with
      | function id =>
          by_cases otherTy : symbol.ty ≠ .func params ret
          · simp only [if_pos otherTy]
            exact .error _ _
          · simp only [if_neg otherTy]
            split
            · exact .error _ _
            · exact .ok ⟨rfl, same⟩
      | _ => exact .error _ _

private theorem lowerFunction_alike {first second : State} (same : SameState names first second)
    (definition : FunctionDef)
    (admitted : ∀ mention ∈ definition.mentions, names.Admits mention) :
    Alike (SameState names) (lowerFunction definition first)
      (lowerFunction (definition.rename names.map) second) := by
  have admitsName := admitted (.function definition.name) List.mem_cons_self
  obtain ⟨admitsParams, admitsBody⟩ := List.forall_mem_append.mp
    fun mention listed => admitted mention (List.mem_cons_of_mem _ listed)
  have knownParams : ∀ param ∈ definition.params, names.Known param.name :=
    fun param listed => admitsParams (.var param.name) (List.mem_map_of_mem listed)
  unfold lowerFunction
  refine (resolveSpecifier_alike Moves.namesTypes none definition.span definition.returns
    (.refl same.mirrors)).bind ?_
  rintro ⟨ret, leftTree⟩ ⟨_, rightTree⟩ ⟨rfl, moves⟩
  refine (paramTypes_alike Moves.namesTypes definition.params moves).bind ?_
  rintro ⟨params, leftTree⟩ ⟨_, rightTree⟩ ⟨rfl, moves⟩
  refine (declareFunction_alike (same.moved moves) definition admitsName params ret).bind ?_
  rintro ⟨id, first⟩ ⟨_, second⟩ ⟨rfl, same⟩
  cases bodyAt : definition.body? with
  | none =>
      simp only [FunctionDef.rename, bodyAt, Option.map_none]
      exact .ok same
  | some body =>
      rw [bodyAt] at admitsBody
      simp only [FunctionDef.rename, bodyAt, Option.map_some]
      have inner := same.mirrors.functionScope
      refine (storeArguments_alike inner 0 definition.params params knownParams).bind ?_
      rintro ⟨prologue, leftMiddle⟩ ⟨_, rightMiddle⟩ ⟨rfl, stored⟩
      refine (lowerStmts_alike body ⟨ret, false⟩ stored.mirrors admitsBody).bind ?_
      rintro ⟨commands, leftAfter⟩ ⟨_, rightAfter⟩ ⟨rfl, lowered⟩
      have whole := same.moved (.of_functionScope same.mirrors (stored.trans lowered))
      have sameFunctions : second.functions = first.functions := same.functions_eq
      apply Alike.ok
      constructor
      · exact whole.mirrors
      · simp only [sameFunctions, lowered.mirrors.layout_eq]
      · exact whole.init_eq
      · exact whole.named

/-! ### The whole source -/

private theorem lowerItem_alike {first second : State} (same : SameState names first second)
    (item : Item)
    (admitted : ∀ mention ∈ item.mentions, names.Admits mention) :
    Alike (SameState names) (lowerItem item first) (lowerItem (item.rename names.map) second) := by
  cases item with
  | function definition => exact lowerFunction_alike same definition admitted
  | declaration declaration =>
      refine (lowerDeclaration_alike same.mirrors declaration admitted).bind ?_
      rintro ⟨commands, leftAfter⟩ ⟨_, rightAfter⟩ ⟨rfl, moves⟩
      have moved := same.moved moves
      apply Alike.ok
      constructor
      · exact moved.mirrors
      · exact moved.functions_eq
      · exact congrArg (· ++ commands) same.init_eq
      · exact moved.named

private theorem lowerItems_alike {first second : State} (same : SameState names first second)
    (items : List Item) (admitted : ∀ mention ∈ mentionsIn items, names.Admits mention) :
    Alike (SameState names) (lowerItems items first)
      (lowerItems (items.map (Item.rename names.map)) second) := by
  induction items generalizing first second with
  | nil => exact .ok same
  | cons item rest ih =>
      unfold mentionsIn at admitted
      rw [List.flatMap_cons] at admitted
      obtain ⟨admitsFirst, admitsRest⟩ := List.forall_mem_append.mp admitted
      rw [List.map_cons, lowerItems, lowerItems]
      refine (lowerItem_alike same item admitsFirst).bind ?_
      intro first second same
      exact ih same admitsRest

/-- Nothing stands around the root. -/
theorem resolve?_root (tree : ScopeTree) (name : String) :
    tree.resolve? root name = tree.resolveLocal? root name := by
  have outside : tree.outer? (fun scope => scope.symbols.lookup name) root = none := by
    unfold outer?
    cases (tree.scopeAt root).parent? with
    | none => rfl
    | some parent => exact if_neg (Nat.not_lt_zero parent)
  rw [resolve?, nearest?_eq, outside, Option.or_none]
  rfl

private theorem mainFunction?_eq (tree : ScopeTree) :
    mainFunction? tree = tree.functionIn? root "main" := by
  unfold mainFunction? functionIn?
  rw [resolve?_root]
  cases tree.resolveLocal? root "main" with
  | none => rfl
  | some symbol => rfl

private theorem initial_same
    (fixed : ∀ name, names.Known name → initialTree.resolveLocal? root (names.map name) =
      initialTree.resolveLocal? root name) : SameState names .initial .initial where
  mirrors := by
    constructor
    · constructor
      · exact Nat.zero_lt_one
      · exact Nat.zero_lt_one
      · intro name known
        rw [resolve?_root, resolve?_root]
        exact congrArg (Option.map Symbol.content) (fixed name known)
      · intro name
        rfl
    · rfl
    · rfl
    · intro name known
      exact congrArg (Option.map Symbol.content) (fixed name known)
  functions_eq := rfl
  init_eq := rfl
  named := fun _ => rfl

theorem lower_alike (fixed : ∀ name, names.Known name →
      initialTree.resolveLocal? root (names.map name) = initialTree.resolveLocal? root name)
    (items : List Item) (admitted : ∀ mention ∈ mentionsIn items, names.Admits mention) :
    Alike Eq (lower items) (lower (items.map (Item.rename names.map))) := by
  refine (lowerItems_alike (initial_same fixed) items admitted).bind ?_
  intro first second same
  apply Alike.ok
  rw [mainFunction?_eq, mainFunction?_eq, same.functions_eq, same.init_eq, same.named,
    same.mirrors.layout_eq]

theorem resolveLocal?_initialTree {name : String}
    (notStream : name ∉ Builtin.streams.map Prod.fst) :
    initialTree.resolveLocal? root name = none := by
  simp only [Builtin.streams, List.map_cons, List.map_nil, List.mem_cons, List.not_mem_nil,
    or_false, not_or] at notStream
  rw [initialTree_eq]
  change predeclared.lookup name = none
  rw [predeclared, List.lookup_cons, beq_eq_false_iff_ne.mpr notStream.2, List.lookup_cons,
    beq_eq_false_iff_ne.mpr notStream.1]
  rfl

end Lowering

open Lowering ScopeTree

/-- A variable may be given any name that the source does not have: the program stays the same. -/
theorem variable_names_do_not_matter {items : List Item} {old new : String}
    (variableName : OnlyVariable items old) (unused : Unused items new) (program : Program) :
    lower (items.map (Item.rename (replaceName old new))) = .ok program ↔
      lower items = .ok program := by
  have fixed : ∀ name, name ≠ new → initialTree.resolveLocal? root (replaceName old new name) =
      initialTree.resolveLocal? root name := by
    intro name _
    by_cases isOld : name = old
    · rw [isOld, replaceName, if_pos rfl, resolveLocal?_initialTree unused.notStream,
        resolveLocal?_initialTree variableName.notStream]
    · rw [replaceName_of_ne isOld]
  have alike := @lower_alike (Renaming.replace old new unused.nonempty) fixed items
    (Renaming.replace_admits variableName unused)
  exact alike.ok_iff program

/-- A source with a global, a parameter and a local variable of one name, of which the last starts
with the value of the parameter. -/
def shadowing : List Item :=
  let place : Span := ⟨0, 0⟩
  let number (value : UInt64) : Expr := .int place ⟨value, false, false, false⟩
  let x : Expr := .ident place "x"
  [.declaration ⟨false, .int, [⟨"x", none, some (number 4), place⟩], place⟩,
    .function ⟨.int, "twice", [⟨.int, "x", false, place⟩, ⟨.int, "", false, place⟩], some
      [.block place
        [.decl place ⟨false, .int, [⟨"x", none, some (.binary place .add x x), place⟩], place⟩,
          .ret place (some x)]], place⟩,
    .function ⟨.int, "main", [], some
      [.ret place (some (.call place "twice" place [x, number 0]))], place⟩]

/-- The program with either name has two functions, of which the second is the entry, and room for
the global variable. -/
theorem shadowing_with_other_name :
    OnlyVariable shadowing "x" ∧ Unused shadowing "total" ∧ ∃ program,
      lower shadowing = .ok program ∧
        lower (shadowing.map (Item.rename (replaceName "x" "total"))) = .ok program ∧
        program.functions.toList.map Function.name = ["twice", "main"] ∧
        program.main? = some 1 ∧ program.globals = ⟨1, 0⟩ := by
  have variableName : OnlyVariable shadowing "x" := by
    constructor <;> decide
  have unused : Unused shadowing "total" := by
    constructor <;> decide
  have checked : ((lower shadowing).toOption.any fun program =>
      decide (program.functions.toList.map Function.name = ["twice", "main"] ∧
        program.main? = some 1 ∧ program.globals = ⟨1, 0⟩)) = true := by
    decide +kernel
  obtain ⟨program, accepted, shape⟩ := eq_ok_of_any checked
  have renamed := (variable_names_do_not_matter variableName unused program).mpr accepted
  exact ⟨variableName, unused, program, accepted, renamed, of_decide_eq_true shape⟩

end MiniC
