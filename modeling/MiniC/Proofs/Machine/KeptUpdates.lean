import MiniC.Proofs.Machine.Points

/-!
Programs whose updates keep their types.

An update converts its result to the type of its term, so it goes wrong only where
a cast to the empty type has taken that type away. Whether this has happened
somewhere in a program is checked on its text, and a run of a program that passes
the check comes to no such update.
-/

namespace MiniC

mutual

/-- Whether no update has been given the empty type. -/
def Term.keepsUpdates : Term → Bool
  | .mk ty _ node => node.keepsUpdates && !(ty = .void && node.isUpdate)
termination_by structural term => term

def Node.keepsUpdates : Node → Bool
  | .literal _ | .argument _ => true
  | .load place => place.keepsUpdates
  | .assign place value => place.keepsUpdates && value.keepsUpdates
  | .update place _ _ rhs _ => place.keepsUpdates && rhs.keepsUpdates
  | .convert _ value => value.keepsUpdates
  | .truth value => value.keepsUpdates
  | .binary _ left right => left.keepsUpdates && right.keepsUpdates
  | .unary _ operand => operand.keepsUpdates
  | .logical _ left right => left.keepsUpdates && right.keepsUpdates
  | .conditional cond yes no => cond.keepsUpdates && yes.keepsUpdates && no.keepsUpdates
  | .comma first second => first.keepsUpdates && second.keepsUpdates
  | .call _ args => keepUpdates args
  | .builtin _ args => keepUpdates args
  | .copy value => value.keepsUpdates
termination_by structural node => node

def Place.keepsUpdates : Place → Bool
  | .scalar _ | .whole _ | .field _ _ => true
  | .element _ index => index.keepsUpdates
termination_by structural place => place

def keepUpdates : List Term → Bool
  | [] => true
  | first :: rest => first.keepsUpdates && keepUpdates rest
termination_by structural terms => terms

end

mutual

def Command.keepsUpdates : Command → Bool
  | .expr term => term.keepsUpdates
  | .block body => commandsKeepUpdates body
  | .branch cond yes no => cond.keepsUpdates && yes.keepsUpdates && elseKeepsUpdates no
  | .whileLoop cond body step =>
      cond.keepsUpdates && body.keepsUpdates && step.all Term.keepsUpdates
  | .doLoop body cond => body.keepsUpdates && cond.keepsUpdates
  | .brk | .cont | .newStruct _ _ _ => true
  | .ret value => value.all Term.keepsUpdates
  | .newArray _ _ length => length.keepsUpdates
  | .bind _ value => value.keepsUpdates
termination_by structural command => command

def elseKeepsUpdates : Option Command → Bool
  | none => true
  | some command => command.keepsUpdates
termination_by structural command => command

def commandsKeepUpdates : List Command → Bool
  | [] => true
  | first :: rest => first.keepsUpdates && commandsKeepUpdates rest
termination_by structural commands => commands

end

/-- Whether no cast of the program takes the type of an update away. -/
def Program.keepsUpdates (program : Program) : Bool :=
  commandsKeepUpdates program.init &&
    program.functions.all fun function => function.body?.all Command.keepsUpdates

namespace Machine

/-! ### Points -/

namespace Point

variable {program : Program} {context : Context} {fuel : Nat} {state : State}

/-- A point of a program whose own text passes the check. -/
inductive Kept (program : Program) : Point → Prop where
  | eval {context : Context} {fuel : Nat} {term : Term} {state : State} :
      context.program = program → term.keepsUpdates = true →
      Kept program (.eval context fuel term state)
  | evalAll {context : Context} {fuel : Nat} {terms : List Term} {state : State} :
      context.program = program → keepUpdates terms = true →
      Kept program (.evalAll context fuel terms state)
  | locate {context : Context} {fuel : Nat} {place : Place} {state : State} :
      context.program = program → place.keepsUpdates = true →
      Kept program (.locate context fuel place state)
  | call {context : Context} {fuel : Nat} {id : FunctionId} {args : List Value} {state : State} :
      context.program = program → Kept program (.call context fuel id args state)
  | exec {context : Context} {fuel : Nat} {command : Command} {state : State} :
      context.program = program → command.keepsUpdates = true →
      Kept program (.exec context fuel command state)
  | execAll {context : Context} {fuel : Nat} {commands : List Command} {state : State} :
      context.program = program → commandsKeepUpdates commands = true →
      Kept program (.execAll context fuel commands state)
  | execWhile {context : Context} {fuel : Nat} {cond : Term} {body : Command}
      {step : Option Term} {state : State} :
      context.program = program → cond.keepsUpdates = true → body.keepsUpdates = true →
      step.all Term.keepsUpdates = true →
      Kept program (.execWhile context fuel cond body step state)
  | execDo {context : Context} {fuel : Nat} {body : Command} {cond : Term} {state : State} :
      context.program = program → body.keepsUpdates = true → cond.keepsUpdates = true →
      Kept program (.execDo context fuel body cond state)

theorem Kept.not_mixesKinds {point : Point} (kept : point.Kept program) : ¬point.MixesKinds := by
  intro mixes
  cases kept with
  | @eval _ fuel term _ _ keeps =>
      obtain ⟨ty, _, node⟩ := term
      unfold MixesKinds at mixes
      split at mixes
      · rename_i same
        cases same
        cases (Bool.and_eq_true_iff.mp keeps).2
      · exact mixes
  | _ => exact mixes

def AllKept (program : Program) (points : List Point) : Prop :=
  ∀ point ∈ points, point.Kept program

namespace AllKept

theorem none : AllKept program [] := by
  intro point listed
  cases listed

theorem one {point : Point} (kept : point.Kept program) : AllKept program [point] := by
  intro other listed
  rw [List.mem_singleton.mp listed]
  exact kept

theorem after {α : Type} {outcome : Outcome α} {next : α → State → List Point}
    (behind : ∀ value state, AllKept program (next value state)) :
    AllKept program (Machine.after outcome next) := by
  cases outcome with
  | done value state => exact behind value state
  | failed failure state => exact none
  | exhausted => exact none

/-- One call, and others behind it. -/
theorem cons {α : Type} {point : Point} {outcome : Outcome α} {next : α → State → List Point}
    (kept : point.Kept program) (behind : ∀ value state, AllKept program (next value state)) :
    AllKept program ([point] ++ Machine.after outcome next) := by
  intro other listed
  rcases List.mem_append.mp listed with first | later
  · exact one kept other first
  · exact after behind other later

end AllKept

private theorem nodeCalls_kept {node : Node} (same : context.program = program)
    (keeps : node.keepsUpdates = true) :
    AllKept program (nodeCalls context fuel node state) := by
  cases node with
  | literal value => exact .none
  | argument index => exact .none
  | load place => exact .one (.locate same keeps)
  | assign place value =>
      obtain ⟨placeKeeps, valueKeeps⟩ := Bool.and_eq_true_iff.mp keeps
      exact .cons (.locate same placeKeeps) fun _ _ => .one (.eval same valueKeeps)
  | update place fn operand rhs yieldsOld =>
      obtain ⟨placeKeeps, rhsKeeps⟩ := Bool.and_eq_true_iff.mp keeps
      exact .cons (.locate same placeKeeps) fun _ _ =>
        .after fun _ _ => .one (.eval same rhsKeeps)
  | convert kind value => exact .one (.eval same keeps)
  | truth value => exact .one (.eval same keeps)
  | unary fn operand => exact .one (.eval same keeps)
  | copy value => exact .one (.eval same keeps)
  | binary fn left right =>
      obtain ⟨leftKeeps, rightKeeps⟩ := Bool.and_eq_true_iff.mp keeps
      exact .cons (.eval same leftKeeps) fun _ _ => .one (.eval same rightKeeps)
  | comma first second =>
      obtain ⟨firstKeeps, secondKeeps⟩ := Bool.and_eq_true_iff.mp keeps
      exact .cons (.eval same firstKeeps) fun _ _ => .one (.eval same secondKeeps)
  | logical isAnd left right =>
      obtain ⟨leftKeeps, rightKeeps⟩ := Bool.and_eq_true_iff.mp keeps
      refine .cons (.eval same leftKeeps) ?_
      intro value _
      split
      · exact .one (.eval same rightKeeps)
      · exact .none
  | conditional cond yes no =>
      obtain ⟨first, noKeeps⟩ := Bool.and_eq_true_iff.mp keeps
      obtain ⟨condKeeps, yesKeeps⟩ := Bool.and_eq_true_iff.mp first
      refine .cons (.eval same condKeeps) ?_
      intro value _
      split
      · exact .one (.eval same yesKeeps)
      · exact .one (.eval same noKeeps)
  | call id args => exact .cons (.evalAll same keeps) fun _ _ => .one (.call same)
  | builtin fn args => exact .one (.evalAll same keeps)

private theorem commandCalls_kept {command : Command} (same : context.program = program)
    (keeps : command.keepsUpdates = true) :
    AllKept program (commandCalls context fuel command state) := by
  cases command with
  | expr term => exact .one (.eval same keeps)
  | block body => exact .one (.execAll same keeps)
  | branch cond yes no =>
      obtain ⟨first, noKeeps⟩ := Bool.and_eq_true_iff.mp keeps
      obtain ⟨condKeeps, yesKeeps⟩ := Bool.and_eq_true_iff.mp first
      refine .cons (.eval same condKeeps) ?_
      intro value _
      split
      · exact .one (.exec same yesKeeps)
      · cases no with
        | none => exact .none
        | some no => exact .one (.exec same noKeeps)
  | whileLoop cond body step =>
      obtain ⟨first, stepKeeps⟩ := Bool.and_eq_true_iff.mp keeps
      obtain ⟨condKeeps, bodyKeeps⟩ := Bool.and_eq_true_iff.mp first
      exact .one (.execWhile same condKeeps bodyKeeps stepKeeps)
  | doLoop body cond =>
      obtain ⟨bodyKeeps, condKeeps⟩ := Bool.and_eq_true_iff.mp keeps
      exact .one (.execDo same bodyKeeps condKeeps)
  | brk => exact .none
  | cont => exact .none
  | ret value =>
      cases value with
      | none => exact .none
      | some term => exact .one (.eval same keeps)
  | newArray slot kind length => exact .one (.eval same keeps)
  | newStruct slot name members => exact .none
  | bind slot value => exact .one (.eval same keeps)

private theorem againCalls_kept {cond : Term} {body : Command} {step : Option Term}
    (same : context.program = program) (condKeeps : cond.keepsUpdates = true)
    (bodyKeeps : body.keepsUpdates = true) (stepKeeps : step.all Term.keepsUpdates = true) :
    AllKept program (againCalls context fuel cond body step state) := by
  cases step with
  | none => exact .one (.execWhile same condKeeps bodyKeeps stepKeeps)
  | some term =>
      exact .cons (.eval same stepKeeps) fun _ _ =>
        .one (.execWhile same condKeeps bodyKeeps stepKeeps)

/-- The body of a function passes the check with its program. -/
theorem enter_keepsUpdates {id : FunctionId} {function : Function} {body : Command}
    (keeps : context.program.keepsUpdates = true)
    (entered : enter context id = .ok (function, body)) : body.keepsUpdates = true := by
  obtain ⟨found, defined⟩ := enter_eq_ok entered
  have bodies := (Bool.and_eq_true_iff.mp keeps).2
  have inside := Array.all_eq_true'.mp bodies function (Array.mem_of_getElem? found)
  rw [defined] at inside
  exact inside

/-- The check carries from a point to the points that it calls. -/
theorem Kept.calls {point : Point} (keeps : program.keepsUpdates = true)
    (kept : point.Kept program) : AllKept program point.calls := by
  cases kept with
  | @eval _ fuel term _ same termKeeps =>
      cases fuel with
      | zero => exact .none
      | succ fuel =>
          obtain ⟨ty, span, node⟩ := term
          exact nodeCalls_kept same (Bool.and_eq_true_iff.mp termKeeps).1
  | @evalAll _ fuel terms _ same termsKeep =>
      cases fuel with
      | zero => exact .none
      | succ fuel =>
          cases terms with
          | nil => exact .none
          | cons first rest =>
              obtain ⟨firstKeeps, restKeep⟩ := Bool.and_eq_true_iff.mp termsKeep
              exact .cons (.eval same firstKeeps) fun _ _ => .one (.evalAll same restKeep)
  | @locate _ fuel place _ same placeKeeps =>
      cases fuel with
      | zero => exact .none
      | succ fuel =>
          cases place with
          | element array index => exact .one (.eval same placeKeeps)
          | _ => exact .none
  | @call _ fuel id args _ same =>
      cases fuel with
      | zero => exact .none
      | succ fuel =>
          rw [Point.calls]
          split
          · exact .none
          · rename_i function body entered
            rw [← same] at keeps
            exact .one (.exec same (enter_keepsUpdates keeps entered))
  | @exec _ fuel command _ same commandKeeps =>
      cases fuel with
      | zero => exact .none
      | succ fuel => exact commandCalls_kept same commandKeeps
  | @execAll _ fuel commands _ same commandsKeep =>
      cases fuel with
      | zero => exact .none
      | succ fuel =>
          cases commands with
          | nil => exact .none
          | cons first rest =>
              obtain ⟨firstKeeps, restKeep⟩ := Bool.and_eq_true_iff.mp commandsKeep
              refine .cons (.exec same firstKeeps) ?_
              intro flow _
              cases flow with
              | normal => exact .one (.execAll same restKeep)
              | _ => exact .none
  | @execWhile _ fuel cond body step _ same condKeeps bodyKeeps stepKeeps =>
      cases fuel with
      | zero => exact .none
      | succ fuel =>
          refine .cons (.eval same condKeeps) ?_
          intro value _
          split
          · refine .cons (.exec same bodyKeeps) ?_
            intro flow _
            cases flow with
            | normal => exact againCalls_kept same condKeeps bodyKeeps stepKeeps
            | cont => exact againCalls_kept same condKeeps bodyKeeps stepKeeps
            | brk => exact .none
            | ret value => exact .none
          · exact .none
  | @execDo context fuel body cond _ same bodyKeeps condKeeps =>
      cases fuel with
      | zero => exact .none
      | succ fuel =>
          have again : ∀ value state, AllKept program
              (if Value.truth value then [Point.execDo context fuel body cond state] else []) := by
            intro value _
            split
            · exact .one (.execDo same bodyKeeps condKeeps)
            · exact .none
          refine .cons (.exec same bodyKeeps) ?_
          intro flow _
          cases flow with
          | normal => exact .cons (.eval same condKeeps) again
          | cont => exact .cons (.eval same condKeeps) again
          | brk => exact .none
          | ret value => exact .none

end Point

private theorem initPoints_kept {program : Program} {context : Context} {fuel : Nat}
    {commands : List Command} {state : State} (same : context.program = program)
    (keep : commandsKeepUpdates commands = true) :
    Point.AllKept program (initPoints context fuel commands state) := by
  induction commands generalizing state with
  | nil => exact .none
  | cons first rest ih =>
      obtain ⟨firstKeeps, restKeep⟩ := Bool.and_eq_true_iff.mp keep
      exact .cons (.exec same firstKeeps) fun _ _ => ih restKeep

/-- A run of a program that passes the check mixes no kinds. -/
theorem Visits.not_mixesKinds {fuel : Nat} {program : Program} {entry : FunctionId} {limit : Nat}
    {world : World} {point : Point} (keeps : program.keepsUpdates = true)
    (visited : Visits fuel program entry limit world point) : ¬point.MixesKinds := by
  have start : Point.AllKept program (runPoints fuel program entry limit world) := by
    intro first listed
    rcases List.mem_append.mp listed with declared | called
    · exact initPoints_kept rfl (Bool.and_eq_true_iff.mp keeps).1 first declared
    · exact Point.AllKept.after (fun _ _ => .one (.call rfl)) first called
  have kept : point.Kept program :=
    visited.induction start fun _ holds next called => holds.calls keeps next called
  exact kept.not_mixesKinds

end Machine

end MiniC
