import MiniC.Proofs.Machine.Evaluation
import MiniC.Proofs.Soundness.Run

/-!
Truth values.

A term of the type of truth values yields a truth value, or the empty value of a
variable that nothing has been put in. This much holds in every run, whatever
casts have done to the types of updates, also if the entry has parameters, for
which a run has no arguments.
-/

namespace MiniC.Soundness

open Lowering Machine Typing

/-- Scalars hold anything, but those of the type of truth values hold one or nothing. -/
def Guarantee.truths : Guarantee where
  admits := fun ty value => ty = .bool → value = .void ∨ value.ty? = some .bool
  exact := false
  early := true
  lacking := true
  early_of_lacking := fun _ => rfl
  typed := by
    rintro ty value typed rfl
    exact Or.inr typed
  same := fun impossible => by cases impossible
  mixed := fun _ _ _ _ _ impossible => by cases impossible

private theorem clean_truths (point : Point) : Clean .truths point where
  filled := fun _ _ _ _ _ _ _ => Or.inl rfl
  unmixed := fun impossible => by cases impossible

/-- A missing argument is of every type. -/
theorem hasType_void (heap : Heap) (ty : Ty) : HasType .truths heap .void ty := by
  cases ty with
  | array element => exact Or.inr ⟨rfl, rfl⟩
  | struct name members => exact Or.inr ⟨rfl, rfl⟩
  | void => trivial
  | _ => exact fun _ => Or.inl rfl

theorem valuesTyped_nil (heap : Heap) (params : List Ty) : ValuesTyped .truths heap [] params :=
  fun _ ty _ => hasType_void heap ty

variable {program : Program} {globals : Variables}

def ReadyOrAbsent (program : Program) (globals : Variables) (point : Point) : Prop :=
  Ready .truths program globals point ∨ (point.isCall = true ∧ point.calls = [])

private theorem runPoints_ready {entry : FunctionId} {fuel limit : Nat} {world : World}
    (wellFormed : program.Typed true globals) (heap : HeapTyped .truths world.heap) :
    ∀ point ∈ runPoints fuel program entry limit world, ReadyOrAbsent program globals point := by
  intro point listed
  cases signature : program.signature? entry with
  | some types =>
      obtain ⟨params, ret⟩ := types
      have good := run_good wellFormed (fun _ => rfl) heap signature
        (fun heap => valuesTyped_nil heap params) fuel limit
      exact Or.inl ((good fun point _ => clean_truths point).2 point listed)
  | none =>
      rcases List.mem_append.mp listed with declares | called
      · have good := init_outside wellFormed (fun _ => rfl) heap fuel limit
        exact Or.inl ((good fun point _ => clean_truths point).2 point declares)
      · have absent : program.functions[entry]? = none := Option.map_eq_none_iff.mp signature
        cases outcome : execInit ⟨program, limit, 0⟩ fuel program.init (.initial program world) with
        | done value start =>
            rw [outcome] at called
            cases List.mem_singleton.mp called
            refine Or.inr ⟨rfl, ?_⟩
            cases fuel with
            | zero => rfl
            | succ fuel => simp only [Point.calls, enter, absent]
        | failed failure start =>
            rw [outcome] at called
            cases called
        | exhausted =>
            rw [outcome] at called
            cases called

theorem ready_of_visits {entry : FunctionId} {fuel limit : Nat} {world : World} {point : Point}
    (wellFormed : program.Typed true globals) (heap : HeapTyped .truths world.heap)
    (visited : Visits fuel program entry limit world point) (other : point.isCall = false) :
    Ready .truths program globals point := by
  have ready : ReadyOrAbsent program globals point := by
    refine visited.induction (runPoints_ready wellFormed heap) ?_
    rintro point (ready | ⟨_, none⟩) next called
    · exact Or.inl (ready.calls wellFormed (clean_truths point) next called)
    · rw [none] at called
      cases called
  rcases ready with ready | ⟨isCall, _⟩
  · exact ready
  · rw [other] at isCall
    cases isCall

variable {context : Machine.Context} {setting : Setting} {vars : Variables} {term : Term}
  {state last : Machine.State} {value : Value}

theorem Here.yields (wellFormed : program.Typed true globals)
    (here : Here .truths program globals context setting vars state)
    (typed : term.Typed setting vars)
    (evaluates : Evaluates context term state (.done value last)) :
    Yields .truths setting vars term.ty state value last := by
  obtain ⟨_, fuel, evaluated⟩ := evaluates
  have command : Command.Typed setting false vars (.expr term) vars := .expr typed
  exact ((behaved wellFormed fuel).eval here command (clean_truths _)).1.done value last evaluated

theorem Here.truth (wellFormed : program.Typed true globals)
    (here : Here .truths program globals context setting vars state)
    (typed : term.Typed setting vars) (isTruth : term.ty = .bool)
    (evaluates : Evaluates context term state (.done value last)) :
    value = .void ∨ value.ty? = some .bool := by
  have hasType := (here.yields wellFormed typed evaluates).hasType
  rw [isTruth] at hasType
  exact hasType rfl

end MiniC.Soundness
