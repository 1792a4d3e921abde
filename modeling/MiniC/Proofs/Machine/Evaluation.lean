import MiniC.Proofs.Machine.Fuel

/-!
Evaluation with as much fuel as it takes.

A step that more fuel only brings further settles on one outcome, or never ends.
Settling commutes with doing one step behind the other, so the evaluation of a
term is told by the evaluations of its parts, and no fuel appears in it.
-/

namespace MiniC.Machine

variable {α β : Type}

private theorem locate_rising (context : Context) (place : Place) :
    Rising (locate context · place) :=
  .of_decided fun less fuel state =>
    (Point.decided (.fuel less) (.locate context fuel place state)).imp_right
      Limit.stops_forget.mp

/-- More fuel only brings the step further, and enough of it to the outcomes of the whole step. -/
structure Settles (step : Nat → Step α) (whole : Step α) : Prop where
  rising : Rising step
  eventually : ∀ state, ∃ enough, ∀ fuel, enough ≤ fuel → step fuel state = whole state

namespace Settles

theorem unique {step : Nat → Step α} {first second : Step α} (settles : Settles step first)
    (other : Settles step second) : first = second := by
  funext state
  obtain ⟨enough, same⟩ := settles.eventually state
  obtain ⟨more, alike⟩ := other.eventually state
  rw [← same (max enough more) (by omega), alike (max enough more) (by omega)]

theorem below {step : Nat → Step α} {whole : Step α} (settles : Settles step whole) (fuel : Nat)
    (state : State) : (step fuel state).Below (whole state) := by
  obtain ⟨enough, same⟩ := settles.eventually state
  rw [← same (max enough fuel) (by omega)]
  exact settles.rising fuel _ (by omega) state

theorem const (step : Step α) : Settles (fun _ => step) step :=
  ⟨fun _ _ _ _ => .refl _, fun _ => ⟨0, fun _ _ => rfl⟩⟩

theorem bind {first : Nat → Step α} {next : Nat → α → Step β} {whole : Step α}
    {wholeNext : α → Step β} (settles : Settles first whole)
    (later : ∀ value, Settles (next · value) (wholeNext value)) :
    Settles (fun fuel => first fuel >>= next fuel) (whole >>= wholeNext) := by
  constructor
  · intro fuel more le state
    exact Outcome.Below.bind (settles.rising fuel more le state) fun value middle =>
      (later value).rising fuel more le middle
  · intro state
    obtain ⟨enough, same⟩ := settles.eventually state
    cases outcome : whole state with
    | done value middle =>
        obtain ⟨other, sameNext⟩ := (later value).eventually middle
        refine ⟨max enough other, fun fuel le => ?_⟩
        have done := (same fuel (by omega)).trans outcome
        rw [bind_of_done done, bind_of_done outcome]
        exact sameNext fuel (by omega)
    | failed failure middle =>
        refine ⟨enough, fun fuel le => ?_⟩
        rw [bind_of_failed ((same fuel le).trans outcome), bind_of_failed outcome]
    | exhausted =>
        refine ⟨enough, fun fuel le => ?_⟩
        rw [bind_of_exhausted ((same fuel le).trans outcome), bind_of_exhausted outcome]

/-- The unit of fuel that every call spends is not noticed. -/
theorem succ {step : Nat → Step α} {whole : Step α} (settles : Settles step whole) :
    Settles (fun fuel => step (fuel + 1)) whole := by
  constructor
  · intro fuel more le
    exact settles.rising (fuel + 1) (more + 1) (by omega)
  · intro state
    obtain ⟨enough, same⟩ := settles.eventually state
    exact ⟨enough, fun fuel le => same (fuel + 1) (by omega)⟩

end Settles

open Classical in
noncomputable def settled (step : Nat → Step α) : Step α := fun state =>
  if ended : ∃ fuel, step fuel state ≠ .exhausted then step ended.choose state else .exhausted

private theorem settles_settled {step : Nat → Step α} (rising : Rising step) :
    Settles step (settled step) := by
  refine ⟨rising, fun state => ?_⟩
  unfold settled
  split
  case isTrue ends =>
    exact ⟨ends.choose, fun fuel le => (rising _ fuel le state).eq_of_ne ends.choose_spec⟩
  case isFalse never =>
    refine ⟨0, fun fuel _ => ?_⟩
    apply Classical.not_not.mp
    intro ended
    exact never ⟨fuel, ended⟩

/-! ### Terms and places -/

/-- With enough fuel, the term evaluates in this way. -/
def Evaluates (context : Context) (term : Term) (state : State) (outcome : Outcome Value) : Prop :=
  outcome ≠ .exhausted ∧ ∃ fuel, eval context fuel term state = outcome

/-- In every state, what the one term evaluates to is what the other one does. -/
def EvaluateAlike (context : Context) (first second : Term) : Prop :=
  ∀ state outcome, Evaluates context first state outcome ↔ Evaluates context second state outcome

noncomputable def evaluation (context : Context) (term : Term) : Step Value :=
  settled (eval context · term)

noncomputable def location (context : Context) (place : Place) : Step Location :=
  settled (locate context · place)

private theorem settles_eval (context : Context) (term : Term) :
    Settles (eval context · term) (evaluation context term) :=
  settles_settled (eval_rising context term)

theorem settles_locate (context : Context) (place : Place) :
    Settles (locate context · place) (location context place) :=
  settles_settled (locate_rising context place)

theorem evaluates_iff {context : Context} {term : Term} {state : State}
    {outcome : Outcome Value} :
    Evaluates context term state outcome ↔
      outcome ≠ .exhausted ∧ evaluation context term state = outcome := by
  obtain ⟨enough, same⟩ := (settles_eval context term).eventually state
  constructor
  · rintro ⟨ended, fuel, rfl⟩
    refine ⟨ended, ?_⟩
    rw [← same (max enough fuel) (by omega)]
    exact (eval_rising context term fuel _ (by omega) state).eq_of_ne ended
  · rintro ⟨ended, rfl⟩
    exact ⟨ended, enough, same enough (Nat.le_refl _)⟩

theorem Evaluates.eq {context : Context} {term : Term} {state : State} {outcome : Outcome Value}
    (evaluates : Evaluates context term state outcome) :
    evaluation context term state = outcome :=
  (evaluates_iff.mp evaluates).2

theorem evaluates_of_done {context : Context} {term : Term} {state last : State} {value : Value}
    (evaluated : evaluation context term state = .done value last) :
    Evaluates context term state (.done value last) := by
  refine evaluates_iff.mpr ⟨?_, evaluated⟩
  intro impossible
  cases impossible

theorem evaluates_of_failed {context : Context} {term : Term} {state last : State}
    {failure : Failure} (refused : evaluation context term state = .failed failure last) :
    Evaluates context term state (.failed failure last) := by
  refine evaluates_iff.mpr ⟨?_, refused⟩
  intro impossible
  cases impossible

theorem evaluateAlike_of_eq {context : Context} {first second : Term}
    (same : evaluation context first = evaluation context second) :
    EvaluateAlike context first second := by
  intro state outcome
  rw [evaluates_iff, evaluates_iff, same]

section

variable (context : Context) (ty : Ty) (span : Span)

theorem evaluation_literal (value : Value) :
    evaluation context (.mk ty span (.literal value)) = pure value := by
  apply (settles_eval context _).succ.unique
  simp only [eval]
  exact .const _

theorem evaluation_load (place : Place) :
    evaluation context (.mk ty span (.load place)) = location context place >>= load := by
  apply (settles_eval context _).succ.unique
  simp only [eval]
  exact (settles_locate context place).bind fun _ => .const _

theorem evaluation_assign (place : Place) (value : Term) :
    evaluation context (.mk ty span (.assign place value)) = (do
      let location ← location context place
      let value ← evaluation context value
      store location value) := by
  apply (settles_eval context _).succ.unique
  simp only [eval]
  exact (settles_locate context place).bind fun location =>
    (settles_eval context value).bind fun _ => .const _

theorem evaluation_update (place : Place) (fn : BinaryFn) (operand : Kind) (rhs : Term)
    (yieldsOld : Bool) :
    evaluation context (.mk ty span (.update place fn operand rhs yieldsOld)) = (do
      let location ← location context place
      let old ← load location
      let rhs ← evaluation context rhs
      let fresh := updated fn operand ty old rhs
      let _ ← store location fresh
      return if yieldsOld then old else fresh) := by
  apply (settles_eval context _).succ.unique
  simp only [eval]
  exact (settles_locate context place).bind fun _ => (Settles.const _).bind fun _ =>
    (settles_eval context rhs).bind fun _ => .const _

private theorem evaluation_convert (kind : Kind) (value : Term) :
    evaluation context (.mk ty span (.convert kind value)) = (do
      return (← evaluation context value).convert kind) := by
  apply (settles_eval context _).succ.unique
  simp only [eval]
  exact (settles_eval context value).bind fun _ => .const _

theorem evaluation_binary (fn : BinaryFn) (left right : Term) :
    evaluation context (.mk ty span (.binary fn left right)) = (do
      let left ← evaluation context left
      let right ← evaluation context right
      return fn.apply left right) := by
  apply (settles_eval context _).succ.unique
  simp only [eval]
  exact (settles_eval context left).bind fun _ =>
    (settles_eval context right).bind fun _ => .const _

theorem location_element (slot : Slot) (index : Term) :
    location context (.element slot index) = (do
      elementLocation slot (← evaluation context index).toI64) := by
  apply (settles_locate context _).succ.unique
  simp only [locate]
  exact (settles_eval context index).bind fun _ => .const _

end

/-- A conversion that the lowering has put in. There is none where the term is of the kind, and that
of a literal has been carried out. -/
theorem evaluation_of_convert (context : Context) (term : Term) (kind : Kind) :
    evaluation context (Lowering.convert term kind) =
      if term.ty = .num kind then evaluation context term
      else do return (← evaluation context term).convert kind := by
  unfold Lowering.convert
  split
  · rfl
  · obtain ⟨ty, span, node⟩ := term
    cases node with
    | literal value =>
        change evaluation context (.mk (.num kind) span (.literal (value.convert kind))) = _
        rw [evaluation_literal, evaluation_literal]
        rfl
    | _ => exact evaluation_convert context _ _ kind _

end MiniC.Machine
