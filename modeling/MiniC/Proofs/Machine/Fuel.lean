import MiniC.Proofs.Machine.Courses

/-!
More fuel.

Less fuel is a limit like others, and the only one that shows in no failure. So
what ends with some fuel ends in the same way with more of it.
-/

namespace MiniC.Machine

variable {α β : Type}

/-- The first outcome is the second one, or lacks the fuel for it. -/
def Outcome.Below (less more : Outcome α) : Prop := less = .exhausted ∨ less = more

namespace Outcome.Below

theorem refl (outcome : Outcome α) : outcome.Below outcome := Or.inr rfl

theorem exhausted (outcome : Outcome α) : Outcome.Below .exhausted outcome := Or.inl rfl

theorem trans {first second third : Outcome α} (below : first.Below second)
    (next : second.Below third) : first.Below third := by
  rcases below with spent | rfl
  · exact Or.inl spent
  · exact next

theorem eq_of_ne {less more : Outcome α} (below : less.Below more) (ended : less ≠ .exhausted) :
    more = less := by
  rcases below with spent | same
  · exact absurd spent ended
  · exact same.symm

theorem bind {first second : Step α} {next later : α → Step β} {state : State}
    (below : (first state).Below (second state))
    (rest : ∀ value middle, (next value middle).Below (later value middle)) :
    ((first >>= next) state).Below ((second >>= later) state) := by
  rcases below with spent | same
  · exact Or.inl (bind_of_exhausted spent)
  · cases outcome : first state with
    | done value middle =>
        rw [bind_of_done outcome, bind_of_done (same.symm.trans outcome)]
        exact rest value middle
    | failed failure middle =>
        rw [bind_of_failed outcome, bind_of_failed (same.symm.trans outcome)]
        exact refl _
    | exhausted => exact Or.inl (bind_of_exhausted outcome)

end Outcome.Below

/-- A step that more fuel only brings further. -/
def Rising (step : Nat → Step α) : Prop :=
  ∀ fuel more, fuel ≤ more → ∀ state, (step fuel state).Below (step more state)

private theorem Limit.below_of_decided {less : Nat} {outcome limited : Outcome α}
    (decided : (Limit.fuel less).Spares outcome limited ∨ (Limit.fuel less).Stops limited) :
    limited.Below outcome := by
  rcases decided with ⟨same, _⟩ | stops
  · refine Or.inr (same.trans ?_)
    cases outcome <;> rfl
  · cases limited with
    | done value state => exact stops.elim
    | failed failure state => cases stops
    | exhausted => exact .exhausted outcome

theorem Rising.of_decided {step : Nat → Step α}
    (decided : ∀ less fuel state,
      (Limit.fuel less).Spares (step fuel state) (step (fuel - less) state) ∨
        (Limit.fuel less).Stops (step (fuel - less) state)) : Rising step := by
  intro fuel more le state
  have decidedHere := decided (more - fuel) more state
  rw [Nat.sub_sub_self le] at decidedHere
  exact Limit.below_of_decided decidedHere

theorem eval_rising (context : Context) (term : Term) : Rising (eval context · term) :=
  .of_decided fun less fuel state =>
    (Point.decided (.fuel less) (.eval context fuel term state)).imp_right Limit.stops_forget.mp

theorem exec_rising (context : Context) (command : Command) : Rising (exec context · command) :=
  .of_decided fun less fuel state =>
    (Point.decided (.fuel less) (.exec context fuel command state)).imp_right
      Limit.stops_forget.mp

theorem execAll_rising (context : Context) (commands : List Command) :
    Rising (execAll context · commands) :=
  .of_decided fun less fuel state =>
    (Point.decided (.fuel less) (.execAll context fuel commands state)).imp_right
      Limit.stops_forget.mp

theorem execDo_rising (context : Context) (body : Command) (cond : Term) :
    Rising (execDo context · body cond) :=
  .of_decided fun less fuel state =>
    (Point.decided (.fuel less) (.execDo context fuel body cond state)).imp_right
      Limit.stops_forget.mp

theorem runWith_of_more {fuel more : Nat} (le : fuel ≤ more) {program : Program}
    {entry : FunctionId} {limit : Nat} {world last : World}
    (ended : (runWith fuel program entry limit world).world? = some last) :
    runWith more program entry limit world = runWith fuel program entry limit world := by
  have follows := run_follows (.fuel (more - fuel)) more program entry limit world
  have below : (runOutcome fuel program entry limit world).Below
      (runOutcome more program entry limit world) := by
    have decided := Limit.below_of_decided follows.decided
    change (runOutcome (more - (more - fuel)) program entry limit world).Below _ at decided
    rw [Nat.sub_sub_self le] at decided
    exact decided
  rw [runWith_eq] at ended
  rw [runWith_eq, runWith_eq, below.eq_of_ne]
  intro spent
  rw [spent] at ended
  cases ended

end MiniC.Machine
