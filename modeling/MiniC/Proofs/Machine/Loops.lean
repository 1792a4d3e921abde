import MiniC.Proofs.Machine.Fuel

/-!
Loops in other forms.

Two commands mean the same when with enough fuel both end, and in the same way.
A loop with a step means what a loop with the step at the end of its body does,
if the body has no `continue` that would leave the step out. A loop that tests
its condition behind the body is the body and a loop that tests it first.
-/

namespace MiniC

/-- A `continue` stands in the command, and no loop of the command catches it. -/
inductive Command.Continues : Command → Prop where
  | cont : Continues .cont
  | block {body : List Command} {command : Command} :
      command ∈ body → Continues command → Continues (.block body)
  | yes {cond : Term} {yes : Command} {no : Option Command} :
      Continues yes → Continues (.branch cond yes no)
  | no {cond : Term} {yes no : Command} :
      Continues no → Continues (.branch cond yes (some no))

def Command.withStep (body : Command) (step : Option Term) : Command :=
  .block (.block [body] :: step.toList.map .expr)

namespace Machine

/-- With enough fuel, the command ends in this way. -/
def Executes (context : Context) (command : Command) (state : State) (outcome : Outcome Flow) :
    Prop :=
  outcome ≠ .exhausted ∧ ∃ fuel, exec context fuel command state = outcome

def Equivalent (context : Context) (first second : Command) : Prop :=
  ∀ state outcome, Executes context first state outcome ↔ Executes context second state outcome

variable {context : Context} {fuel more : Nat} {state : State}

/-- The second command does with some more fuel what the first one does. -/
theorem Executes.of_below {first second : Command} {outcome : Outcome Flow} (extra : Nat)
    (below : ∀ fuel state,
      (exec context fuel first state).Below (exec context (fuel + extra) second state))
    (executes : Executes context first state outcome) :
    Executes context second state outcome := by
  obtain ⟨ended, fuel, ran⟩ := executes
  refine ⟨ended, fuel + extra, ?_⟩
  rw [← ran] at ended ⊢
  exact (below fuel state).eq_of_ne ended

def andThen (context : Context) (fuel : Nat) (command : Command) (next : Step Flow) : Step Flow := do
  match ← exec context fuel command with
  | .normal => next
  | flow => return flow

/-- The body of a loop and, unless it leaves the loop, what comes behind it. -/
def caught (body again : Step Flow) : Step Flow := do
  match ← body with
  | .brk => return .normal
  | .ret value => return .ret value
  | _ => again

def provided (context : Context) (fuel : Nat) (cond : Term) (next : Step Flow) : Step Flow := do
  if (← eval context fuel cond).truth then next else return .normal

def stepped (context : Context) (fuel : Nat) : Option Term → Step Flow
  | none => return .normal
  | some term => do
      let _ ← eval context fuel term
      return .normal

private theorem andThen_below {first second : Command} {next later : Step Flow}
    (below : (exec context fuel first state).Below (exec context more second state))
    (rest : ∀ middle, (next middle).Below (later middle)) :
    (andThen context fuel first next state).Below (andThen context more second later state) := by
  apply Outcome.Below.bind below
  intro flow middle
  cases flow with
  | normal => exact rest middle
  | _ => exact .refl _

private theorem caught_below {body other again later : Step Flow}
    (below : (body state).Below (other state))
    (rest : ∀ middle, (again middle).Below (later middle)) :
    (caught body again state).Below (caught other later state) := by
  apply Outcome.Below.bind below
  intro flow middle
  cases flow with
  | normal => exact rest middle
  | cont => exact rest middle
  | _ => exact .refl _

private theorem provided_below {next later : Step Flow} (le : fuel ≤ more) (cond : Term)
    (rest : ∀ middle, (next middle).Below (later middle)) :
    (provided context fuel cond next state).Below (provided context more cond later state) := by
  apply Outcome.Below.bind (eval_rising context cond fuel more le state)
  intro value middle
  by_cases holds : value.truth = true
  · rw [if_pos holds, if_pos holds]
    exact rest middle
  · rw [if_neg holds, if_neg holds]
    exact .refl _

theorem execAll_cons (first : Command) (rest : List Command) :
    execAll context (fuel + 1) (first :: rest) =
      andThen context fuel first (execAll context fuel rest) := by
  rw [execAll]
  rfl

private theorem exec_block (body : List Command) :
    exec context (fuel + 1) (.block body) = execAll context fuel body := by
  rw [exec]

private theorem andThen_normal (command : Command) :
    andThen context fuel command (pure .normal) state = exec context fuel command state := by
  unfold andThen
  cases outcome : exec context fuel command state with
  | done flow middle =>
      rw [bind_of_done outcome]
      cases flow <;> rfl
  | failed failure middle => exact bind_of_failed outcome
  | exhausted => exact bind_of_exhausted outcome

private theorem execAll_nil_below :
    (execAll context fuel [] state).Below (.done .normal state) := by
  cases fuel with
  | zero => exact .exhausted _
  | succ fuel =>
      rw [execAll]
      exact .refl _

private theorem execAll_singleton_below (command : Command) :
    (execAll context fuel [command] state).Below (exec context fuel command state) := by
  cases fuel with
  | zero => exact .exhausted _
  | succ fuel =>
      rw [execAll_cons, ← andThen_normal]
      apply andThen_below
      · exact exec_rising context command fuel (fuel + 1) (Nat.le_succ fuel) state
      · intro middle
        exact execAll_nil_below

private theorem below_execAll_singleton (command : Command) :
    (exec context fuel command state).Below (execAll context (fuel + 2) [command] state) := by
  have nothing : execAll context (fuel + 1) [] = pure .normal := by rw [execAll]
  rw [execAll_cons, nothing, andThen_normal]
  exact exec_rising context command fuel (fuel + 1) (Nat.le_succ fuel) state

/-- A block that ends with another command. -/
theorem execAll_append_below {last other : Command} {extra : Nat}
    (below : ∀ fuel state,
      (exec context fuel last state).Below (exec context (fuel + extra) other state))
    (first : List Command) (fuel : Nat) (state : State) :
    (execAll context fuel (first ++ [last]) state).Below
      (execAll context (fuel + extra) (first ++ [other]) state) := by
  induction first generalizing fuel state with
  | nil =>
      cases fuel with
      | zero => exact .exhausted _
      | succ fuel =>
          rw [Nat.add_right_comm, List.nil_append, List.nil_append, execAll_cons, execAll_cons]
          apply andThen_below (below fuel state)
          intro middle
          exact execAll_rising context [] fuel (fuel + extra) (Nat.le_add_right fuel extra) middle
  | cons command rest ih =>
      cases fuel with
      | zero => exact .exhausted _
      | succ fuel =>
          rw [Nat.add_right_comm, List.cons_append, List.cons_append, execAll_cons, execAll_cons]
          apply andThen_below
          · exact exec_rising context command fuel (fuel + extra) (Nat.le_add_right fuel extra) state
          · intro middle
            exact ih fuel middle

private theorem block_append_below {last other : Command} {extra : Nat}
    (below : ∀ fuel state,
      (exec context fuel last state).Below (exec context (fuel + extra) other state))
    (first : List Command) (fuel : Nat) (state : State) :
    (exec context fuel (.block (first ++ [last])) state).Below
      (exec context (fuel + extra) (.block (first ++ [other])) state) := by
  cases fuel with
  | zero => exact .exhausted _
  | succ fuel =>
      rw [Nat.add_right_comm, exec_block, exec_block]
      exact execAll_append_below below first fuel state

theorem exec_expr (term : Term) :
    exec context (fuel + 1) (.expr term) = stepped context fuel (some term) := by
  rw [exec]
  rfl

private theorem stepped_rising (step : Option Term) : Rising (stepped context · step) := by
  intro fuel more le state
  cases step with
  | none => exact .refl _
  | some term =>
      apply Outcome.Below.bind (eval_rising context term fuel more le state)
      intro value middle
      exact .refl _

private theorem execAll_step_below (step : Option Term) :
    (execAll context fuel (step.toList.map .expr) state).Below (stepped context fuel step state) := by
  cases step with
  | none => exact execAll_nil_below
  | some term =>
      have less := exec_rising context (.expr term) fuel (fuel + 1) (Nat.le_succ fuel) state
      rw [← exec_expr]
      exact (execAll_singleton_below (.expr term)).trans less

private theorem below_execAll_step (step : Option Term) :
    (stepped context fuel step state).Below
      (execAll context (fuel + 3) (step.toList.map .expr) state) := by
  cases step with
  | none =>
      have nothing : execAll context (fuel + 3) [] = pure .normal := by rw [execAll]
      change Outcome.Below _ (execAll context (fuel + 3) [] state)
      rw [nothing]
      exact .refl _
  | some term =>
      rw [← exec_expr]
      exact below_execAll_singleton (.expr term)

private theorem withStep_below (body : Command) (step : Option Term) :
    (exec context fuel (body.withStep step) state).Below
      (andThen context fuel body (stepped context fuel step) state) := by
  cases fuel with
  | zero => exact .exhausted _
  | succ fuel =>
      rw [Command.withStep, exec_block]
      cases fuel with
      | zero => exact .exhausted _
      | succ fuel =>
          rw [execAll_cons]
          apply andThen_below
          · cases fuel with
            | zero => exact .exhausted _
            | succ fuel =>
                rw [exec_block]
                apply (execAll_singleton_below body).trans
                exact exec_rising context body fuel (fuel + 3) (Nat.le_add_right fuel 3) state
          · intro middle
            apply (execAll_step_below step).trans
            exact stepped_rising step fuel (fuel + 2) (Nat.le_add_right fuel 2) middle

private theorem below_withStep (body : Command) (step : Option Term) :
    (andThen context fuel body (stepped context fuel step) state).Below
      (exec context (fuel + 5) (body.withStep step) state) := by
  rw [Command.withStep, exec_block, execAll_cons]
  apply andThen_below
  · rw [exec_block]
    exact below_execAll_singleton body
  · intro middle
    exact below_execAll_step step

/-! ### Loops with a step -/

theorem stepped_normal {step : Option Term} {flow : Flow} {last : State}
    (done : stepped context fuel step state = .done flow last) : flow = .normal := by
  cases step with
  | none =>
      cases done
      rfl
  | some term =>
      obtain ⟨_, _, _, built⟩ := bind_eq_done done
      cases built
      rfl

private theorem execWhile_eq (cond : Term) (body : Command) (step : Option Term) :
    execWhile context (fuel + 1) cond body step =
      provided context fuel cond (caught (exec context fuel body) do
        let _ ← stepped context fuel step
        execWhile context fuel cond body step) := by
  cases step with
  | none =>
      rw [execWhile]
      rfl
  | some term =>
      rw [execWhile, stepped, bind_bind]
      rfl

private theorem execDo_eq (body : Command) (cond : Term) :
    execDo context (fuel + 1) body cond =
      caught (exec context fuel body)
        (provided context fuel cond (execDo context fuel body cond)) := by
  rw [execDo]
  rfl

/-- A body that does not continue comes to the step, unless it leaves the loop. -/
theorem caught_stepped {body : Command} {step : Option Term} {again : Step Flow}
    (straight : ∀ last, exec context fuel body state ≠ .done .cont last) :
    caught (exec context fuel body) (do let _ ← stepped context fuel step; again) state =
      caught (andThen context fuel body (stepped context fuel step)) again state := by
  unfold caught andThen
  rw [bind_bind]
  apply bind_congr_of_done
  intro flow middle outcome
  cases flow with
  | brk => rfl
  | ret value => rfl
  | cont => exact absurd outcome (straight middle)
  | normal =>
      apply bind_congr_of_done
      intro flow last done
      rw [stepped_normal done]

private theorem execWhile_of_straight {cond : Term} {body : Command} {step : Option Term}
    (straight : ∀ state last, exec context fuel body state ≠ .done .cont last) :
    execWhile context (fuel + 1) cond body step =
      provided context fuel cond (caught (andThen context fuel body (stepped context fuel step))
        (execWhile context fuel cond body step)) := by
  rw [execWhile_eq]
  exact congrArg _ (funext fun state => caught_stepped (straight state))

private theorem execWhile_without_step (cond : Term) (body : Command) :
    execWhile context (fuel + 1) cond body none =
      provided context fuel cond
        (caught (exec context fuel body) (execWhile context fuel cond body none)) := by
  rw [execWhile_eq]
  rfl

private theorem execWhile_withStep_below {cond : Term} {body : Command} {step : Option Term}
    (straight : ∀ fuel state last, exec context fuel body state ≠ .done .cont last) (fuel : Nat)
    (state : State) :
    (execWhile context fuel cond (body.withStep step) none state).Below
      (execWhile context fuel cond body step state) := by
  induction fuel generalizing state with
  | zero => exact .exhausted _
  | succ fuel ih =>
      rw [execWhile_without_step, execWhile_of_straight (straight fuel)]
      apply provided_below (Nat.le_refl fuel)
      intro middle
      apply caught_below
      · exact withStep_below body step
      · exact ih

private theorem below_execWhile_withStep {cond : Term} {body : Command} {step : Option Term}
    (straight : ∀ fuel state last, exec context fuel body state ≠ .done .cont last) (fuel : Nat)
    (state : State) :
    (execWhile context fuel cond body step state).Below
      (execWhile context (fuel + 5) cond (body.withStep step) none state) := by
  induction fuel generalizing state with
  | zero => exact .exhausted _
  | succ fuel ih =>
      rw [Nat.add_right_comm, execWhile_without_step, execWhile_of_straight (straight fuel)]
      apply provided_below (Nat.le_add_right fuel 5)
      intro middle
      apply caught_below
      · exact below_withStep body step
      · exact ih

private theorem execWhile_straight {cond : Term} {body : Command} {step : Option Term} (fuel : Nat)
    (state last : State) : execWhile context fuel cond body step state ≠ .done .cont last := by
  induction fuel generalizing state with
  | zero => nofun
  | succ fuel ih =>
      intro done
      rw [execWhile_eq] at done
      obtain ⟨value, middle, _, done⟩ := bind_eq_done done
      split at done
      · obtain ⟨flow, between, _, done⟩ := bind_eq_done done
        split at done
        · cases done
        · cases done
        · obtain ⟨_, further, _, done⟩ := bind_eq_done done
          exact ih further done
      · cases done

private theorem execDo_straight {body : Command} {cond : Term} (fuel : Nat) (state last : State) :
    execDo context fuel body cond state ≠ .done .cont last := by
  induction fuel generalizing state with
  | zero => nofun
  | succ fuel ih =>
      intro done
      rw [execDo_eq] at done
      obtain ⟨flow, middle, _, done⟩ := bind_eq_done done
      split at done
      · cases done
      · cases done
      · obtain ⟨value, between, _, done⟩ := bind_eq_done done
        split at done
        · exact ih between done
        · cases done

private theorem continues_of_execAll {body : List Command} {last : State}
    (each : ∀ less, less < fuel → ∀ command state last,
      exec context less command state = .done .cont last → command.Continues)
    (done : execAll context fuel body state = .done .cont last) :
    ∃ command ∈ body, command.Continues := by
  induction body generalizing fuel state with
  | nil =>
      cases fuel with
      | zero => cases done
      | succ fuel => cases done
  | cons first rest ih =>
      cases fuel with
      | zero => cases done
      | succ fuel =>
          rw [execAll_cons] at done
          obtain ⟨flow, middle, ran, done⟩ := bind_eq_done done
          cases flow with
          | normal =>
              obtain ⟨command, listed, continues⟩ :=
                ih (fun less lower => each less (Nat.lt_succ_of_lt lower)) done
              exact ⟨command, List.mem_cons_of_mem first listed, continues⟩
          | cont =>
              have here := each fuel (Nat.lt_succ_self fuel) first state middle ran
              exact ⟨first, List.mem_cons_self, here⟩
          | brk => cases done
          | ret value => cases done

/-- A command that ends with a `continue` has one in its text. -/
theorem continues_of_cont {command : Command} {last : State}
    (done : exec context fuel command state = .done .cont last) : command.Continues := by
  induction fuel using Nat.strongRecOn generalizing command state last with
  | _ fuel ih =>
      cases fuel with
      | zero => cases done
      | succ fuel =>
          cases command with
          | expr term =>
              rw [exec_expr] at done
              cases stepped_normal done
          | block body =>
              rw [exec_block] at done
              obtain ⟨command, listed, continues⟩ := continues_of_execAll
                (fun less lower _ _ _ ran => ih less (Nat.lt_succ_of_lt lower) ran) done
              exact .block listed continues
          | branch cond yes no =>
              cases no with
              | none =>
                  rw [exec] at done
                  obtain ⟨value, middle, _, done⟩ := bind_eq_done done
                  split at done
                  · exact .yes (ih fuel (Nat.lt_succ_self fuel) done)
                  · cases done
              | some no =>
                  rw [exec] at done
                  obtain ⟨value, middle, _, done⟩ := bind_eq_done done
                  split at done
                  · exact .yes (ih fuel (Nat.lt_succ_self fuel) done)
                  · exact .no (ih fuel (Nat.lt_succ_self fuel) done)
          | whileLoop cond body step => exact absurd done (execWhile_straight fuel state last)
          | doLoop body cond => exact absurd done (execDo_straight fuel state last)
          | brk => cases done
          | cont => exact .cont
          | ret value =>
              cases value with
              | none => cases done
              | some value =>
                  obtain ⟨_, _, _, done⟩ := bind_eq_done done
                  cases done
          | newArray slot kind length =>
              obtain ⟨_, _, _, done⟩ := bind_eq_done done
              obtain ⟨_, _, _, done⟩ := bind_eq_done done
              cases done
          | newStruct slot name members => cases done
          | bind slot value =>
              obtain ⟨_, _, _, done⟩ := bind_eq_done done
              cases done

/-! ### Loops in other forms -/

private theorem exec_whileLoop (cond : Term) (body : Command) (step : Option Term) :
    exec context (fuel + 1) (.whileLoop cond body step) =
      execWhile context fuel cond body step := by
  rw [exec]

private theorem exec_doLoop (body : Command) (cond : Term) :
    exec context (fuel + 1) (.doLoop body cond) = execDo context fuel body cond := by
  rw [exec]

/-- The step of a loop may stand at the end of a body that does not continue. -/
theorem equivalent_withStep (first : List Command) (cond : Term) {body : Command}
    (step : Option Term) (straight : ¬ body.Continues) :
    Equivalent context (.block (first ++ [.whileLoop cond body step]))
      (.block (first ++ [.whileLoop cond (body.withStep step) none])) := by
  have never : ∀ fuel state last, exec context fuel body state ≠ .done .cont last :=
    fun _ _ _ done => straight (continues_of_cont done)
  intro state outcome
  constructor
  · apply Executes.of_below 5
    apply block_append_below
    intro fuel state
    cases fuel with
    | zero => exact .exhausted _
    | succ fuel =>
        rw [Nat.add_right_comm, exec_whileLoop, exec_whileLoop]
        exact below_execWhile_withStep never fuel state
  · apply Executes.of_below 0
    apply block_append_below
    intro fuel state
    cases fuel with
    | zero => exact .exhausted _
    | succ fuel =>
        rw [Nat.add_zero, exec_whileLoop, exec_whileLoop]
        exact execWhile_withStep_below never fuel state

/-- The body ends with no `break` and no `continue`. -/
def Uninterrupted (context : Context) (body : Command) : Prop :=
  ∀ fuel state last, exec context fuel body state ≠ .done .brk last ∧
    exec context fuel body state ≠ .done .cont last

private theorem Uninterrupted.caught_eq {body : Command} (whole : Uninterrupted context body)
    (fuel : Nat) (again : Step Flow) :
    caught (exec context fuel body) again = andThen context fuel body again := by
  funext state
  apply bind_congr_of_done
  intro flow middle outcome
  cases flow with
  | normal => rfl
  | ret value => rfl
  | brk => exact absurd outcome (whole fuel state middle).1
  | cont => exact absurd outcome (whole fuel state middle).2

private theorem execDo_below_execWhile {body : Command} (whole : Uninterrupted context body)
    (cond : Term)
    (fuel : Nat) (state : State) :
    (execDo context fuel body cond state).Below
      (andThen context fuel body (execWhile context fuel cond body none) state) := by
  induction fuel generalizing state with
  | zero => exact .exhausted _
  | succ fuel ih =>
      rw [execDo_eq, whole.caught_eq, execWhile_without_step, whole.caught_eq]
      apply andThen_below
      · exact exec_rising context body fuel (fuel + 1) (Nat.le_succ fuel) state
      · intro middle
        exact provided_below (Nat.le_refl fuel) cond ih

private theorem execWhile_below_execDo {body : Command} (whole : Uninterrupted context body)
    (cond : Term)
    (fuel : Nat) (state : State) :
    (execWhile context fuel cond body none state).Below
      (provided context fuel cond (execDo context fuel body cond) state) := by
  induction fuel generalizing state with
  | zero => exact .exhausted _
  | succ fuel ih =>
      rw [execWhile_without_step, whole.caught_eq, execDo_eq, whole.caught_eq]
      apply provided_below (Nat.le_succ fuel)
      intro middle
      exact andThen_below (.refl _) ih

/-- A loop that tests its condition behind the body is the body, and a loop that tests it first. -/
theorem equivalent_doLoop {body : Command} (cond : Term) (whole : Uninterrupted context body) :
    Equivalent context (.doLoop body cond) (.block [body, .whileLoop cond body none]) := by
  intro state outcome
  constructor
  · apply Executes.of_below 4
    intro fuel state
    cases fuel with
    | zero => exact .exhausted _
    | succ fuel =>
        rw [exec_doLoop, exec_block, execAll_cons]
        apply (execDo_below_execWhile whole cond fuel state).trans
        apply andThen_below
        · exact exec_rising context body fuel (fuel + 3) (Nat.le_add_right fuel 3) state
        · intro middle
          rw [← exec_whileLoop]
          exact below_execAll_singleton _
  · apply Executes.of_below 0
    intro fuel state
    cases fuel with
    | zero => exact .exhausted _
    | succ fuel =>
        rw [exec_block]
        cases fuel with
        | zero => exact .exhausted _
        | succ fuel =>
            rw [execAll_cons, Nat.add_zero, exec_doLoop, execDo_eq, whole.caught_eq]
            apply andThen_below (.refl _)
            intro middle
            apply (execAll_singleton_below _).trans
            cases fuel with
            | zero => exact .exhausted _
            | succ fuel =>
                rw [exec_whileLoop]
                apply (execWhile_below_execDo whole cond fuel middle).trans
                apply provided_below (Nat.le_succ fuel)
                intro between
                exact execDo_rising context body cond fuel (fuel + 1) (Nat.le_succ fuel) between

end Machine
end MiniC
