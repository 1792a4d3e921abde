import MiniC.Proofs.Soundness.Eval

/-!
Execution keeps states well typed.

A command that ends normally leaves its declarations behind it; one that breaks,
continues or returns may have skipped some of them, so only the variables before
it are still known. With the loops, every call of the evaluator behaves well,
whatever its fuel.
-/

namespace MiniC.Soundness

open Lowering Machine Typing

variable {G : Guarantee} {program : Program} {globals vars out : Variables}
  {context : Machine.Context} {setting : Setting} {inLoop : Bool} {state after : Machine.State}
  {fuel : Nat}

namespace Flows

theorem declared (le : vars.Le out) (later : Later G setting out state after) :
    Flows G setting inLoop vars out state .normal after where
  later := ⟨later.typed.fewer le, later.extended⟩
  normal := fun _ => later.typed
  jump := by
    rintro (impossible | impossible)
    · cases impossible
    · cases impossible
  ret := nofun

theorem broken (later : Later G setting vars state after) (looping : inLoop = true) :
    Flows G setting inLoop vars out state .brk after where
  later := later
  normal := nofun
  jump := fun _ => looping
  ret := nofun

theorem continued (later : Later G setting vars state after) (looping : inLoop = true) :
    Flows G setting inLoop vars out state .cont after where
  later := later
  normal := nofun
  jump := fun _ => looping
  ret := nofun

theorem returned {value : Value} (later : Later G setting vars state after)
    (answers : Answers G setting after.world.heap value) :
    Flows G setting inLoop vars out state (.ret value) after where
  later := later
  normal := nofun
  jump := by
    rintro (impossible | impossible)
    · cases impossible
    · cases impossible
  ret := by
    intro other same
    cases same
    exact answers

theorem forget {flow : Flow} (flows : Flows G setting inLoop vars out state flow after) :
    Flows G setting inLoop vars vars state flow after :=
  { flows with normal := fun _ => flows.later.typed }

end Flows

private theorem newArray_ends {slot : Slot} (typed : StateTyped G setting vars state)
    (has : setting.HasReference slot) (kind : Kind) (size : Int64) :
    Ends G (newArray slot kind size state) fun _ after =>
      Later G setting (vars.withReference slot (.array (.num kind))) state after := by
  unfold newArray
  simp only
  split
  · obtain ⟨grown, hasType⟩ := newArray_typed typed.heap kind size.toInt.toNat
    have allocated : Later G setting vars state
        (state.onHeap (·.newArray kind size.toInt.toNat)).2 := typed.onHeap grown
    exact .of_done (allocated.trans (allocated.typed.setReference has hasType))
  · refine .of_failed fun impossible => ?_
    cases impossible

private theorem newStruct_ends {slot : Slot} {name : String} {members : List (String × Ty)}
    (typed : StateTyped G setting vars state) (has : setting.HasReference slot)
    (object : (Ty.struct name members).isObject = true) :
    Ends G (newStruct slot name members state) fun _ after =>
      Later G setting (vars.withReference slot (.struct name members)) state after := by
  have declarable : (Ty.struct name members).isDeclarable = true := object
  obtain ⟨grown, hasType⟩ := zeroOf_typed typed.heap declarable
  have allocated : Later G setting vars state
      (state.onHeap (·.newStruct name members)).2 := typed.onHeap grown
  exact .of_done (allocated.trans (allocated.typed.setReference has hasType))

/-! ### Commands -/

private theorem exec_behaves {command : Command} (less : Behaved G program globals fuel)
    (here : Here G program globals context setting vars state)
    (typed : Command.Typed setting inLoop vars command out) :
    Behaves G program globals (Flows G setting inLoop vars out state)
      (exec context (fuel + 1) command state) (.exec context (fuel + 1) command state) := by
  apply Good.behaves
  rw [Point.calls]
  have le := typed.le
  cases command with
  | expr term =>
      rw [exec, Point.commandCalls]
      refine ((less.eval here typed).good (.eval here typed)).last ?_
      intro value last yields
      exact .of_done (.declared le yields.later)
  | block body =>
      cases typed with
      | block inside bodyTyped =>
          rw [exec, Point.commandCalls]
          exact (less.execAll here inside bodyTyped).good (.execAll here inside bodyTyped)
  | branch cond yes no =>
      cases typed with
      | branch _ condTyped _ yesTyped noTyped =>
          rw [exec, Point.commandCalls]
          refine (less.term here condTyped).bind ?_
          intro value between yields
          split
          · refine (less.command (here.later yields.later) yesTyped).imp ?_
            intro flow last flows
            exact flows.forget.since yields.later (.refl vars)
          · refine (less.command (here.later yields.later) noTyped).imp ?_
            intro flow last flows
            exact flows.forget.since yields.later (.refl vars)
      | branchOnly _ condTyped _ yesTyped =>
          rw [exec, Point.commandCalls]
          refine (less.term here condTyped).bind ?_
          intro value between yields
          split
          · refine (less.command (here.later yields.later) yesTyped).imp ?_
            intro flow last flows
            exact flows.forget.since yields.later (.refl vars)
          · exact .of_ends (.of_done (.declared le yields.later))
  | whileLoop cond body step =>
      cases typed with
      | whileLoop _ condTyped _ bodyTyped stepTyped =>
          rw [exec, Point.commandCalls]
          exact (less.execWhile inLoop here condTyped bodyTyped stepTyped).good
            (.execWhile here condTyped bodyTyped stepTyped)
  | doLoop body cond =>
      cases typed with
      | doLoop _ bodyTyped condTyped _ =>
          rw [exec, Point.commandCalls]
          exact (less.execDo inLoop here bodyTyped condTyped).good
            (.execDo here bodyTyped condTyped)
  | brk =>
      cases typed with
      | brk => exact .of_ends (.of_done (.broken here.typed.later rfl))
  | cont =>
      cases typed with
      | cont => exact .of_ends (.of_done (.continued here.typed.later rfl))
  | ret value? =>
      cases typed with
      | retVoid isVoid =>
          exact .of_ends (.of_done (.returned here.typed.later
            ⟨.void, isVoid, trivial, fun _ => rfl⟩))
      | ret valueTyped sameTy notVoid =>
          rw [exec, Point.commandCalls]
          refine (less.term here valueTyped).last ?_
          intro value last yields
          exact .of_done (.returned yields.later
            ⟨_, sameTy, yields.hasType, fun isVoid => absurd isVoid notVoid⟩)
  | newArray slot kind length =>
      cases typed with
      | newArray lengthTyped _ _ has _ =>
          rw [exec, Point.commandCalls]
          refine (less.term here lengthTyped).last ?_
          intro size between yields
          refine (newArray_ends yields.later.typed has kind size.toI64).bind ?_
          intro _ last _ allocated
          exact .of_done (.declared le (yields.later.trans allocated))
  | newStruct slot name members =>
      cases typed with
      | newStruct object _ has _ =>
          rw [exec]
          refine .of_ends ((newStruct_ends here.typed has object).bind ?_)
          intro _ last _ allocated
          exact .of_done (.declared le allocated)
  | bind slot value =>
      cases typed with
      | bind valueTyped _ _ has _ =>
          rw [exec, Point.commandCalls]
          refine (less.term here valueTyped).last ?_
          intro result between yields
          have bound := yields.later.typed.setReference has yields.hasType
          exact .of_done (.declared le (yields.later.trans bound))

private theorem execAll_behaves {commands : List Command}
    (less : Behaved G program globals fuel)
    (here : Here G program globals context setting vars state)
    (inside : setting.region = .activation)
    (typed : Commands.Typed setting inLoop vars commands out) :
    Behaves G program globals (Flows G setting inLoop vars out state)
      (execAll context (fuel + 1) commands state) (.execAll context (fuel + 1) commands state) := by
  apply Good.behaves
  cases typed with
  | nil => exact .of_ends (.of_done (.declared (.refl vars) here.typed.later))
  | @cons _ _ middle _ _ _ firstTyped restTyped =>
      rw [execAll, Point.calls]
      refine (less.command here firstTyped).bind ?_
      intro flow between flows
      cases flow with
      | normal =>
          have arrived : Here G program globals context setting middle between :=
            here.declared (Command.Typed.sameGlobals inside firstTyped) (flows.normal rfl)
          refine ((less.execAll arrived inside restTyped).good
            (.execAll arrived inside restTyped)).imp ?_
          intro flow last rest
          exact rest.since flows.later firstTyped.le
      | brk => exact .of_ends (.of_done (.broken flows.later (flows.jump (.inl rfl))))
      | cont => exact .of_ends (.of_done (.continued flows.later (flows.jump (.inr rfl))))
      | ret value => exact .of_ends (.of_done (.returned flows.later (flows.ret value rfl)))

private theorem again_good {cond : Term} {body : Command} {step : Option Term}
    (less : Behaved G program globals fuel)
    (here : Here G program globals context setting vars state)
    (condTyped : Term.Typed setting vars cond)
    (bodyTyped : Command.Typed setting true vars body out)
    (stepTyped : ∀ term, step = some term → Term.Typed setting vars term) :
    Good G program globals (Flows G setting inLoop vars vars state)
      ((match step with
        | some term => (do
            let _ ← eval context fuel term
            execWhile context fuel cond body step : Step Flow)
        | none => execWhile context fuel cond body step) state)
      (Point.againCalls context fuel cond body step state) := by
  have loop {between : Machine.State}
      (arrived : Here G program globals context setting vars between) :=
    (less.execWhile inLoop arrived condTyped bodyTyped stepTyped).good
      (.execWhile arrived condTyped bodyTyped stepTyped)
  cases step with
  | none => exact loop here
  | some term =>
      refine (less.term here (stepTyped term rfl)).bind ?_
      intro value between yields
      refine (loop (here.later yields.later)).imp ?_
      intro flow last flows
      exact flows.since yields.later (.refl vars)

private theorem execWhile_behaves {cond : Term} {body : Command} {step : Option Term}
    (less : Behaved G program globals fuel)
    (here : Here G program globals context setting vars state)
    (condTyped : Term.Typed setting vars cond)
    (bodyTyped : Command.Typed setting true vars body out)
    (stepTyped : ∀ term, step = some term → Term.Typed setting vars term) :
    Behaves G program globals (Flows G setting inLoop vars vars state)
      (execWhile context (fuel + 1) cond body step state)
      (.execWhile context (fuel + 1) cond body step state) := by
  apply Good.behaves
  unfold execWhile
  rw [Point.calls]
  refine (less.term here condTyped).bind ?_
  intro value between yields
  split
  · have arrived := here.later yields.later
    refine (less.command arrived bodyTyped).bind ?_
    intro flow behind flows
    have since := yields.later.trans flows.later
    have again : Good G program globals (Flows G setting inLoop vars vars state) _ _ :=
      (again_good less (arrived.later flows.later) condTyped bodyTyped stepTyped).imp
        fun _ _ rest => rest.since since (.refl vars)
    cases flow with
    | normal => exact again
    | cont => exact again
    | brk => exact .of_ends (.of_done (.declared (.refl vars) since))
    | ret result =>
        exact .of_ends (.of_done (.returned since (flows.ret result rfl)))
  · exact .of_ends (.of_done (.declared (.refl vars) yields.later))

private theorem execDo_behaves {body : Command} {cond : Term}
    (less : Behaved G program globals fuel)
    (here : Here G program globals context setting vars state)
    (bodyTyped : Command.Typed setting true vars body out)
    (condTyped : Term.Typed setting vars cond) :
    Behaves G program globals (Flows G setting inLoop vars vars state)
      (execDo context (fuel + 1) body cond state)
      (.execDo context (fuel + 1) body cond state) := by
  apply Good.behaves
  rw [execDo, Point.calls]
  refine (less.command here bodyTyped).bind ?_
  intro flow between flows
  have arrived := here.later flows.later
  have again : Good G program globals (Flows G setting inLoop vars vars state)
      ((do
        if (← eval context fuel cond).truth then execDo context fuel body cond
        else return .normal : Step Flow) between)
      ([.eval context fuel cond between] ++ Machine.after (eval context fuel cond between)
        fun value behind =>
          if value.truth then [.execDo context fuel body cond behind] else []) := by
    refine (less.term arrived condTyped).bind ?_
    intro value behind yields
    have since := flows.later.trans yields.later
    split
    · have back := arrived.later yields.later
      refine ((less.execDo inLoop back bodyTyped condTyped).good
        (.execDo back bodyTyped condTyped)).imp ?_
      intro flow last rest
      exact rest.since since (.refl vars)
    · exact .of_ends (.of_done (.declared (.refl vars) since))
  cases flow with
  | normal => exact again
  | cont => exact again
  | brk => exact .of_ends (.of_done (.declared (.refl vars) flows.later))
  | ret result => exact .of_ends (.of_done (.returned flows.later (flows.ret result rfl)))

/-- Every call of the evaluator in a well-formed program behaves well. -/
theorem behaved {calls : Bool} (wellFormed : program.Typed calls globals) (fuel : Nat) :
    Behaved G program globals fuel := by
  induction fuel with
  | zero =>
      -- without fuel nothing is called and nothing ends
      exact
        { eval := fun _ _ => Good.behaves (.of_ends .of_exhausted)
          evalAll := fun _ _ => Good.behaves (.of_ends .of_exhausted)
          locate := fun _ _ => Good.behaves (.of_ends .of_exhausted)
          call := fun _ _ _ _ => Good.behaves (.of_ends .of_exhausted)
          exec := fun _ _ => Good.behaves (.of_ends .of_exhausted)
          execAll := fun _ _ _ => Good.behaves (.of_ends .of_exhausted)
          execWhile := fun _ _ _ _ _ => Good.behaves (.of_ends .of_exhausted)
          execDo := fun _ _ _ _ => Good.behaves (.of_ends .of_exhausted) }
  | succ fuel less =>
      exact
        { eval := eval_behaves less
          evalAll := evalAll_behaves less
          locate := locate_behaves less
          call := call_behaves wellFormed less
          exec := exec_behaves less
          execAll := execAll_behaves less
          execWhile := fun _ => execWhile_behaves less
          execDo := fun _ => execDo_behaves less }

theorem Ready.calls {calls : Bool} {point : Point}
    (wellFormed : program.Typed calls globals) (ready : Ready G program globals point)
    (clean : Clean G point) : ∀ next ∈ point.calls, Ready G program globals next := by
  cases ready with
  | eval here typed => exact ((behaved wellFormed _).eval here typed clean).2
  | evalAll here typed => exact ((behaved wellFormed _).evalAll here typed clean).2
  | locate here typed => exact ((behaved wellFormed _).locate here typed clean).2
  | @locateScalar _ fuel slot state =>
      intro next impossible
      cases fuel with
      | zero => cases impossible
      | succ less => cases impossible
  | call same signature outside args =>
      exact ((behaved wellFormed _).call same signature outside args clean).2
  | exec here typed => exact ((behaved wellFormed _).exec here typed clean).2
  | execAll here inside typed => exact ((behaved wellFormed _).execAll here inside typed clean).2
  | execWhile here cond body step =>
      exact ((behaved wellFormed _).execWhile false here cond body step clean).2
  | execDo here body cond => exact ((behaved wellFormed _).execDo false here body cond clean).2

end MiniC.Soundness
