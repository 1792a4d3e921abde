import MiniC.Compile
import MiniC.Machine.Run
import MiniC.Proofs.Machine.Steps
import MiniC.Proofs.Typing.Conversion

/-!
What a run makes of fields that a script may set.

Two runs of one program are kept side by side. Their records agree on what the
host supplies, and each of the other fields is the same in both or still what it
was at the start. No step tells such states apart, so the runs take the same
way, write the same and end alike.
-/

namespace MiniC

open Lowering

/-- A field of two records that started with `leftStart` and `rightStart`: it has been set to the
same value, or has not been set. -/
def SetAlike {α : Type} (leftStart rightStart left right : α) : Prop :=
  left = right ∨ left = leftStart ∧ right = rightStart

/-- The records of two runs, which started with `leftStart` and `rightStart`. -/
structure WorkRecord.Alike (leftStart rightStart left right : WorkRecord) : Prop where
  target : left.target = right.target
  storage : left.storage = right.storage
  personalInts : left.personalInts = right.personalInts
  isPow : SetAlike leftStart.isPow rightStart.isPow left.isPow right.isPow
  isBounty : SetAlike leftStart.isBounty rightStart.isBounty left.isBounty right.isBounty
  powHash : SetAlike leftStart.powHash rightStart.powHash left.powHash right.powHash

/-- Worlds that differ in their records only, and there only alike. -/
inductive World.Alike (leftStart rightStart : WorkRecord) : World → World → Prop where
  | mk {heap : Heap} {sink : Sink} {left right : WorkRecord} :
      WorkRecord.Alike leftStart rightStart left right →
      World.Alike leftStart rightStart ⟨heap, sink, some left⟩ ⟨heap, sink, some right⟩

variable {leftStart rightStart left right : WorkRecord}

namespace Builtin

/-- The same result, in worlds that are alike. -/
inductive Outcome.Alike (leftStart rightStart : WorkRecord) : Outcome → Outcome → Prop where
  | mk {result : Except RuntimeError Value} {left right : World} :
      World.Alike leftStart rightStart left right →
      Outcome.Alike leftStart rightStart ⟨result, left⟩ ⟨result, right⟩

private theorem writeThen_alike {leftWorld rightWorld : World} {bytes : ByteArray}
    {next : World → Outcome}
    (alike : World.Alike leftStart rightStart leftWorld rightWorld)
    (rest : ∀ leftWorld rightWorld, World.Alike leftStart rightStart leftWorld rightWorld →
      Outcome.Alike leftStart rightStart (next leftWorld) (next rightWorld)) :
    Outcome.Alike leftStart rightStart (writeThen leftWorld bytes next)
      (writeThen rightWorld bytes next) := by
  obtain @⟨heap, sink, left, right, records⟩ := alike
  unfold writeThen
  simp only
  split
  · exact rest _ _ ⟨records⟩
  · exact ⟨⟨records⟩⟩

private theorem runCheckPow_alike {leftWorld rightWorld : World} (args : List Value)
    (alike : World.Alike leftStart rightStart leftWorld rightWorld) :
    Outcome.Alike leftStart rightStart (runCheckPow args leftWorld)
      (runCheckPow args rightWorld) := by
  obtain @⟨heap, sink, left, right, records⟩ := alike
  -- the hash mixes in the personal integers, the answer compares it with the target
  simp only [runCheckPow, ProofOfWork.check, Option.getD_some, Option.map_some,
    records.personalInts, records.target]
  exact ⟨⟨rfl, records.storage, rfl, records.isPow, records.isBounty, Or.inl rfl⟩⟩

private theorem runSyncR_alike {leftWorld rightWorld : World} (args : List Value)
    (alike : World.Alike leftStart rightStart leftWorld rightWorld) :
    Outcome.Alike leftStart rightStart (runSyncR args leftWorld) (runSyncR args rightWorld) := by
  obtain @⟨heap, sink, left, right, records⟩ := alike
  unfold runSyncR
  simp only
  split
  · exact ⟨⟨{ records with isPow := Or.inl rfl, isBounty := Or.inl rfl }⟩⟩
  · exact ⟨⟨records⟩⟩

private theorem runPullTheRest_alike {leftWorld rightWorld : World} (args : List Value)
    (alike : World.Alike leftStart rightStart leftWorld rightWorld) :
    Outcome.Alike leftStart rightStart (runPullTheRest args leftWorld)
      (runPullTheRest args rightWorld) := by
  obtain @⟨heap, sink, left, right, records⟩ := alike
  unfold runPullTheRest
  generalize argAt args 0 = ints
  generalize argAt args 1 = storage
  simp only
  split
  · rename_i found
    cases found
    simp only [records.storage, records.personalInts]
    split
    · exact ⟨⟨records⟩⟩
    · exact ⟨⟨records⟩⟩
  · rename_i other
    split
    · rename_i found
      cases found
      exact absurd rfl (other _ _ _ rfl rfl)
    · exact ⟨⟨records⟩⟩

theorem invoke_alike {leftWorld rightWorld : World} (builtin : Builtin) (args : List Value)
    (alike : World.Alike leftStart rightStart leftWorld rightWorld) :
    Outcome.Alike leftStart rightStart (builtin.invoke args leftWorld)
      (builtin.invoke args rightWorld) := by
  cases builtin with
  | checkPow => exact runCheckPow_alike args alike
  | syncR => exact runSyncR_alike args alike
  | pullTheRest => exact runPullTheRest_alike args alike
  | printf => exact writeThen_alike alike fun _ _ => .mk
  | puts => exact writeThen_alike alike fun _ _ alike => writeThen_alike alike fun _ _ => .mk
  | putc => exact writeThen_alike alike fun _ _ => .mk
  | fwrite =>
      obtain @⟨heap, sink, left, right, records⟩ := alike
      change Outcome.Alike _ _ (runFwrite args _) (runFwrite args _)
      unfold runFwrite
      simp only
      split
      · split
        · split
          · exact ⟨⟨records⟩⟩
          · exact writeThen_alike ⟨records⟩ fun _ _ => .mk
        · exact ⟨⟨records⟩⟩
      · exact ⟨⟨records⟩⟩
  | _ => exact ⟨alike⟩

end Builtin

namespace Machine

/-- States of two runs that have taken the same way. -/
inductive State.Alike (leftStart rightStart : WorkRecord) : State → State → Prop where
  | mk {globals locals : Frame} {left right : World} :
      World.Alike leftStart rightStart left right →
      State.Alike leftStart rightStart ⟨globals, locals, left⟩ ⟨globals, locals, right⟩

/-- The same value or the same failure, in states that are alike. -/
inductive Outcome.Alike {α : Type} (leftStart rightStart : WorkRecord) :
    Outcome α → Outcome α → Prop where
  | done {value : α} {left right : State} :
      State.Alike leftStart rightStart left right →
      Outcome.Alike leftStart rightStart (.done value left) (.done value right)
  | failed {failure : Failure} {left right : State} :
      State.Alike leftStart rightStart left right →
      Outcome.Alike leftStart rightStart (.failed failure left) (.failed failure right)
  | exhausted : Outcome.Alike leftStart rightStart .exhausted .exhausted

/-- A step that does not tell alike states apart. -/
def Blind {α : Type} (leftStart rightStart : WorkRecord) (step : Step α) : Prop :=
  ∀ left right, State.Alike leftStart rightStart left right →
    Outcome.Alike leftStart rightStart (step left) (step right)

namespace Blind

variable {α β : Type}

theorem pure (value : α) : Blind leftStart rightStart (Pure.pure value) :=
  fun _ _ => .done

theorem fail (error : RuntimeError) : Blind leftStart rightStart (Step.fail error : Step α) :=
  fun _ _ => .failed

theorem exhausted : Blind leftStart rightStart (Step.exhausted : Step α) :=
  fun _ _ _ => .exhausted

theorem bind {step : Step α} {next : α → Step β} (first : Blind leftStart rightStart step)
    (rest : ∀ value, Blind leftStart rightStart (next value)) :
    Blind leftStart rightStart (step >>= next) := by
  intro left right alike
  change Outcome.Alike _ _ (Step.bind step next left) (Step.bind step next right)
  unfold Step.bind
  have outcome := first left right alike
  revert outcome
  generalize step left = leftOutcome
  generalize step right = rightOutcome
  intro outcome
  cases outcome with
  | done between => exact rest _ _ _ between
  | failed between => exact .failed between
  | exhausted => exact .exhausted

theorem read {view : State → α}
    (same : ∀ globals locals heap sink left right,
      view ⟨globals, locals, ⟨heap, sink, left⟩⟩ = view ⟨globals, locals, ⟨heap, sink, right⟩⟩) :
    Blind leftStart rightStart (Step.read view) := by
  rintro _ _ ⟨⟨records⟩⟩
  unfold Step.read
  rw [same]
  exact .done ⟨⟨records⟩⟩

theorem modify {change : State → State}
    (keeps : ∀ left right, State.Alike leftStart rightStart left right →
      State.Alike leftStart rightStart (change left) (change right)) :
    Blind leftStart rightStart (Step.modify change) :=
  fun left right alike => .done (keeps left right alike)

theorem ite {condition : Prop} [Decidable condition] {yes no : Step α}
    (first : Blind leftStart rightStart yes) (second : Blind leftStart rightStart no) :
    Blind leftStart rightStart (if condition then yes else no) := by
  split
  · exact first
  · exact second

theorem setReference (slot : Slot) (value : Value) :
    Blind leftStart rightStart (Step.modify (State.setReference · slot value)) := by
  refine modify ?_
  rintro _ _ ⟨worlds⟩
  unfold State.setReference
  split
  · exact ⟨worlds⟩
  · exact ⟨worlds⟩

theorem setScalar (slot : Slot) (value : Value) :
    Blind leftStart rightStart (Step.modify (State.setScalar · slot value)) := by
  refine modify ?_
  rintro _ _ ⟨worlds⟩
  unfold State.setScalar
  split
  · exact ⟨worlds⟩
  · exact ⟨worlds⟩

theorem setCell (address : Address) (index : Nat) (value : Value) :
    Blind leftStart rightStart (Step.modify (State.setCell · address index value)) := by
  refine modify ?_
  rintro _ _ ⟨⟨records⟩⟩
  exact ⟨⟨records⟩⟩

theorem copyFields (source target : Address) :
    Blind leftStart rightStart (Step.modify (State.copyFields · source target)) := by
  refine modify ?_
  rintro _ _ ⟨⟨records⟩⟩
  exact ⟨⟨records⟩⟩

theorem onHeap (operation : Heap → Value × Heap) :
    Blind leftStart rightStart (Machine.onHeap operation) := by
  rintro _ _ ⟨⟨records⟩⟩
  exact .done ⟨⟨records⟩⟩

theorem allocate (slot : Slot) (operation : Heap → Value × Heap) :
    Blind leftStart rightStart (Step.modify (State.allocated · slot operation)) := by
  rintro _ _ ⟨⟨records⟩⟩
  exact setReference slot _ _ _ ⟨⟨records⟩⟩

theorem reference (slot : Slot) : Blind leftStart rightStart (Machine.reference slot) := by
  refine bind (read ?_) ?_
  · intro globals locals heap sink left right
    cases slot with
    | mk region index => cases region <;> rfl
  · intro found
    cases found with
    | none => exact fail _
    | some value => exact pure value

theorem elementLocation (slot : Slot) (index : Int64) :
    Blind leftStart rightStart (Machine.elementLocation slot index) := by
  refine bind (reference slot) ?_
  intro value
  cases value with
  | array address =>
      refine bind (read fun _ _ _ _ _ _ => rfl) ?_
      intro length
      exact ite (pure _) (fail _)
  | _ => exact fail _

theorem fieldLocation (slot : Slot) (index : Nat) :
    Blind leftStart rightStart (Machine.fieldLocation slot index) := by
  refine bind (reference slot) ?_
  intro value
  cases value with
  | struct address => exact pure _
  | _ => exact fail _

theorem load (location : Location) : Blind leftStart rightStart (Machine.load location) := by
  cases location with
  | whole slot => exact reference slot
  | element array index => exact read fun _ _ _ _ _ _ => rfl
  | field owner index => exact read fun _ _ _ _ _ _ => rfl
  | scalar slot =>
      refine read ?_
      intro globals locals heap sink left right
      cases slot with
      | mk region index => cases region <;> rfl

theorem store (location : Location) (value : Value) :
    Blind leftStart rightStart (Machine.store location value) := by
  cases location with
  | scalar slot => exact bind (setScalar slot value) fun _ => pure value
  | element array index => exact bind (setCell array index value) fun _ => pure value
  | field owner index => exact bind (setCell owner index value) fun _ => pure value
  | whole slot =>
      refine bind (read ?_) ?_
      · intro globals locals heap sink left right
        cases slot with
        | mk region index => cases region <;> rfl
      · intro found
        split
        · exact bind (copyFields _ _) fun _ => pure _
        · exact bind (setReference slot value) fun _ => pure value

theorem newArray (slot : Slot) (kind : Kind) (size : Int64) :
    Blind leftStart rightStart (Machine.newArray slot kind size) :=
  ite (allocate slot (·.newArray kind size.toInt.toNat)) (fail _)

theorem newStruct (slot : Slot) (name : String) (members : List (String × Ty)) :
    Blind leftStart rightStart (Machine.newStruct slot name members) :=
  allocate slot (·.newStruct name members)

theorem invoke (builtin : Builtin) (args : List Value) :
    Blind leftStart rightStart (Machine.invoke builtin args) := by
  rintro _ _ ⟨worlds⟩
  have outcome := Builtin.invoke_alike builtin args worlds
  unfold Machine.invoke
  simp only
  revert outcome
  generalize builtin.invoke args _ = leftOutcome
  generalize builtin.invoke args _ = rightOutcome
  rintro @⟨result, _, _, between⟩
  cases result with
  | ok value => exact .done ⟨between⟩
  | error error => exact .failed ⟨between⟩

/-- Entering a function gives both runs the same frame, and leaving it gives back what they had. -/
theorem leave {body : Step Flow} (function : Function) (frame : Frame)
    (inner : Blind leftStart rightStart body) :
    Blind leftStart rightStart fun state =>
      Machine.leave function state.locals (body ⟨state.globals, frame, state.world⟩) := by
  rintro _ _ @⟨globals, locals, _, _, worlds⟩
  have outcome := inner ⟨globals, frame, _⟩ ⟨globals, frame, _⟩ ⟨worlds⟩
  simp only
  revert outcome
  generalize body _ = leftOutcome
  generalize body _ = rightOutcome
  intro outcome
  cases outcome with
  | exhausted => exact .exhausted
  | failed between =>
      obtain ⟨between⟩ := between
      exact .failed ⟨between⟩
  | @done flow _ _ between =>
      obtain ⟨⟨records⟩⟩ := between
      cases flow with
      | ret value => exact .done ⟨⟨records⟩⟩
      | normal => exact .done ⟨⟨records⟩⟩
      | brk => exact .done ⟨⟨records⟩⟩
      | cont => exact .done ⟨⟨records⟩⟩

end Blind

/-! ### Evaluation -/

structure EvaluatesBlind (leftStart rightStart : WorkRecord) (fuel : Nat) : Prop where
  eval (context : Context) (term : Term) : Blind leftStart rightStart (eval context fuel term)
  evalAll (context : Context) (terms : List Term) :
    Blind leftStart rightStart (evalAll context fuel terms)
  locate (context : Context) (place : Place) :
    Blind leftStart rightStart (locate context fuel place)
  call (context : Context) (id : FunctionId) (args : List Value) :
    Blind leftStart rightStart (call context fuel id args)
  exec (context : Context) (command : Command) :
    Blind leftStart rightStart (exec context fuel command)
  execAll (context : Context) (commands : List Command) :
    Blind leftStart rightStart (execAll context fuel commands)
  execWhile (context : Context) (cond : Term) (body : Command) (step : Option Term) :
    Blind leftStart rightStart (execWhile context fuel cond body step)
  execDo (context : Context) (body : Command) (cond : Term) :
    Blind leftStart rightStart (execDo context fuel body cond)

namespace EvaluatesBlind

variable {fuel : Nat} {context : Context}

theorem zero : EvaluatesBlind leftStart rightStart 0 :=
  ⟨fun _ _ => .exhausted, fun _ _ => .exhausted, fun _ _ => .exhausted, fun _ _ _ => .exhausted,
    fun _ _ => .exhausted, fun _ _ => .exhausted, fun _ _ _ _ => .exhausted,
    fun _ _ _ => .exhausted⟩

theorem node (inner : EvaluatesBlind leftStart rightStart fuel) (ty : Ty) (span : Span)
    (node : Node) :
    Blind leftStart rightStart (Machine.eval context (fuel + 1) (.mk ty span node)) := by
  cases node with
  | literal value => exact .pure value
  | argument index => exact .read fun _ _ _ _ _ _ => rfl
  | load place =>
      rw [Machine.eval]
      exact .bind (inner.locate _ place) .load
  | assign place value =>
      rw [Machine.eval]
      refine .bind (inner.locate _ place) fun location => ?_
      exact .bind (inner.eval _ value) (.store location)
  | update place fn operand rhs yieldsOld =>
      rw [Machine.eval]
      refine .bind (inner.locate _ place) fun location => ?_
      refine .bind (.load location) fun old => ?_
      refine .bind (inner.eval _ rhs) fun result => ?_
      exact .bind (.store location _) fun _ => .pure _
  | convert kind value =>
      rw [Machine.eval]
      exact .bind (inner.eval _ value) fun _ => .pure _
  | truth value =>
      rw [Machine.eval]
      exact .bind (inner.eval _ value) fun _ => .pure _
  | unary fn operand =>
      rw [Machine.eval]
      exact .bind (inner.eval _ operand) fun _ => .pure _
  | copy value =>
      rw [Machine.eval]
      exact .bind (inner.eval _ value) fun _ => .onHeap _
  | binary fn first second =>
      rw [Machine.eval]
      refine .bind (inner.eval _ first) fun _ => ?_
      exact .bind (inner.eval _ second) fun _ => .pure _
  | comma first second =>
      rw [Machine.eval]
      exact .bind (inner.eval _ first) fun _ => inner.eval _ second
  | logical isAnd first second =>
      rw [Machine.eval]
      refine .bind (inner.eval _ first) fun _ => ?_
      exact .ite (.bind (inner.eval _ second) fun _ => .pure _) (.pure _)
  | conditional cond yes no =>
      rw [Machine.eval]
      refine .bind (inner.eval _ cond) fun _ => ?_
      exact .ite (inner.eval _ yes) (inner.eval _ no)
  | call id args =>
      rw [Machine.eval]
      exact .bind (inner.evalAll _ args) fun values => inner.call _ id values
  | builtin fn args =>
      rw [Machine.eval]
      exact .bind (inner.evalAll _ args) fun values => .invoke fn values

theorem command (inner : EvaluatesBlind leftStart rightStart fuel) (command : Command) :
    Blind leftStart rightStart (Machine.exec context (fuel + 1) command) := by
  cases command with
  | expr term =>
      rw [Machine.exec]
      exact .bind (inner.eval _ term) fun _ => .pure _
  | block body => exact inner.execAll _ body
  | branch cond yes no =>
      unfold Machine.exec
      refine .bind (inner.eval _ cond) fun _ => .ite (inner.exec _ yes) ?_
      cases no with
      | some no => exact inner.exec _ no
      | none => exact .pure _
  | whileLoop cond body step => exact inner.execWhile _ cond body step
  | doLoop body cond => exact inner.execDo _ body cond
  | brk => exact .pure _
  | cont => exact .pure _
  | ret value =>
      cases value with
      | none => exact .pure _
      | some term =>
          rw [Machine.exec]
          exact .bind (inner.eval _ term) fun _ => .pure _
  | newArray slot kind length =>
      rw [Machine.exec]
      refine .bind (inner.eval _ length) fun size => ?_
      exact .bind (.newArray slot kind _) fun _ => .pure _
  | newStruct slot name members =>
      rw [Machine.exec]
      exact .bind (.newStruct slot name members) fun _ => .pure _
  | bind slot value =>
      rw [Machine.exec]
      refine .bind (inner.eval _ value) fun result => ?_
      exact .bind (.setReference slot result) fun _ => .pure _

theorem again (inner : EvaluatesBlind leftStart rightStart fuel) (context : Context) (cond : Term)
    (body : Command) (step : Option Term) :
    Blind leftStart rightStart (match step with
      | some term => (do
          let _ ← Machine.eval context fuel term
          Machine.execWhile context fuel cond body step : Step Flow)
      | none => Machine.execWhile context fuel cond body step) := by
  cases step with
  | none => exact inner.execWhile _ cond body none
  | some term => exact .bind (inner.eval _ term) fun _ => inner.execWhile _ cond body _

theorem succ (inner : EvaluatesBlind leftStart rightStart fuel) :
    EvaluatesBlind leftStart rightStart (fuel + 1) where
  eval := fun _ ⟨ty, span, node⟩ => inner.node ty span node
  exec := fun _ => inner.command
  evalAll := by
    intro context terms
    cases terms with
    | nil => exact .pure _
    | cons first rest =>
        rw [Machine.evalAll]
        refine .bind (inner.eval _ first) fun _ => ?_
        exact .bind (inner.evalAll _ rest) fun _ => .pure _
  locate := by
    intro context place
    cases place with
    | scalar slot => exact .pure _
    | whole slot => exact .pure _
    | element array index =>
        rw [Machine.locate]
        exact .bind (inner.eval _ index) fun _ => .elementLocation array _
    | field owner index => exact .fieldLocation owner index
  call := by
    intro context id args
    unfold Machine.call
    cases enter context id with
    | error error => exact .fail error
    | ok found => exact .leave found.1 _ (inner.exec context.deeper found.2)
  execAll := by
    intro context commands
    cases commands with
    | nil => exact .pure _
    | cons first rest =>
        rw [Machine.execAll]
        refine .bind (inner.exec _ first) fun flow => ?_
        cases flow with
        | normal => exact inner.execAll _ rest
        | brk => exact .pure _
        | cont => exact .pure _
        | ret value => exact .pure _
  execWhile := by
    intro context cond body step
    unfold Machine.execWhile
    refine .bind (inner.eval _ cond) fun _ => .ite ?_ (.pure _)
    refine .bind (inner.exec _ body) fun flow => ?_
    cases flow with
    | normal => exact inner.again context cond body step
    | cont => exact inner.again context cond body step
    | brk => exact .pure _
    | ret value => exact .pure _
  execDo := by
    intro context body cond
    have again : Blind leftStart rightStart (do
        if (← Machine.eval context fuel cond).truth then Machine.execDo context fuel body cond
        else return .normal : Step Flow) :=
      .bind (inner.eval _ cond) fun _ => .ite (inner.execDo _ body cond) (.pure _)
    rw [Machine.execDo]
    refine .bind (inner.exec _ body) fun flow => ?_
    cases flow with
    | normal => exact again
    | cont => exact again
    | brk => exact .pure _
    | ret value => exact .pure _

end EvaluatesBlind

private theorem evaluatesBlind (leftStart rightStart : WorkRecord) (fuel : Nat) :
    EvaluatesBlind leftStart rightStart fuel := by
  induction fuel with
  | zero => exact .zero
  | succ fuel ih => exact ih.succ

/-! ### Runs -/

private theorem execInit_blind (context : Context) (fuel : Nat) (commands : List Command) :
    Blind leftStart rightStart (execInit context fuel commands) := by
  induction commands with
  | nil => exact .pure ()
  | cons first rest ih =>
      exact .bind ((evaluatesBlind _ _ fuel).exec context first) fun _ => ih

/-- The same exit code or the same failure, in worlds that are alike. -/
inductive Ending.Alike (leftStart rightStart : WorkRecord) : Ending → Ending → Prop where
  | finished {exitCode? : Option Int64} {left right : World} :
      World.Alike leftStart rightStart left right →
      Ending.Alike leftStart rightStart (.finished exitCode? left) (.finished exitCode? right)
  | failed {failure : Failure} {left right : World} :
      World.Alike leftStart rightStart left right →
      Ending.Alike leftStart rightStart (.failed failure left) (.failed failure right)
  | exhausted : Ending.Alike leftStart rightStart .exhausted .exhausted

theorem runWith_alike (fuel limit : Nat) (program : Program) (entry : FunctionId)
    {leftWorld rightWorld : World} (alike : World.Alike leftStart rightStart leftWorld rightWorld) :
    Ending.Alike leftStart rightStart (runWith fuel program entry limit leftWorld)
      (runWith fuel program entry limit rightWorld) := by
  have blind : Blind leftStart rightStart
      (execInit ⟨program, limit, 0⟩ fuel program.init >>= fun _ =>
        call ⟨program, limit, 0⟩ fuel entry []) :=
    .bind (execInit_blind _ fuel _) fun _ => (evaluatesBlind _ _ fuel).call _ entry _
  have outcome := blind (.initial program leftWorld) (.initial program rightWorld) ⟨alike⟩
  unfold runWith
  simp only
  revert outcome
  generalize (execInit ⟨program, limit, 0⟩ fuel program.init >>= fun _ =>
    call ⟨program, limit, 0⟩ fuel entry []) (.initial program leftWorld) = leftOutcome
  generalize (execInit ⟨program, limit, 0⟩ fuel program.init >>= fun _ =>
    call ⟨program, limit, 0⟩ fuel entry []) (.initial program rightWorld) = rightOutcome
  intro outcome
  cases outcome with
  | done states =>
      obtain ⟨worlds⟩ := states
      exact .finished worlds
  | failed states =>
      obtain ⟨worlds⟩ := states
      exact .failed worlds
  | exhausted => exact .exhausted

end Machine

/-- Two runs of a program whose records agree on what the host supplies end in the same way, with
the same output. Each of the fields that the script may set is the same in both records at the end,
or in both what it was at the start. -/
theorem stale_fields_are_not_read (fuel limit : Nat) (program : Program) (entry : FunctionId)
    (heap : Heap) (sink : Sink) (left right : WorkRecord) (target : left.target = right.target)
    (storage : left.storage = right.storage)
    (personalInts : left.personalInts = right.personalInts) :
    Machine.Ending.Alike left right
      (Machine.runWith fuel program entry limit ⟨heap, sink, some left⟩)
      (Machine.runWith fuel program entry limit ⟨heap, sink, some right⟩) := by
  have unset {α : Type} (first second : α) : SetAlike first second first second := Or.inr ⟨rfl, rfl⟩
  exact Machine.runWith_alike fuel limit program entry
    ⟨⟨target, storage, personalInts, unset _ _, unset _ _, unset _ _⟩⟩

def syncingSource : List Item :=
  let place : Span := ⟨0, 0⟩
  let number (value : UInt64) : Expr := .int place ⟨value, false, false, false⟩
  [.function ⟨.int, "main", [], some
    [.decl place ⟨false, .int, [⟨"r", some (number 2), none, place⟩], place⟩,
      .expr place (.assign place none (.subscript place (.ident place "r") (number 1)) (number 1)),
      .expr place (.call place "sync_r" place []),
      .ret place (some (number 7))], place⟩]

theorem stale_flag_is_not_read : ∃ program leftWorld rightWorld,
    lower syncingSource = .ok program ∧
      Machine.runWith 20 program 0 10 ⟨.empty, .unlimited, some .blank⟩ =
        .finished (some 7) leftWorld ∧
      Machine.runWith 20 program 0 10
          ⟨.empty, .unlimited, some { WorkRecord.blank with isPow := true }⟩ =
        .finished (some 7) rightWorld ∧
      World.Alike .blank { WorkRecord.blank with isPow := true } leftWorld rightWorld := by
  have checked : ((lower syncingSource).toOption.any fun program =>
      match Machine.runWith 20 program 0 10 ⟨.empty, .unlimited, some .blank⟩ with
      | .finished exitCode? _ => exitCode? == some 7
      | _ => false) = true := by
    decide +kernel
  obtain ⟨program, accepted, holds⟩ := eq_ok_of_any checked
  have endings := stale_fields_are_not_read 20 10 program 0 .empty .unlimited .blank
    { WorkRecord.blank with isPow := true } rfl rfl rfl
  refine ⟨program, ?_⟩
  revert holds endings
  generalize Machine.runWith 20 program 0 10 _ = leftEnding
  generalize Machine.runWith 20 program 0 10 _ = rightEnding
  intro holds endings
  cases endings with
  | finished worlds =>
      cases beq_iff_eq.mp holds
      exact ⟨_, _, accepted, rfl, rfl, worlds⟩
  | failed worlds => cases holds
  | exhausted => cases holds

end MiniC
