import MiniC.Proofs.Soundness.Ready

/-!
Evaluation keeps states well typed.

Each form of a term, with the calls it makes, is looked at once, on the
assumption that calls with less fuel behave well.
-/

namespace MiniC.Soundness

open Lowering Machine Typing

variable {G : Guarantee} {program : Program} {globals vars out : Variables}
  {context : Machine.Context} {setting : Setting} {state after : Machine.State}

structure Yields (G : Guarantee) (setting : Setting) (vars : Variables) (ty : Ty)
    (state : Machine.State) (value : Value) (after : Machine.State) : Prop where
  later : Later G setting vars state after
  hasType : HasType G after.world.heap value ty

theorem Yields.since {ty : Ty} {value : Value} {last : Machine.State}
    (later : Later G setting vars state after)
    (yields : Yields G setting vars ty after value last) :
    Yields G setting vars ty state value last :=
  ⟨later.trans yields.later, yields.hasType⟩

structure YieldsAll (G : Guarantee) (setting : Setting) (vars : Variables) (tys : List Ty)
    (state : Machine.State) (values : List Value) (after : Machine.State) : Prop where
  later : Later G setting vars state after
  typed : ValuesTyped G after.world.heap values tys

/-- The location of a place. A scalar is found without any evaluation. -/
structure Locates (G : Guarantee) (setting : Setting) (vars : Variables) (fuel : Nat)
    (place : Place) (ty : Ty) (state : Machine.State) (location : Location)
    (after : Machine.State) : Prop where
  later : Later G setting vars state after
  located : LocationTyped setting vars after.world.heap location ty
  scalar : ∀ slot, location = .scalar slot →
    place = .scalar slot ∧ after = state ∧ ∃ less, fuel = less + 1

structure Returns (G : Guarantee) (program : Program) (globals : Variables) (ret : Ty)
    (state : Machine.State) (value : Value) (after : Machine.State) : Prop where
  outside : Outside G program globals after
  extended : state.world.heap.Extends after.world.heap
  locals : after.locals = state.locals
  hasType : HasType G after.world.heap value ret
  empty : ret = .void → value = .void

def Answers (G : Guarantee) (setting : Setting) (heap : Heap) (value : Value) : Prop :=
  ∃ ret, setting.ret? = some ret ∧ HasType G heap value ret ∧ (ret = .void → value = .void)

/-- How a command ends. Its declarations have run if it ends normally; control jumps only inside
loops. -/
structure Flows (G : Guarantee) (setting : Setting) (inLoop : Bool) (vars out : Variables)
    (state : Machine.State) (flow : Flow) (after : Machine.State) : Prop where
  later : Later G setting vars state after
  normal : flow = .normal → StateTyped G setting out after
  jump : flow = .brk ∨ flow = .cont → inLoop = true
  ret : ∀ value, flow = .ret value → Answers G setting after.world.heap value

theorem Flows.since {flow : Flow} {inLoop : Bool} {last : Machine.State} {middle : Variables}
    (later : Later G setting middle state after) (le : middle.Le vars)
    (flows : Flows G setting inLoop vars out after flow last) :
    Flows G setting inLoop middle out state flow last :=
  { flows with later := later.trans ⟨flows.later.typed.fewer le, flows.later.extended⟩ }

/-- A clean call ends as it should, and what it calls is ready. -/
def Behaves (G : Guarantee) (program : Program) (globals : Variables) {α : Type}
    (Done : α → Machine.State → Prop) (outcome : Outcome α) (point : Point) : Prop :=
  Clean G point → Ends G outcome Done ∧ ∀ next ∈ point.calls, Ready G program globals next

theorem Good.behaves {α : Type} {Done : α → Machine.State → Prop} {outcome : Outcome α}
    {point : Point} (good : Good G program globals Done outcome point.calls) :
    Behaves G program globals Done outcome point :=
  fun clean => good fun _ called => clean.calls called

theorem Behaves.good {α : Type} {Done : α → Machine.State → Prop} {outcome : Outcome α}
    {point : Point} (behaves : Behaves G program globals Done outcome point)
    (ready : Ready G program globals point) :
    Good G program globals Done outcome [point] :=
  .visit ready fun clean => (behaves clean).1

structure Behaved (G : Guarantee) (program : Program) (globals : Variables) (fuel : Nat) :
    Prop where
  eval : ∀ {context setting inLoop vars out term state},
    Here G program globals context setting vars state →
    Command.Typed setting inLoop vars (.expr term) out →
    Behaves G program globals (Yields G setting out term.ty state)
      (Machine.eval context fuel term state) (.eval context fuel term state)
  evalAll : ∀ {context setting vars terms tys state},
    Here G program globals context setting vars state → Terms.Typed setting vars terms tys →
    Behaves G program globals (YieldsAll G setting vars tys state)
      (Machine.evalAll context fuel terms state) (.evalAll context fuel terms state)
  locate : ∀ {context setting vars place ty state},
    Here G program globals context setting vars state → Place.Typed setting vars place ty →
    Behaves G program globals (Locates G setting vars fuel place ty state)
      (Machine.locate context fuel place state) (.locate context fuel place state)
  call : ∀ {context id args params ret state}, context.program = program →
    program.signature? id = some (params, ret) → Outside G program globals state →
    ValuesTyped G state.world.heap args params →
    Behaves G program globals (Returns G program globals ret state)
      (Machine.call context fuel id args state) (.call context fuel id args state)
  exec : ∀ {context setting inLoop vars out command state},
    Here G program globals context setting vars state →
    Command.Typed setting inLoop vars command out →
    Behaves G program globals (Flows G setting inLoop vars out state)
      (Machine.exec context fuel command state) (.exec context fuel command state)
  execAll : ∀ {context setting inLoop vars out commands state},
    Here G program globals context setting vars state → setting.region = .activation →
    Commands.Typed setting inLoop vars commands out →
    Behaves G program globals (Flows G setting inLoop vars out state)
      (Machine.execAll context fuel commands state) (.execAll context fuel commands state)
  execWhile : ∀ {context setting vars out cond body step state} (inLoop : Bool),
    Here G program globals context setting vars state → Term.Typed setting vars cond →
    Command.Typed setting true vars body out →
    (∀ term, step = some term → Term.Typed setting vars term) →
    Behaves G program globals (Flows G setting inLoop vars vars state)
      (Machine.execWhile context fuel cond body step state)
      (.execWhile context fuel cond body step state)
  execDo : ∀ {context setting vars out body cond state} (inLoop : Bool),
    Here G program globals context setting vars state →
    Command.Typed setting true vars body out → Term.Typed setting vars cond →
    Behaves G program globals (Flows G setting inLoop vars vars state)
      (Machine.execDo context fuel body cond state) (.execDo context fuel body cond state)

namespace Behaved

variable {fuel : Nat} (less : Behaved G program globals fuel)

include less

theorem term {term : Term} (here : Here G program globals context setting vars state)
    (typed : Term.Typed setting vars term) :
    Good G program globals (Yields G setting vars term.ty state)
      (Machine.eval context fuel term state) [.eval context fuel term state] := by
  have command : Command.Typed setting false vars (.expr term) vars := .expr typed
  exact (less.eval here command).good (.eval here command)

theorem computed {operand : Term} {ty : Ty} {result : Value → Value}
    (here : Here G program globals context setting vars state)
    (typed : Term.Typed setting vars operand)
    (resultTyped : ∀ value, (result value).ty? = some ty) :
    Good G program globals (Yields G setting vars ty state)
      ((Machine.eval context fuel operand >>= fun value => pure (result value)) state)
      [.eval context fuel operand state] := by
  refine (less.term here typed).last ?_
  intro value last yields
  exact .of_done ⟨yields.later, hasType_of_ty? (resultTyped value)⟩

theorem combined {left right : Term} {ty : Ty} {result : Value → Value → Value}
    (here : Here G program globals context setting vars state)
    (leftTyped : Term.Typed setting vars left) (rightTyped : Term.Typed setting vars right)
    (resultTyped : ∀ first second, (result first second).ty? = some ty) :
    Good G program globals (Yields G setting vars ty state)
      ((Machine.eval context fuel left >>= fun first =>
        Machine.eval context fuel right >>= fun second => pure (result first second)) state)
      ([.eval context fuel left state] ++ Machine.after (Machine.eval context fuel left state)
        fun _ between => [.eval context fuel right between]) := by
  refine (less.term here leftTyped).bind ?_
  intro first between yields
  refine (less.computed (here.later yields.later) rightTyped (resultTyped first)).imp ?_
  intro value last computed
  exact computed.since yields.later

theorem terms {terms : List Term} {tys : List Ty}
    (here : Here G program globals context setting vars state)
    (typed : Terms.Typed setting vars terms tys) :
    Good G program globals (YieldsAll G setting vars tys state)
      (Machine.evalAll context fuel terms state) [.evalAll context fuel terms state] :=
  (less.evalAll here typed).good (.evalAll here typed)

theorem place {place : Place} {ty : Ty} (here : Here G program globals context setting vars state)
    (typed : Place.Typed setting vars place ty) :
    Good G program globals (Locates G setting vars fuel place ty state)
      (Machine.locate context fuel place state) [.locate context fuel place state] :=
  (less.locate here typed).good (.locate here typed)

theorem command {command : Command} {inLoop : Bool}
    (here : Here G program globals context setting vars state)
    (typed : Command.Typed setting inLoop vars command out) :
    Good G program globals (Flows G setting inLoop vars out state)
      (Machine.exec context fuel command state) [.exec context fuel command state] :=
  (less.exec here typed).good (.exec here typed)

end Behaved

private theorem read_ends {fuel : Nat} {place : Place} {ty : Ty} {location : Location}
    {point : Point}
    (clean : Clean G point)
    (reads : ∀ less slot, fuel = less + 1 → place = .scalar slot → slot.region = .global →
      state.scalar slot = .void → point.ReadsEmpty)
    (locates : Locates G setting vars fuel place ty state location after) :
    Ends G (load location after) fun value last =>
      last = after ∧ HasType G after.world.heap value ty := by
  refine (load_ends locates.later.typed locates.located).imp ?_
  rintro value last ⟨same, hasType | ⟨early, rfl, slot, rfl, global, empty⟩⟩
  · exact ⟨same, hasType⟩
  · obtain ⟨placeEq, rfl, less, fuelEq⟩ := locates.scalar slot rfl
    have readsEmpty := reads less slot fuelEq placeEq global empty
    have scalar : isCondition ty = true := locates.located.2.2
    have admitted := clean.filled early point (.here point) readsEmpty ty scalar
    exact ⟨same, (hasType_iff_admits scalar).mpr admitted⟩

private theorem invoke_ends (builtin : Builtin) (args : List Value)
    (typed : StateTyped G setting vars state) :
    Ends G (Machine.invoke builtin args state)
      (Yields G setting vars builtin.signature.ret state) := by
  have invoked := invoke_typed builtin args state.world typed.heap
  have grown := typed.withWorld invoked.grown
  unfold Machine.invoke
  cases outcome : builtin.invoke args state.world with
  | mk result world =>
      rw [outcome] at invoked grown
      cases result with
      | ok value =>
          simp only [outcome]
          exact .of_done ⟨grown, invoked.ok value rfl⟩
      | error error =>
          simp only [outcome]
          obtain ⟨reason, rfl⟩ := invoked.error error rfl
          refine .of_failed fun impossible => ?_
          cases impossible

private theorem copy_ends {value : Value} {ty : Ty} (typed : StateTyped G setting vars state)
    (object : ty.isObject = true) (hasType : HasType G state.world.heap value ty) :
    Ends G (Machine.onHeap (·.copy value) state) (Yields G setting vars ty state) := by
  obtain ⟨grown, copyTyped⟩ := copy_typed typed.heap object hasType
  have later : Later G setting vars state (state.onHeap (·.copy value)).2 := typed.onHeap grown
  change Ends G (.done (state.onHeap (·.copy value)).1 (state.onHeap (·.copy value)).2) _
  exact .of_done ⟨later, copyTyped⟩

/-- The new content of an updated place has the kind of the place. Where the type of the update has
been taken away, this needs the place to hold a value of the kind that the update computes in. -/
theorem updated_hasType {op : ArithOp} {kind operand : Kind} {ty : Ty} {heap : Heap} {old : Value}
    (supported : (operand.isInteger || op.onFloats) = true)
    (shown : ty = .num kind ∨ ty = .void) (oldTyped : HasType G heap old (.num kind))
    (unmixed : ty = .void → G.exact = true → old.ty? = some (.num operand)) (rhs : Value) :
    HasType G heap (updated (.arith op operand) operand ty old rhs) (.num kind) := by
  have combined : (op.apply operand (old.convert operand) rhs).ty? = some (.num operand) :=
    ArithOp.ty?_apply supported _ _
  rcases shown with rfl | rfl
  · exact hasType_of_ty? (Value.ty?_convert kind _)
  · cases exact : G.exact with
    | false => exact G.mixed exact combined
    | true =>
        have sameKind : some (Ty.num kind) = some (.num operand) :=
          (G.same exact oldTyped).symm.trans (unmixed rfl exact)
        rw [Option.some.inj sameKind]
        exact hasType_of_ty? combined

/-! ### Terms -/

/-- A node yields a value of the type that it has by itself. Only an update looks at the type that
its term shows. -/
theorem node_good {fuel : Nat} {shown ty : Ty} {span : Span} {node : Node}
    (less : Behaved G program globals fuel)
    (here : Here G program globals context setting vars state)
    (clean : Clean G (.eval context (fuel + 1) (.mk shown span node) state))
    (kept : node.isUpdate = true → shown = ty ∨ shown = .void)
    (typed : Node.Typed setting vars node ty) :
    Good G program globals (Yields G setting vars ty state)
      (eval context (fuel + 1) (.mk shown span node) state)
      (Point.nodeCalls context fuel node state) := by
  cases typed with
  | literal valueTyped => exact .of_ends (.of_done ⟨here.typed.later, hasType_of_ty? valueTyped⟩)
  | argument found =>
      exact .of_ends (.of_done ⟨here.typed.later, here.typed.args _ ty found⟩)
  | load placeTyped =>
      rw [eval, Point.nodeCalls]
      refine (less.place here placeTyped).last ?_
      intro location between locates
      refine (read_ends clean ?_ locates).imp ?_
      · rintro _ slot rfl rfl global empty
        exact ⟨global, empty⟩
      · rintro value last ⟨rfl, hasType⟩
        exact ⟨locates.later, hasType⟩
  | assign placeTyped valueTyped =>
      rw [eval, Point.nodeCalls]
      refine (less.place here placeTyped).bind ?_
      intro location between locates
      refine (less.term (here.later locates.later) valueTyped).last ?_
      intro value behind yields
      have located := locates.located.mono yields.later.extended
      refine (store_ends yields.later.typed located yields.hasType).imp ?_
      rintro result last ⟨stored, hasType⟩
      exact ⟨(locates.later.trans yields.later).trans stored, hasType⟩
  | @update place op kind operand rhs yieldsOld placeTyped rhsTyped operands =>
      rw [eval, Point.nodeCalls]
      -- the outcomes are kept, since a clean point speaks of what the update finds at its place
      refine (less.place here placeTyped).withOutcome.bind ?_
      rintro location between ⟨found, locates⟩
      refine Good.step (read_ends clean ?_ locates).withOutcome ?_
      · rintro _ slot rfl rfl global empty
        exact ⟨global, empty⟩
      rintro old _ ⟨loaded, rfl, oldTyped⟩
      refine (less.term (here.later locates.later) rhsTyped).withOutcome.last ?_
      rintro value behind ⟨evaluated, yields⟩
      have located := locates.located.mono yields.later.extended
      have fresh : HasType G behind.world.heap (updated (.arith op operand) operand shown old value)
          (.num kind) :=
        updated_hasType operands.exists_for_kind (kept rfl)
          (oldTyped.mono yields.later.extended) (clean.ty?_old found loaded evaluated) value
      refine (store_ends yields.later.typed located fresh).bind ?_
      rintro _ last _ ⟨stored, _⟩
      have since := (locates.later.trans yields.later).trans stored
      cases yieldsOld with
      | false => exact .of_done ⟨since, fresh.mono stored.extended⟩
      | true =>
          exact .of_done ⟨since, oldTyped.mono (yields.later.extended.trans stored.extended)⟩
  | convert valueTyped _ =>
      rw [eval, Point.nodeCalls]
      exact less.computed here valueTyped (fun value => Value.ty?_convert _ value)
  | truth valueTyped _ =>
      rw [eval, Point.nodeCalls]
      exact less.computed here valueTyped (fun _ => rfl)
  | arith leftTyped rightTyped operands =>
      rw [eval, Point.nodeCalls]
      exact less.combined here leftTyped rightTyped (fun left right =>
        ArithOp.ty?_apply operands.exists_for_kind left right)
  | compare leftTyped rightTyped _ _ =>
      rw [eval, Point.nodeCalls]
      exact less.combined here leftTyped rightTyped (fun _ _ => rfl)
  | compareBool leftTyped rightTyped _ _ =>
      rw [eval, Point.nodeCalls]
      exact less.combined here leftTyped rightTyped (fun _ _ => rfl)
  | negate operandTyped _ =>
      rw [eval, Point.nodeCalls]
      exact less.computed here operandTyped (fun value => UnaryFn.ty?_negate _ value)
  | bitNot operandTyped _ integer =>
      rw [eval, Point.nodeCalls]
      exact less.computed here operandTyped (fun value => UnaryFn.ty?_bitNot integer value)
  | not operandTyped _ =>
      rw [eval, Point.nodeCalls]
      exact less.computed here operandTyped (fun _ => rfl)
  | @logical isAnd _ _ leftTyped rightTyped _ _ =>
      rw [eval, Point.nodeCalls]
      refine (less.term here leftTyped).bind ?_
      intro left between first
      by_cases undecided : (left.truth == isAnd) = true
      · simp only [if_pos undecided]
        refine (less.computed (here.later first.later) rightTyped (by intro _; rfl)).imp ?_
        intro value last yields
        exact yields.since first.later
      · simp only [if_neg undecided]
        exact .of_ends (.of_done ⟨first.later, hasType_of_ty? rfl⟩)
  | conditional condTyped yesTyped noTyped _ sameTy =>
      rw [eval, Point.nodeCalls]
      refine (less.term here condTyped).bind ?_
      intro cond between first
      split
      · refine (less.term (here.later first.later) yesTyped).imp ?_
        intro value last yields
        exact yields.since first.later
      · rw [← sameTy]
        refine (less.term (here.later first.later) noTyped).imp ?_
        intro value last yields
        exact yields.since first.later
  | comma firstTyped secondTyped =>
      rw [eval, Point.nodeCalls]
      refine (less.term here firstTyped).bind ?_
      intro _ between first
      refine (less.term (here.later first.later) secondTyped).imp ?_
      intro value last yields
      exact yields.since first.later
  | call calls signature argsTyped =>
      rw [eval, Point.nodeCalls]
      rw [here.signature_eq] at signature
      refine (less.terms here argsTyped).bind ?_
      intro values between args
      have arrived := here.later args.later
      have outside := arrived.outside calls
      refine ((less.call here.program_eq signature outside args.typed).good
        (.call here.program_eq signature outside args.typed)).imp ?_
      intro value last returns
      have back := arrived.returned calls returns.outside returns.extended returns.locals
      exact ⟨args.later.trans back, returns.hasType⟩
  | builtin argsTyped =>
      rw [eval, Point.nodeCalls]
      refine (less.terms here argsTyped).last ?_
      intro values between args
      refine (invoke_ends _ values args.later.typed).imp ?_
      intro value last yields
      exact yields.since args.later
  | copy valueTyped object =>
      rw [eval, Point.nodeCalls]
      refine (less.term here valueTyped).last ?_
      intro value between yields
      refine (copy_ends yields.later.typed object yields.hasType).imp ?_
      intro fresh last copied
      exact copied.since yields.later

private theorem locateScalar_ends (fuel : Nat) (slot : Slot) :
    Ends G (locate context fuel (.scalar slot) state) fun location after =>
      after = state ∧ location = .scalar slot := by
  cases fuel with
  | zero => exact .of_exhausted
  | succ less => exact .of_done ⟨rfl, rfl⟩

private theorem declare_good {fuel : Nat} {slot : Slot} {value : Term} {span : Span}
    (less : Behaved G program globals fuel)
    (here : Here G program globals context setting vars state)
    (typed : Term.Typed setting vars value) (scalar : isCondition value.ty = true)
    (has : setting.HasScalar slot) :
    Good G program globals
      (Yields G setting (vars.withScalar slot value.ty) value.ty state)
      (eval context (fuel + 1) (.mk value.ty span (.assign (.scalar slot) value)) state)
      (Point.nodeCalls context fuel (.assign (.scalar slot) value) state) := by
  rw [eval, Point.nodeCalls]
  refine (Good.visit .locateScalar fun _ => locateScalar_ends fuel slot).bind ?_
  rintro _ _ ⟨rfl, rfl⟩
  refine (less.term here typed).last ?_
  intro result between yields
  have stored := yields.later.typed.setScalar has ((hasType_iff_admits scalar).mp yields.hasType)
  exact .of_done ⟨yields.later.trans stored, yields.hasType.mono stored.extended⟩

theorem eval_behaves {fuel : Nat} {inLoop : Bool} {term : Term}
    (less : Behaved G program globals fuel)
    (here : Here G program globals context setting vars state)
    (typed : Command.Typed setting inLoop vars (.expr term) out) :
    Behaves G program globals (Yields G setting out term.ty state)
      (eval context (fuel + 1) term state) (.eval context (fuel + 1) term state) := by
  intro clean
  refine Good.behaves ?_ clean
  cases typed with
  | declare valueTyped scalar _ has _ => exact declare_good less here valueTyped scalar has
  | expr termTyped =>
      cases termTyped with
      | natural nodeTyped => exact node_good less here clean (fun _ => Or.inl rfl) nodeTyped
      | discarded nodeTyped =>
          refine (node_good less here clean (fun _ => Or.inr rfl) nodeTyped).imp ?_
          intro value last yields
          exact ⟨yields.later, trivial⟩

theorem evalAll_behaves {fuel : Nat} {terms : List Term} {tys : List Ty}
    (less : Behaved G program globals fuel)
    (here : Here G program globals context setting vars state)
    (typed : Terms.Typed setting vars terms tys) :
    Behaves G program globals (YieldsAll G setting vars tys state)
      (evalAll context (fuel + 1) terms state) (.evalAll context (fuel + 1) terms state) := by
  apply Good.behaves
  cases typed with
  | nil =>
      refine .of_ends (.of_done ⟨here.typed.later, ?_⟩)
      intro index ty impossible
      cases impossible
  | cons firstTyped restTyped =>
      rw [evalAll, Point.calls]
      refine (less.term here firstTyped).bind ?_
      intro value between yields
      refine (less.terms (here.later yields.later) restTyped).last ?_
      intro values last others
      refine .of_done ⟨yields.later.trans others.later, ?_⟩
      intro index ty found
      cases index with
      | zero =>
          cases found
          exact yields.hasType.mono others.later.extended
      | succ position => exact others.typed position ty found

theorem locate_behaves {fuel : Nat} {place : Place} {ty : Ty}
    (less : Behaved G program globals fuel)
    (here : Here G program globals context setting vars state)
    (typed : Place.Typed setting vars place ty) :
    Behaves G program globals (Locates G setting vars (fuel + 1) place ty state)
      (locate context (fuel + 1) place state) (.locate context (fuel + 1) place state) := by
  apply Good.behaves
  cases typed with
  | scalar known has condition =>
      refine .of_ends (.of_done ⟨here.typed.later, ⟨known, has, condition⟩, ?_⟩)
      intro slot same
      cases same
      exact ⟨rfl, rfl, fuel, rfl⟩
  | whole known has object =>
      exact .of_ends (.of_done ⟨here.typed.later, ⟨known, has, object⟩, nofun⟩)
  | element known has indexTyped _ =>
      rw [locate, Point.calls]
      refine (less.term here indexTyped).last ?_
      intro index between yields
      refine (elementLocation_ends yields.later.typed known index.toI64).imp ?_
      rintro location last ⟨rfl, located, notScalar⟩
      exact ⟨yields.later, located, fun slot same => absurd same (notScalar slot)⟩
  | field known has member condition =>
      rw [locate]
      refine .of_ends ((fieldLocation_ends here.typed known member condition).imp ?_)
      rintro location last ⟨rfl, located, notScalar⟩
      exact ⟨here.typed.later, located, fun slot same => absurd same (notScalar slot)⟩

/-! ### Calls -/

private theorem enter_error_ne {id : FunctionId} {error : RuntimeError}
    (refused : enter context id = .error error) : error ≠ .uninitialized := by
  unfold enter at refused
  split at refused
  · cases refused
    exact nofun
  · split at refused
    · cases refused
      exact nofun
    · split at refused
      · cases refused
        exact nofun
      · cases refused

/-- A function that does not return a value yields the zero value of its type. -/
theorem leave_ends {function : Function} {locals : Frame} {outcome : Outcome Flow}
    (declarable : function.ret.isDeclarable = true)
    (ends : Ends G outcome (Flows G (program.bodySetting function) false globals out
      { state with locals })) :
    Ends G (leave function state.locals outcome)
      (Returns G program globals function.ret state) := by
  have zero {flow : Flow} {after : Machine.State}
      (flows : Flows G (program.bodySetting function) false globals out
        { state with locals } flow after) :
      Returns G program globals function.ret state (after.onHeap (Heap.zeroOf function.ret)).1
        { (after.onHeap (Heap.zeroOf function.ret)).2 with locals := state.locals } := by
    have typed := flows.later.typed
    obtain ⟨grown, hasType⟩ := zeroOf_typed typed.heap declarable
    refine ⟨⟨grown.typed, typed.globals.mono grown.extended (.refl globals)⟩,
      flows.later.extended.trans grown.extended, rfl, hasType, ?_⟩
    intro isVoid
    rw [isVoid]
    rfl
  cases outcome with
  | exhausted => exact .of_exhausted
  | failed failure after =>
      have excused := ends.failed failure after rfl
      refine .of_failed fun uninitialized => excused ?_
      unfold Failure.leave at uninitialized
      split at uninitialized
      · exact uninitialized
      · exact uninitialized
  | done flow after =>
      have flows := ends.done flow after rfl
      cases flow with
      | normal => exact .of_done (zero flows)
      | brk => exact .of_done (zero flows)
      | cont => exact .of_done (zero flows)
      | ret value =>
          obtain ⟨ret, same, hasType, empty⟩ := flows.ret value rfl
          cases same
          have typed := flows.later.typed
          exact .of_done ⟨⟨typed.heap, typed.globals⟩, flows.later.extended, rfl, hasType, empty⟩

theorem call_behaves {fuel : Nat} {calls : Bool} {id : FunctionId} {args : List Value}
    {params : List Ty} {ret : Ty} (wellFormed : program.Typed calls globals)
    (less : Behaved G program globals fuel) (same : context.program = program)
    (signature : program.signature? id = some (params, ret))
    (outside : Outside G program globals state)
    (argsTyped : ValuesTyped G state.world.heap args params) :
    Behaves G program globals (Returns G program globals ret state)
      (call context (fuel + 1) id args state) (.call context (fuel + 1) id args state) := by
  apply Good.behaves
  rw [call, Point.calls]
  cases entered : enter context id with
  | error error =>
      simp only
      exact .of_ends (.of_failed fun impossible => absurd impossible (enter_error_ne entered))
  | ok found =>
      obtain ⟨function, body⟩ := found
      obtain ⟨listed, defined⟩ := enter_eq_ok entered
      rw [same] at listed
      obtain ⟨out, bodyTyped⟩ := wellFormed.body id function body listed defined
      have declared : (params, ret) = (function.params, function.ret) := by
        rw [Program.signature?, listed] at signature
        exact (Option.some.inj signature).symm
      cases declared
      have start : Here G program globals context.deeper (program.bodySetting function)
          globals ⟨state.globals, .new function.layout args, state.world⟩ :=
        { program_eq := same
          signature_eq := rfl
          globals_eq := rfl
          known := fun _ => .refl globals
          below := fun _ _ known => known
          typed := outside.enter wellFormed.allGlobal argsTyped }
      intro clean
      obtain ⟨ends, ready⟩ := less.command start bodyTyped clean
      exact ⟨leave_ends (wellFormed.ret id function listed) ends, ready⟩

end MiniC.Soundness
