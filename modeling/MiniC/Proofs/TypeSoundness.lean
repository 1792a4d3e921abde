import MiniC.Proofs.Machine.KeptUpdates
import MiniC.Proofs.Soundness.Run
import MiniC.Proofs.Typing.Unit
import MiniC.Proofs.VoidCast

/-!
Type soundness of accepted programs.

Every term yields a value of its type, every variable that is used holds a value
of the type it was declared with, and no array or struct is used before its
declaration has run. Global declarations must not call functions, so that globals
are declared before they are used. The one thing that then goes wrong is an update
whose type a cast has taken away: it is not converted back to the kind of its
place.
-/

namespace MiniC

open Lowering Machine Typing Soundness

/-- A value of a type, with all the elements of an array and all the fields of a struct. Any value
is one of the empty type. -/
def Value.Conforms (heap : Heap) (value : Value) : Ty → Prop
  | .array element =>
      ∃ address kind elements, value = .array address ∧ element = .num kind ∧
        heap[address]? = some (.array kind elements) ∧
        ∀ content ∈ elements, content.ty? = some (.num kind)
  | .struct name members =>
      ∃ address fields, value = .struct address ∧
        heap[address]? = some (.struct name members fields) ∧ fields.size = members.length ∧
        ∀ (index : Nat) member content, members[index]? = some member →
          fields[index]? = some content → content.ty? = some member.2
  | .void => True
  | ty => value.ty? = some ty

structure Machine.State.Conforms (vars : Variables) (state : Machine.State) : Prop where
  scalar : ∀ slot ty, vars.scalar slot = some ty → (state.scalar slot).ty? = some ty
  reference : ∀ slot ty, vars.reference slot = some ty →
    ∃ value, state.reference? slot = some value ∧ value.Conforms state.world.heap ty

private theorem Soundness.HasType.conforms {heap : Heap} {value : Value} {ty : Ty}
    (typed : HeapTyped .sameType heap) (hasType : HasType .sameType heap value ty) :
    value.Conforms heap ty := by
  cases ty with
  | num kind => exact hasType
  | bool => exact hasType
  | str => exact hasType
  | func params ret => exact hasType
  | void => trivial
  | array element =>
      obtain ⟨address, size, rfl, found⟩ := hasType.exists_array rfl
      obtain ⟨object, here, shapeEq⟩ := Heap.exists_of_shape? found
      cases object with
      | struct name members fields => cases shapeEq
      | array kind elements =>
          cases shapeEq
          refine ⟨address, kind, elements, rfl, rfl, here, ?_⟩
          intro content listed
          obtain ⟨index, stored⟩ := Array.getElem?_of_mem listed
          exact (typed address _ here).cells index (.num kind) content rfl stored
  | struct name members =>
      obtain ⟨address, size, rfl, found⟩ := hasType.exists_struct rfl
      obtain ⟨object, here, shapeEq⟩ := Heap.exists_of_shape? found
      cases object with
      | array kind elements => cases shapeEq
      | struct otherName otherMembers fields =>
          cases shapeEq
          have objectTyped := typed address _ here
          refine ⟨address, fields, rfl, here, objectTyped.complete name members rfl, ?_⟩
          intro index member content listed stored
          refine objectTyped.cells index member.2 content ?_ stored
          simp only [Object.shape, Ty.cell?, listed, Option.map_some]

private theorem Soundness.StateTyped.conforms {setting : Setting} {vars : Variables}
    {state : Machine.State}
    (typed : StateTyped .sameType setting vars state) : state.Conforms vars where
  scalar := by
    intro slot ty known
    rcases typed.scalar known with admitted | ⟨impossible, _⟩
    · exact admitted
    · cases impossible
  reference := by
    intro slot ty known
    rcases typed.reference known with ⟨value, found, hasType⟩ | ⟨impossible, _⟩
    · exact ⟨value, found, hasType.conforms typed.heap⟩
    · cases impossible

/-! ### Conforming runs -/

/-- A term is evaluated as its type says: it stands among declared variables that hold values of
their types, before and after, what it reads from a place has the type of the place, so has what
it writes back, and its own value has its own type. -/
structure ConformsAt (context : Machine.Context) (fuel : Nat) (term : Term) (state : Machine.State)
    (setting : Setting) (inLoop : Bool) (vars out : Variables) : Prop where
  wellFormed : Command.Typed setting inLoop vars (.expr term) out
  before : state.Conforms vars
  value : ∀ value after, eval context fuel term state = .done value after →
    value.Conforms after.world.heap term.ty ∧ after.Conforms out
  read : ∀ less place, fuel = less + 1 → term.node = .load place → ∃ ty,
    Place.Typed setting vars place ty ∧ ∀ location between value after,
      locate context less place state = .done location between →
      load location between = .done value after → value.Conforms after.world.heap ty
  update : ∀ less place fn operand rhs yieldsOld, fuel = less + 1 →
    term.node = .update place fn operand rhs yieldsOld → ∃ kind,
    Place.Typed setting vars place (.num kind) ∧ ∀ location between old middle,
      locate context less place state = .done location between →
      load location between = .done old middle → old.ty? = some (.num kind) ∧
        ∀ right last, eval context less rhs middle = .done right last →
          (updated fn operand term.ty old right).ty? = some (.num kind)

/-- Every evaluation of the run conforms, and the run never finds an array or struct missing. What
is left are indices out of range, bad array sizes, too many active calls, functions without a body
and refused output. -/
structure RunConforms (fuel : Nat) (program : Program) (entry : FunctionId) (limit : Nat)
    (world : World) : Prop where
  eval : ∀ context less term state,
    Visits fuel program entry limit world (.eval context less term state) →
    ∃ setting inLoop vars out, ConformsAt context less term state setting inLoop vars out
  failure : ∀ failure last, runWith fuel program entry limit world = .failed failure last →
    failure.error ≠ .uninitialized

theorem Command.Typed.load {setting : Setting} {inLoop : Bool} {vars out : Variables} {ty : Ty}
    {span : Span} {place : Place}
    (typed : Command.Typed setting inLoop vars (.expr (.mk ty span (.load place))) out) :
    ∃ ty, Place.Typed setting vars place ty := by
  cases typed with
  | expr termTyped =>
      cases termTyped with
      | natural nodeTyped =>
          cases nodeTyped with
          | load placeTyped => exact ⟨_, placeTyped⟩
      | discarded nodeTyped =>
          cases nodeTyped with
          | load placeTyped => exact ⟨_, placeTyped⟩

theorem Command.Typed.update {setting : Setting} {inLoop : Bool} {vars out : Variables} {ty : Ty}
    {span : Span} {place : Place} {fn : BinaryFn} {operand : Kind} {rhs : Term} {yieldsOld : Bool}
    (typed : Command.Typed setting inLoop vars
      (.expr (.mk ty span (.update place fn operand rhs yieldsOld))) out) :
    ∃ op kind, fn = .arith op operand ∧ (operand.isInteger || op.onFloats) = true ∧
      Place.Typed setting vars place (.num kind) ∧ (ty = .num kind ∨ ty = .void) := by
  cases typed with
  | expr termTyped =>
      cases termTyped with
      | natural nodeTyped =>
          cases nodeTyped with
          | update placeTyped _ operands =>
              exact ⟨_, _, rfl, operands.exists_for_kind, placeTyped, .inl rfl⟩
      | discarded nodeTyped =>
          cases nodeTyped with
          | update placeTyped _ operands =>
              exact ⟨_, _, rfl, operands.exists_for_kind, placeTyped, .inr rfl⟩

private theorem Soundness.Here.load_hasType {program : Program} {globals vars : Variables}
    {context : Machine.Context} {setting : Setting} {fuel : Nat} {place : Place} {ty : Ty}
    {state between after : Machine.State} {location : Location} {value : Value}
    (here : Here .sameType program globals context setting vars state)
    (less : Behaved .sameType program globals fuel)
    (clean : Clean .sameType (.locate context fuel place state))
    (placeTyped : Place.Typed setting vars place ty)
    (found : locate context fuel place state = .done location between)
    (loaded : load location between = .done value after) :
    HeapTyped .sameType after.world.heap ∧ HasType .sameType after.world.heap value ty := by
  have locates := (less.locate here placeTyped clean).1.done location between found
  obtain ⟨rfl, hasType | ⟨impossible, _⟩⟩ :=
    (load_ends locates.later.typed locates.located).done value after loaded
  · exact ⟨locates.later.typed.heap, hasType⟩
  · cases impossible

private theorem Soundness.Ready.conforms {program : Program} {globals : Variables} {calls : Bool}
    {context : Machine.Context} {fuel : Nat} {term : Term} {state : Machine.State}
    (wellFormed : program.Typed calls globals)
    (clean : Clean .sameType (.eval context fuel term state))
    (ready : Ready .sameType program globals (.eval context fuel term state)) :
    ∃ setting inLoop vars out, ConformsAt context fuel term state setting inLoop vars out := by
  have behaves (fuel : Nat) : Behaved .sameType program globals fuel := behaved wellFormed fuel
  cases ready with
  | @eval _ _ setting inLoop vars out _ _ here typed =>
      refine ⟨setting, inLoop, vars, out, typed, here.typed.conforms, ?_, ?_, ?_⟩
      · intro value after result
        have yields := ((behaves fuel).eval here typed clean).1.done value after result
        exact ⟨yields.hasType.conforms yields.later.typed.heap, yields.later.typed.conforms⟩
      · intro less place sameFuel sameNode
        obtain ⟨shown, span, node⟩ := term
        cases sameFuel
        cases sameNode
        obtain ⟨ty, placeTyped⟩ := typed.load
        refine ⟨ty, placeTyped, ?_⟩
        intro location between value after found loaded
        obtain ⟨heapTyped, hasType⟩ := here.load_hasType (behaves less)
          (clean.calls List.mem_cons_self) placeTyped found loaded
        exact hasType.conforms heapTyped
      · intro less place fn operand rhs yieldsOld sameFuel sameNode
        obtain ⟨shown, span, node⟩ := term
        cases sameFuel
        cases sameNode
        obtain ⟨op, kind, rfl, supported, placeTyped, shownEq⟩ := typed.update
        refine ⟨kind, placeTyped, ?_⟩
        intro location between old middle found loaded
        obtain ⟨_, oldTyped⟩ := here.load_hasType (behaves less)
          (clean.calls List.mem_cons_self) placeTyped found loaded
        refine ⟨oldTyped, ?_⟩
        intro right last evaluated
        exact updated_hasType (G := .sameType) supported shownEq oldTyped
          (clean.ty?_old found loaded evaluated) right

/-- Where a run conforms, it mixes no kinds: the result of the update would not fit its place. -/
theorem RunConforms.not_mixesKinds {fuel : Nat} {program : Program} {entry : FunctionId}
    {limit : Nat} {world : World} {point : Point}
    (conforms : RunConforms fuel program entry limit world)
    (visited : Visits fuel program entry limit world point) : ¬point.MixesKinds := by
  intro mixes
  unfold Point.MixesKinds at mixes
  split at mixes
  · obtain ⟨location, between, old, middle, right, last, found, loaded, evaluated, different⟩ :=
      mixes
    obtain ⟨setting, inLoop, vars, out, here⟩ := conforms.eval _ _ _ _ visited
    obtain ⟨op, _, rfl, supported, _⟩ := here.wellFormed.update
    obtain ⟨kind, _, writes⟩ := here.update _ _ _ _ _ _ rfl rfl
    obtain ⟨oldTyped, freshTyped⟩ := writes location between old middle found loaded
    -- without a type there is no conversion, so the result has the kind of the operation
    have fresh : some (Ty.num kind) = some (.num _) :=
      (freshTyped right last evaluated).symm.trans (ArithOp.ty?_apply supported _ _)
    exact different (oldTyped.trans fresh)
  · exact mixes

/-- A source whose `main` gives an `int` the largest value, evaluates an expression and returns the
variable. -/
def afterLargest (expr : Expr) : List Item :=
  let place : Span := ⟨0, 0⟩
  let largest : Expr := .int place ⟨2147483647, false, false, false⟩
  [.function ⟨.int, "main", [], some
    [.decl place ⟨false, .int, [⟨"x", none, some largest, place⟩], place⟩,
      .expr place expr,
      .ret place (some (.ident place "x"))], place⟩]

/-- A run of an accepted program whose global declarations call no functions stays within its types
just if it comes to no update that mixes kinds, whatever its limits, its sink and its record. Where
no cast has taken the type of an update away, there is none. -/
theorem runConforms_iff {items : List Item} {program : Program} {entry : FunctionId} {ret : Ty}
    (accepted : lower items = .ok program) (quiet : items.any Item.initCallsFunction = false)
    (parameterless : program.signature? entry = some ([], ret))
    (fuel limit : Nat) (sink : Sink) (record? : Option WorkRecord) :
    (RunConforms fuel program entry limit ⟨.empty, sink, record?⟩ ↔
      ∀ point, Visits fuel program entry limit ⟨.empty, sink, record?⟩ point →
        ¬point.MixesKinds) ∧
      (program.keepsUpdates = true →
        RunConforms fuel program entry limit ⟨.empty, sink, record?⟩) := by
  obtain ⟨globals, typed⟩ : ∃ globals, program.Typed false globals :=
    lower_typed (fun _ => quiet) accepted
  have sound (unmixed : ∀ point, Visits fuel program entry limit ⟨.empty, sink, record?⟩ point →
      ¬point.MixesKinds) : RunConforms fuel program entry limit ⟨.empty, sink, record?⟩ := by
    have runSound : RunSound .sameType program globals entry ret fuel limit
        ⟨.empty, sink, record?⟩ :=
      run_sound typed nofun (.empty _) parameterless nofun (fun _ => unmixed)
    refine ⟨?_, ?_⟩
    · intro context less term state visited
      obtain ⟨clean, ready⟩ := runSound.points _ visited
      exact ready.conforms typed clean
    · intro failure last failed uninitialized
      cases runSound.failure failure last failed uninitialized
  refine ⟨⟨fun conforms _ visited => conforms.not_mixesKinds visited, sound⟩, ?_⟩
  intro keeps
  exact sound fun _ visited => visited.not_mixesKinds keeps

/-- The update of an `int` by a `long` is converted back where its value is not cast away. -/
theorem runConforms_addOne : ∃ program, lower (afterLargest (addOne true)) = .ok program ∧
    (afterLargest (addOne true)).any Item.initCallsFunction = false ∧ program.keepsUpdates = true ∧
    program.signature? 0 = some ([], .num .i32) ∧
    ∀ fuel limit sink record?, RunConforms fuel program 0 limit ⟨.empty, sink, record?⟩ := by
  have checked : ((lower (afterLargest (addOne true))).toOption.any fun program =>
      program.keepsUpdates = true ∧ program.signature? 0 = some ([], .num .i32)) = true := by
    decide +kernel
  obtain ⟨program, accepted, holds⟩ := eq_ok_of_any checked
  obtain ⟨keeps, signature⟩ := of_decide_eq_true holds
  refine ⟨program, accepted, rfl, keeps, signature, ?_⟩
  intro fuel limit sink record?
  exact (runConforms_iff accepted rfl signature fuel limit sink record?).2 keeps

def Machine.Point.misfits : Point → Bool
  | .eval context fuel term state =>
      match Machine.eval context fuel term state with
      | .done value _ => term.ty.kind?.isSome && value.ty? ≠ some term.ty
      | _ => false
  | _ => false

private theorem not_runConforms_of_misfits {fuel limit : Nat} {program : Program}
    {entry : FunctionId}
    {world : World} (path : List Nat)
    (misfits : ((runPoints fuel program entry limit world).any fun first =>
      (first.follow path).any Point.misfits) = true) :
    ¬RunConforms fuel program entry limit world := by
  intro conforms
  obtain ⟨first, listed, found⟩ := List.any_eq_true.mp misfits
  obtain ⟨point, followed, misfit⟩ := (Option.any_eq_true _ _).mp found
  have visited : Visits fuel program entry limit world point :=
    ⟨first, listed, Point.within_of_follow followed⟩
  cases point with
  | eval context less term state =>
      obtain ⟨setting, inLoop, vars, out, here⟩ := conforms.eval context less term state visited
      unfold Point.misfits at misfit
      simp only at misfit
      split at misfit
      · rename_i value after result
        obtain ⟨numeric, other⟩ := Bool.and_eq_true_iff.mp misfit
        have valueTyped := (here.value value after result).1
        cases shown : term.ty with
        | num kind =>
            rw [shown] at valueTyped other
            exact of_decide_eq_true other valueTyped
        | _ =>
            rw [shown] at numeric
            cases numeric
      · cases misfit
  | _ => cases misfit

/-- A cast to the empty type reaches an update through a unary plus, which leaves no node of its
own. The variable then holds a `long`, and its next use is evaluated to a value of another kind. -/
theorem not_runConforms_of_discarded_plus : ∃ program,
    lower (afterLargest (.cast ⟨0, 0⟩ .void (.unary ⟨0, 0⟩ .plus (addOne true)))) = .ok program ∧
      program.main? = some 0 ∧ program.signature? 0 = some ([], .num .i32) ∧
      (afterLargest (.cast ⟨0, 0⟩ .void (.unary ⟨0, 0⟩ .plus (addOne true)))).any
        Item.initCallsFunction = false ∧
      ¬RunConforms 20 program 0 10 ⟨.empty, .unlimited, none⟩ := by
  have checked : ((lower (afterLargest
      (.cast ⟨0, 0⟩ .void (.unary ⟨0, 0⟩ .plus (addOne true))))).toOption.any fun program =>
        program.main? = some 0 ∧ program.signature? 0 = some ([], .num .i32) ∧
          ((runPoints 20 program 0 10 ⟨.empty, .unlimited, none⟩).any fun first =>
            (first.follow [0, 0, 1, 1, 0, 0]).any Point.misfits) = true) = true := by
    decide +kernel
  obtain ⟨program, accepted, holds⟩ := eq_ok_of_any checked
  obtain ⟨main, signature, misfits⟩ := of_decide_eq_true holds
  exact ⟨program, accepted, main, signature, rfl, not_runConforms_of_misfits _ misfits⟩

end MiniC
