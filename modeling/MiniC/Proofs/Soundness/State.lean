import MiniC.Machine.Run
import MiniC.Proofs.Machine.Steps
import MiniC.Proofs.Soundness.Builtin
import MiniC.Proofs.Typing.Weaken

/-!
Well-typed states.

A frame holds, for every variable that has been declared in it, a value of the
variable's type. A global variable may still be empty where the guarantee allows
that. Reading, writing and allocating keep a state well typed.
-/

namespace MiniC.Soundness

open Lowering Machine Typing

variable {G : Guarantee} {heap grown : Heap} {setting : Setting} {vars more : Variables}

structure FrameTyped (G : Guarantee) (early : Bool) (heap : Heap) (layout : Layout)
    (region : Region) (vars : Variables) (frame : Frame) : Prop where
  scalars_size : frame.scalars.size = layout.scalars
  references_size : frame.references.size = layout.references
  scalar : ∀ index ty, vars.scalar ⟨region, index⟩ = some ty →
    G.admits ty (frame.scalar index) ∨ (early = true ∧ frame.scalar index = .void)
  reference : ∀ index ty, vars.reference ⟨region, index⟩ = some ty →
    (∃ value, frame.reference? index = some value ∧ HasType G heap value ty) ∨
      (early = true ∧ frame.reference? index = none)

namespace FrameTyped

variable {early : Bool} {layout : Layout} {region : Region} {frame : Frame}

theorem mono (extended : heap.Extends grown) (fewer : more.Le vars)
    (typed : FrameTyped G early heap layout region vars frame) :
    FrameTyped G early grown layout region more frame where
  scalars_size := typed.scalars_size
  references_size := typed.references_size
  scalar := fun index ty known => typed.scalar index ty (fewer.scalar _ ty known)
  reference := by
    intro index ty known
    have before := typed.reference index ty (fewer.reference _ ty known)
    rcases before with ⟨value, found, hasType⟩ | empty
    · exact Or.inl ⟨value, found, hasType.mono extended⟩
    · exact Or.inr empty

theorem congr (scalars : ∀ index, more.scalar ⟨region, index⟩ = vars.scalar ⟨region, index⟩)
    (references : ∀ index, more.reference ⟨region, index⟩ = vars.reference ⟨region, index⟩)
    (typed : FrameTyped G early heap layout region vars frame) :
    FrameTyped G early heap layout region more frame where
  scalars_size := typed.scalars_size
  references_size := typed.references_size
  scalar := by
    intro index ty known
    rw [scalars index] at known
    exact typed.scalar index ty known
  reference := by
    intro index ty known
    rw [references index] at known
    exact typed.reference index ty known

theorem setScalar {index : Nat} {ty : Ty} {value : Value}
    (typed : FrameTyped G early heap layout region vars frame) (has : index < layout.scalars)
    (admitted : G.admits ty value) :
    FrameTyped G early heap layout region (vars.withScalar ⟨region, index⟩ ty)
      (frame.setScalar index value) where
  scalars_size := by
    rw [Frame.setScalar, Array.size_setIfInBounds]
    exact typed.scalars_size
  references_size := typed.references_size
  scalar := by
    intro other otherTy known
    by_cases same : other = index
    · subst same
      have bound : other < frame.scalars.size := by
        rw [typed.scalars_size]
        exact has
      simp only [Variables.withScalar, if_pos] at known
      cases known
      have stored : (frame.setScalar other value).scalar other = value := by
        simp only [Frame.scalar, Frame.setScalar, Array.getElem?_setIfInBounds_self_of_lt bound,
          Option.getD_some]
      rw [stored]
      exact Or.inl admitted
    · have different : (⟨region, other⟩ : Slot) ≠ ⟨region, index⟩ := by
        intro equal
        cases equal
        exact same rfl
      simp only [Variables.withScalar, if_neg different] at known
      have kept : (frame.setScalar index value).scalar other = frame.scalar other := by
        simp only [Frame.scalar, Frame.setScalar,
          Array.getElem?_setIfInBounds_ne (Ne.symm same)]
      rw [kept]
      exact typed.scalar other otherTy known
  reference := typed.reference

theorem setReference {index : Nat} {ty : Ty} {value : Value}
    (typed : FrameTyped G early heap layout region vars frame) (has : index < layout.references)
    (hasType : HasType G heap value ty) :
    FrameTyped G early heap layout region (vars.withReference ⟨region, index⟩ ty)
      (frame.setReference index value) where
  scalars_size := typed.scalars_size
  references_size := by
    rw [Frame.setReference, Array.size_setIfInBounds]
    exact typed.references_size
  scalar := typed.scalar
  reference := by
    intro other otherTy known
    by_cases same : other = index
    · subst same
      have bound : other < frame.references.size := by
        rw [typed.references_size]
        exact has
      simp only [Variables.withReference, if_pos] at known
      cases known
      have stored : (frame.setReference other value).reference? other = some value := by
        simp only [Frame.reference?, Frame.setReference,
          Array.getElem?_setIfInBounds_self_of_lt bound, Option.join_some]
      exact Or.inl ⟨value, stored, hasType⟩
    · have different : (⟨region, other⟩ : Slot) ≠ ⟨region, index⟩ := by
        intro equal
        cases equal
        exact same rfl
      simp only [Variables.withReference, if_neg different] at known
      have kept : (frame.setReference index value).reference? other = frame.reference? other := by
        simp only [Frame.reference?, Frame.setReference,
          Array.getElem?_setIfInBounds_ne (Ne.symm same)]
      rw [kept]
      exact typed.reference other otherTy known

end FrameTyped

/-- The heap, both frames and the arguments hold what the variables and parameters say. -/
structure StateTyped (G : Guarantee) (setting : Setting) (vars : Variables)
    (state : Machine.State) : Prop where
  heap : HeapTyped G state.world.heap
  globals : FrameTyped G G.early state.world.heap setting.globals .global vars state.globals
  locals : FrameTyped G false state.world.heap setting.locals .activation vars state.locals
  args : ∀ index ty, setting.params[index]? = some ty →
    HasType G state.world.heap (state.locals.argument index) ty

structure Later (G : Guarantee) (setting : Setting) (vars : Variables)
    (before after : Machine.State) : Prop where
  typed : StateTyped G setting vars after
  extended : before.world.heap.Extends after.world.heap

theorem Later.trans {first second third : Machine.State} (lower : Later G setting vars first second)
    (upper : Later G setting more second third) : Later G setting more first third :=
  ⟨upper.typed, lower.extended.trans upper.extended⟩

namespace StateTyped

variable {state : Machine.State}

theorem later (typed : StateTyped G setting vars state) : Later G setting vars state state :=
  ⟨typed, .refl _⟩

theorem fewer (typed : StateTyped G setting vars state) (le : more.Le vars) :
    StateTyped G setting more state :=
  ⟨typed.heap, typed.globals.mono (.refl _) le, typed.locals.mono (.refl _) le, typed.args⟩

theorem scalar {slot : Slot} {ty : Ty} (typed : StateTyped G setting vars state)
    (known : vars.scalar slot = some ty) :
    G.admits ty (state.scalar slot) ∨
      (G.early = true ∧ slot.region = .global ∧ state.scalar slot = .void) := by
  obtain ⟨region, index⟩ := slot
  cases region with
  | global =>
      rcases typed.globals.scalar index ty known with admitted | ⟨early, empty⟩
      · exact Or.inl admitted
      · exact Or.inr ⟨early, rfl, empty⟩
  | activation =>
      rcases typed.locals.scalar index ty known with admitted | ⟨impossible, _⟩
      · exact Or.inl admitted
      · cases impossible

theorem reference {slot : Slot} {ty : Ty} (typed : StateTyped G setting vars state)
    (known : vars.reference slot = some ty) :
    (∃ value, state.reference? slot = some value ∧ HasType G state.world.heap value ty) ∨
      (G.early = true ∧ state.reference? slot = none) := by
  obtain ⟨region, index⟩ := slot
  cases region with
  | global => exact typed.globals.reference index ty known
  | activation =>
      rcases typed.locals.reference index ty known with found | ⟨impossible, _⟩
      · exact Or.inl found
      · cases impossible

theorem withWorld {world : World} (typed : StateTyped G setting vars state)
    (grown : Grown G state.world.heap world.heap) :
    Later G setting vars state { state with world } where
  typed :=
    { heap := grown.typed
      globals := typed.globals.mono grown.extended (.refl vars)
      locals := typed.locals.mono grown.extended (.refl vars)
      args := fun index ty found => (typed.args index ty found).mono grown.extended }
  extended := grown.extended

theorem setScalar {slot : Slot} {ty : Ty} {value : Value} (typed : StateTyped G setting vars state)
    (has : setting.HasScalar slot) (admitted : G.admits ty value) :
    Later G setting (vars.withScalar slot ty) state (state.setScalar slot value) := by
  obtain ⟨region, index⟩ := slot
  have apart {other : Region} (different : other ≠ region) (position : Nat) :
      (vars.withScalar ⟨region, index⟩ ty).scalar ⟨other, position⟩ =
        vars.scalar ⟨other, position⟩ := by
    refine if_neg ?_
    intro same
    cases same
    exact different rfl
  cases region with
  | global =>
      refine ⟨⟨typed.heap, typed.globals.setScalar has admitted, ?_, typed.args⟩, .refl _⟩
      exact typed.locals.congr (apart (by decide)) (fun _ => rfl)
  | activation =>
      refine ⟨⟨typed.heap, ?_, typed.locals.setScalar has admitted, typed.args⟩, .refl _⟩
      exact typed.globals.congr (apart (by decide)) (fun _ => rfl)

theorem setReference {slot : Slot} {ty : Ty} {value : Value}
    (typed : StateTyped G setting vars state) (has : setting.HasReference slot)
    (hasType : HasType G state.world.heap value ty) :
    Later G setting (vars.withReference slot ty) state (state.setReference slot value) := by
  obtain ⟨region, index⟩ := slot
  have apart {other : Region} (different : other ≠ region) (position : Nat) :
      (vars.withReference ⟨region, index⟩ ty).reference ⟨other, position⟩ =
        vars.reference ⟨other, position⟩ := by
    refine if_neg ?_
    intro same
    cases same
    exact different rfl
  cases region with
  | global =>
      refine ⟨⟨typed.heap, typed.globals.setReference has hasType, ?_, typed.args⟩, .refl _⟩
      exact typed.locals.congr (by intro _; rfl) (apart (by decide))
  | activation =>
      refine ⟨⟨typed.heap, ?_, typed.locals.setReference has hasType, typed.args⟩, .refl _⟩
      exact typed.globals.congr (by intro _; rfl) (apart (by decide))

theorem setCell {address : Address} {index : Nat} {ty : Ty} {value : Value}
    (typed : StateTyped G setting vars state) (cell : CellTyped state.world.heap address index ty)
    (admitted : G.admits ty value) :
    Later G setting vars state (state.setCell address index value) := by
  have grown := typed.heap.setCell cell admitted
  change Later G setting vars state { state with world := { state.world with
    heap := state.world.heap.setCell address index value } }
  exact typed.withWorld grown

theorem copyFields {source target : Address} {name : String} {members : List (String × Ty)}
    {sourceSize targetSize : Nat} (typed : StateTyped G setting vars state)
    (sourceFound : state.world.heap.shape? source = some (.struct name members, sourceSize))
    (targetFound : state.world.heap.shape? target = some (.struct name members, targetSize)) :
    Later G setting vars state (state.copyFields source target) := by
  have grown := copyFields_typed typed.heap sourceFound targetFound
  change Later G setting vars state { state with world := { state.world with
    heap := state.world.heap.copyFields source target } }
  exact typed.withWorld grown

theorem onHeap {operation : Heap → Value × Heap} (typed : StateTyped G setting vars state)
    (grown : Grown G state.world.heap (operation state.world.heap).2) :
    Later G setting vars state (state.onHeap operation).2 := by
  change Later G setting vars state { state with world := { state.world with
    heap := (operation state.world.heap).2 } }
  exact typed.withWorld grown

end StateTyped

/-! ### Ends of steps -/

/-- A failure is allowed: a reference may be missing only where variables may be used early. -/
def Excused (G : Guarantee) (failure : Failure) : Prop :=
  failure.error = .uninitialized → G.early = true

/-- What holds when a step ends well; its failure must be allowed. -/
structure Ends {α : Type} (G : Guarantee) (outcome : Outcome α) (Done : α → Machine.State → Prop) :
    Prop where
  done : ∀ value state, outcome = .done value state → Done value state
  failed : ∀ failure state, outcome = .failed failure state → Excused G failure

namespace Ends

variable {α β : Type} {state : Machine.State} {Between : α → Machine.State → Prop}
  {Done : β → Machine.State → Prop}

theorem of_done {value : β} (holds : Done value state) : Ends G (.done value state) Done where
  done := by
    intro other after same
    cases same
    exact holds
  failed := by
    intro failure after impossible
    cases impossible

theorem of_exhausted : Ends G .exhausted Done where
  done := by
    intro value after impossible
    cases impossible
  failed := by
    intro failure after impossible
    cases impossible

theorem of_failed {failure : Failure} (excused : Excused G failure) :
    Ends G (.failed failure state) Done where
  done := by
    intro value after impossible
    cases impossible
  failed := by
    intro other after same
    cases same
    exact excused

theorem bind {step : Step α} {next : α → Step β} (first : Ends G (step state) Between)
    (second : ∀ value after, step state = .done value after → Between value after →
      Ends G (next value after) Done) :
    Ends G ((step >>= next) state) Done := by
  change Ends G (Step.bind step next state) Done
  unfold Step.bind
  cases outcome : step state with
  | done value after => exact second value after outcome (first.done value after outcome)
  | failed failure after => exact of_failed (first.failed failure after outcome)
  | exhausted => exact of_exhausted

theorem withOutcome {outcome : Outcome α} (ends : Ends G outcome Between) :
    Ends G outcome fun value after => outcome = .done value after ∧ Between value after :=
  ⟨fun value after same => ⟨same, ends.done value after same⟩, ends.failed⟩

theorem imp {outcome : Outcome α} {Weaker : α → Machine.State → Prop}
    (ends : Ends G outcome Between)
    (weaker : ∀ value after, Between value after → Weaker value after) :
    Ends G outcome Weaker :=
  ⟨fun value after same => weaker value after (ends.done value after same), ends.failed⟩

end Ends

def LocationTyped (setting : Setting) (vars : Variables) (heap : Heap) (location : Location)
    (ty : Ty) : Prop :=
  match location with
  | .scalar slot =>
      vars.scalar slot = some ty ∧ setting.HasScalar slot ∧ isCondition ty = true
  | .whole slot =>
      vars.reference slot = some ty ∧ setting.HasReference slot ∧ ty.isObject = true
  | .element address index => CellTyped heap address index ty ∧ isCondition ty = true
  | .field address index => CellTyped heap address index ty ∧ isCondition ty = true

theorem LocationTyped.mono {location : Location} {ty : Ty} (extended : heap.Extends grown)
    (typed : LocationTyped setting vars heap location ty) :
    LocationTyped setting vars grown location ty := by
  cases location with
  | scalar slot => exact typed
  | whole slot => exact typed
  | element address index => exact ⟨typed.1.mono extended, typed.2⟩
  | field address index => exact ⟨typed.1.mono extended, typed.2⟩

section Locations

variable {state : Machine.State} {slot : Slot} {ty : Ty}

private theorem reference_ends (typed : StateTyped G setting vars state)
    (known : vars.reference slot = some ty) :
    Ends G (Machine.reference slot state) fun value after =>
      after = state ∧ HasType G state.world.heap value ty := by
  rcases typed.reference known with ⟨value, found, hasType⟩ | ⟨early, missing⟩
  · have result : Machine.reference slot state = .done value state := by
      simp only [Machine.reference, bind, Step.bind, Step.read, found]
      rfl
    rw [result]
    exact .of_done ⟨rfl, hasType⟩
  · have result : Machine.reference slot state = .failed ⟨.uninitialized, []⟩ state := by
      simp only [Machine.reference, bind, Step.bind, Step.read, missing]
      rfl
    rw [result]
    exact .of_failed fun _ => early

theorem elementLocation_ends {kind : Kind} (typed : StateTyped G setting vars state)
    (known : vars.reference slot = some (.array (.num kind))) (index : Int64) :
    Ends G (elementLocation slot index state) fun location after =>
      after = state ∧ LocationTyped setting vars state.world.heap location (.num kind) ∧
        ∀ slot, location ≠ .scalar slot := by
  refine (reference_ends typed known).bind ?_
  rintro value after _ ⟨rfl, ⟨address, size, rfl, found⟩ | ⟨lacking, rfl⟩⟩
  case inr => exact .of_failed fun _ => G.early_of_lacking lacking
  change Ends G ((if 0 ≤ index.toInt ∧ index.toInt < after.cellCount address then
    Step.pure (Location.element address index.toInt.toNat)
    else Step.fail (.indexOutOfRange index (after.cellCount address))) after) _
  have count : after.cellCount address = size := by
    obtain ⟨object, here, shapeEq⟩ := Heap.exists_of_shape? found
    simp only [State.cellCount, here, Option.map_some, Option.getD_some, object.cells_size, shapeEq]
  rw [count]
  split
  · rename_i bounds
    refine .of_done ⟨rfl, ⟨⟨(.array (.num kind), size), found, rfl, ?_⟩, rfl⟩, nofun⟩
    simp only
    omega
  · refine .of_failed fun impossible => ?_
    cases impossible

theorem fieldLocation_ends {index : Nat} {struct name : String} {members : List (String × Ty)}
    (typed : StateTyped G setting vars state)
    (known : vars.reference slot = some (.struct struct members))
    (member : members[index]? = some (name, ty)) (scalar : isCondition ty = true) :
    Ends G (fieldLocation slot index state) fun location after =>
      after = state ∧ LocationTyped setting vars state.world.heap location ty ∧
        ∀ slot, location ≠ .scalar slot := by
  refine (reference_ends typed known).bind ?_
  rintro value after _ ⟨rfl, ⟨address, size, rfl, found⟩ | ⟨lacking, rfl⟩⟩
  case inr => exact .of_failed fun _ => G.early_of_lacking lacking
  obtain ⟨object, here, shapeEq⟩ := Heap.exists_of_shape? found
  have complete : size = members.length := by
    have whole := (typed.heap address object here).complete struct members
    rw [shapeEq] at whole
    exact whole rfl
  have bound : index < members.length := (List.getElem?_eq_some_iff.mp member).1
  refine .of_done ⟨rfl, ⟨⟨(.struct struct members, size), found, ?_, ?_⟩, scalar⟩, nofun⟩
  · simp only [Ty.cell?, member, Option.map_some]
  · rw [complete]
    exact bound

/-- What a location holds has its type, unless it is a global scalar that is still empty. -/
theorem load_ends {location : Location} (typed : StateTyped G setting vars state)
    (located : LocationTyped setting vars state.world.heap location ty) :
    Ends G (load location state) fun value after =>
      after = state ∧ (HasType G state.world.heap value ty ∨
        (G.early = true ∧ value = .void ∧ ∃ slot, location = .scalar slot ∧
          slot.region = .global ∧ state.scalar slot = .void)) := by
  cases location with
  | scalar slot =>
      obtain ⟨known, _, scalar⟩ := located
      refine .of_done ⟨rfl, ?_⟩
      rcases typed.scalar known with admitted | ⟨early, global, empty⟩
      · exact Or.inl ((hasType_iff_admits scalar).mpr admitted)
      · exact Or.inr ⟨early, empty, slot, rfl, global, empty⟩
  | whole slot =>
      refine (reference_ends typed located.1).imp ?_
      rintro value after ⟨same, hasType⟩
      exact ⟨same, Or.inl hasType⟩
  | element address index =>
      exact .of_done ⟨rfl, Or.inl ((hasType_iff_admits located.2).mpr (typed.heap.cell located.1))⟩
  | field address index =>
      exact .of_done ⟨rfl, Or.inl ((hasType_iff_admits located.2).mpr (typed.heap.cell located.1))⟩

theorem store_ends {location : Location} {value : Value} (typed : StateTyped G setting vars state)
    (located : LocationTyped setting vars state.world.heap location ty)
    (hasType : HasType G state.world.heap value ty) :
    Ends G (store location value state) fun result after =>
      Later G setting vars state after ∧ HasType G after.world.heap result ty := by
  cases location with
  | scalar slot =>
      obtain ⟨known, has, scalar⟩ := located
      have stored := typed.setScalar has ((hasType_iff_admits scalar).mp hasType)
      rw [Variables.withScalar_of_eq known] at stored
      exact .of_done ⟨stored, hasType.mono stored.extended⟩
  | element address index =>
      have stored := typed.setCell located.1 ((hasType_iff_admits located.2).mp hasType)
      exact .of_done ⟨stored, hasType.mono stored.extended⟩
  | field address index =>
      have stored := typed.setCell located.1 ((hasType_iff_admits located.2).mp hasType)
      exact .of_done ⟨stored, hasType.mono stored.extended⟩
  | whole slot =>
      obtain ⟨known, has, object⟩ := located
      have replaced := typed.setReference has hasType
      rw [Variables.withReference_of_eq known] at replaced
      have stored (plain : store (.whole slot) value state =
          .done value (state.setReference slot value)) :
          Ends G (store (.whole slot) value state) fun result after =>
            Later G setting vars state after ∧ HasType G after.world.heap result ty := by
        rw [plain]
        exact .of_done ⟨replaced, hasType.mono replaced.extended⟩
      cases ty with
      | array element =>
          refine stored ?_
          rw [store_whole]
          rcases hasType with ⟨address, size, rfl, found⟩ | ⟨_, rfl⟩ <;> rfl
      | struct name members =>
          rcases hasType with ⟨source, size, rfl, found⟩ | ⟨_, rfl⟩
          case inr =>
            refine stored ?_
            rw [store_whole]
          rcases typed.reference known with
            ⟨old, present, ⟨target, targetSize, rfl, there⟩ | ⟨_, rfl⟩⟩ | ⟨_, missing⟩
          · have result : store (.whole slot) (.struct source) state =
                .done (.struct target) (state.copyFields source target) := by
              rw [store_whole, present]
            have copied := typed.copyFields found there
            rw [result]
            exact .of_done
              ⟨copied, Or.inl ⟨target, targetSize, rfl, copied.extended target _ there⟩⟩
          · refine stored ?_
            rw [store_whole, present]
          · refine stored ?_
            rw [store_whole, missing]
      | num kind => cases object
      | bool => cases object
      | str => cases object
      | func params ret => cases object
      | void => cases object

end Locations

end MiniC.Soundness
