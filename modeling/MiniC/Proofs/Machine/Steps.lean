import MiniC.Machine.Eval

/-!
Steps that call nothing: references, locations, loads and stores.

Looking up and reading leave the state as it is; writing always ends well.
-/

namespace MiniC

namespace Frame

theorem scalar_new (layout : Layout) (args : List Value) (index : Nat) :
    (Frame.new layout args).scalar index = .void := by
  simp only [Frame.scalar, Frame.new, Array.getElem?_replicate]
  split
  · rfl
  · rfl

theorem reference?_new (layout : Layout) (args : List Value) (index : Nat) :
    (Frame.new layout args).reference? index = none := by
  simp only [Frame.reference?, Frame.new, Array.getElem?_replicate]
  split
  · rfl
  · rfl

theorem reference?_setReference (frame : Frame) (index : Nat) (value : Value) (other : Nat) :
    (frame.setReference index value).reference? other =
      if other = index then (if index < frame.references.size then some value else none)
      else frame.reference? other := by
  simp only [reference?, setReference, Array.getElem?_setIfInBounds, eq_comm (a := index)]
  split
  · split <;> rfl
  · rfl

end Frame

theorem Heap.size_copyFields (heap : Heap) (source target : Address) :
    (heap.copyFields source target).size = heap.size := by
  unfold copyFields
  split
  · exact Array.size_modify
  · rfl

namespace Machine

/-- The state that a step leaves behind, whether it ends well or fails. -/
def Outcome.last? {α : Type} : Outcome α → Option State
  | .done _ state => some state
  | .failed _ state => some state
  | .exhausted => none

theorem last?_bind {α β : Type} (step : Step α) (next : α → Step β) (state : State) :
    ((step >>= next) state).last? =
      match step state with
      | .done value middle => (next value middle).last?
      | .failed _ middle => some middle
      | .exhausted => none := by
  change (Step.bind step next state).last? = _
  unfold Step.bind
  cases step state <;> rfl

theorem bind_of_done {α β : Type} {step : Step α} {next : α → Step β} {value : α}
    {state middle : State} (done : step state = .done value middle) :
    (step >>= next) state = next value middle := by
  change Step.bind step next state = _
  unfold Step.bind
  rw [done]

theorem bind_of_failed {α β : Type} {step : Step α} {next : α → Step β} {failure : Failure}
    {state middle : State} (failed : step state = .failed failure middle) :
    (step >>= next) state = .failed failure middle := by
  change Step.bind step next state = _
  unfold Step.bind
  rw [failed]

theorem bind_of_exhausted {α β : Type} {step : Step α} {next : α → Step β} {state : State}
    (exhausted : step state = .exhausted) : (step >>= next) state = .exhausted := by
  change Step.bind step next state = _
  unfold Step.bind
  rw [exhausted]

theorem bind_eq_done {α β : Type} {step : Step α} {next : α → Step β} {value : β}
    {state last : State} (done : (step >>= next) state = .done value last) :
    ∃ first middle, step state = .done first middle ∧ next first middle = .done value last := by
  cases outcome : step state with
  | done first middle =>
      rw [bind_of_done outcome] at done
      exact ⟨first, middle, rfl, done⟩
  | failed failure middle =>
      rw [bind_of_failed outcome] at done
      cases done
  | exhausted =>
      rw [bind_of_exhausted outcome] at done
      cases done

theorem bind_congr_of_done {α β : Type} {step : Step α} {next later : α → Step β} {state : State}
    (same : ∀ value middle, step state = .done value middle →
      next value middle = later value middle) :
    (step >>= next) state = (step >>= later) state := by
  cases outcome : step state with
  | done value middle =>
      rw [bind_of_done outcome, bind_of_done outcome]
      exact same value middle outcome
  | failed failure middle => rw [bind_of_failed outcome, bind_of_failed outcome]
  | exhausted => rw [bind_of_exhausted outcome, bind_of_exhausted outcome]

theorem bind_bind {α β γ : Type} (step : Step α) (next : α → Step β) (later : β → Step γ) :
    step >>= next >>= later = step >>= fun value => next value >>= later := by
  funext state
  cases outcome : step state with
  | done value middle =>
      rw [bind_of_done outcome]
      change Step.bind (step >>= next) later state = Step.bind (next value) later middle
      unfold Step.bind
      rw [bind_of_done outcome]
  | failed failure middle => rw [bind_of_failed outcome, bind_of_failed (bind_of_failed outcome)]
  | exhausted => rw [bind_of_exhausted outcome, bind_of_exhausted (bind_of_exhausted outcome)]

theorem reference_eq (slot : Slot) (state : State) :
    reference slot state =
      match state.reference? slot with
      | some value => .done value state
      | none => .failed ⟨.uninitialized, []⟩ state := by
  unfold reference
  simp only [Bind.bind, Step.bind, Step.read]
  cases state.reference? slot <;> rfl

theorem fieldLocation_eq (slot : Slot) (index : Nat) (state : State) :
    fieldLocation slot index state =
      match state.reference? slot with
      | some (.struct address) => .done (.field address index) state
      | _ => .failed ⟨.uninitialized, []⟩ state := by
  unfold fieldLocation
  simp only [Bind.bind, Step.bind, reference_eq]
  cases state.reference? slot with
  | none => rfl
  | some value => cases value <;> rfl

theorem elementLocation_eq (slot : Slot) (index : Int64) (state : State) :
    elementLocation slot index state =
      match state.reference? slot with
      | some (.array address) =>
          if 0 ≤ index.toInt ∧ index.toInt < state.cellCount address then
            .done (.element address index.toInt.toNat) state
          else .failed ⟨.indexOutOfRange index (state.cellCount address), []⟩ state
      | _ => .failed ⟨.uninitialized, []⟩ state := by
  unfold elementLocation
  simp only [Bind.bind, Step.bind, reference_eq]
  cases state.reference? slot with
  | none => rfl
  | some value =>
      cases value with
      | array address =>
          change (if 0 ≤ index.toInt ∧ index.toInt < state.cellCount address then
            (pure (.element address index.toInt.toNat) : Step Location)
            else Step.fail (.indexOutOfRange index (state.cellCount address))) state =
            if 0 ≤ index.toInt ∧ index.toInt < state.cellCount address then
              .done (.element address index.toInt.toNat) state
            else .failed ⟨.indexOutOfRange index (state.cellCount address), []⟩ state
          split <;> rfl
      | _ => rfl

private theorem reference_last? {slot : Slot} {state last : State}
    (ended : (reference slot state).last? = some last) : last = state := by
  rw [reference_eq] at ended
  split at ended
  · cases ended
    rfl
  · cases ended
    rfl

theorem fieldLocation_last? {slot : Slot} {index : Nat} {state last : State}
    (ended : (fieldLocation slot index state).last? = some last) : last = state := by
  rw [fieldLocation_eq] at ended
  split at ended
  · cases ended
    rfl
  · cases ended
    rfl

theorem elementLocation_last? {slot : Slot} {index : Int64} {state last : State}
    (ended : (elementLocation slot index state).last? = some last) : last = state := by
  rw [elementLocation_eq] at ended
  split at ended
  · split at ended
    · cases ended
      rfl
    · cases ended
      rfl
  · cases ended
    rfl

theorem load_last? {location : Location} {state last : State}
    (ended : (load location state).last? = some last) : last = state := by
  cases location with
  | whole slot => exact reference_last? ended
  | scalar slot =>
      cases ended
      rfl
  | element array index =>
      cases ended
      rfl
  | field owner index =>
      cases ended
      rfl

/-! ### Writing -/

@[simp]
theorem State.setScalar_world (state : State) (slot : Slot) (value : Value) :
    (state.setScalar slot value).world = state.world := by
  unfold setScalar
  split <;> rfl

@[simp]
theorem State.setReference_world (state : State) (slot : Slot) (value : Value) :
    (state.setReference slot value).world = state.world := by
  unfold setReference
  split <;> rfl

@[simp]
theorem State.reference?_setScalar (state : State) (slot other : Slot) (value : Value) :
    (state.setScalar slot value).reference? other = state.reference? other := by
  obtain ⟨region, index⟩ := slot
  obtain ⟨otherRegion, other⟩ := other
  cases region <;> cases otherRegion <;> rfl

theorem State.reference?_setReference (state : State) (slot other : Slot) (value : Value) :
    (state.setReference slot value).reference? other =
      if other = slot then
        (if slot.index < (state.frame slot.region).references.size then some value else none)
      else state.reference? other := by
  obtain ⟨region, index⟩ := slot
  obtain ⟨otherRegion, other⟩ := other
  have same (here : Region) : (⟨here, other⟩ : Slot) = ⟨here, index⟩ ↔ other = index := by
    simp only [Slot.mk.injEq, true_and]
  cases region <;> cases otherRegion
  · simp only [same]
    exact Frame.reference?_setReference state.globals index value other
  · rfl
  · rfl
  · simp only [same]
    exact Frame.reference?_setReference state.locals index value other

def State.allocated (state : State) (slot : Slot) (operation : Heap → Value × Heap) : State :=
  (state.onHeap operation).2.setReference slot (state.onHeap operation).1

theorem newArray_cases (slot : Slot) (kind : Kind) (size : Int64) (state : State) :
    (∃ count, newArray slot kind size state =
      .done () (state.allocated slot (·.newArray kind count))) ∨
      ∃ failure, newArray slot kind size state = .failed failure state := by
  unfold newArray
  simp only
  split
  · exact Or.inl ⟨_, rfl⟩
  · exact Or.inr ⟨_, rfl⟩

theorem invoke_last? {builtin : Builtin} {args : List Value} {state last : State}
    (ended : (invoke builtin args state).last? = some last) :
    last = { state with world := (builtin.invoke args state.world).world } := by
  unfold invoke at ended
  cases outcome : builtin.invoke args state.world with
  | mk result world =>
      simp only [outcome] at ended
      cases result with
      | ok value =>
          cases ended
          rfl
      | error error =>
          cases ended
          rfl

/-- Writing a whole array or struct: a struct is copied into the one that is there. -/
theorem store_whole (slot : Slot) (value : Value) (state : State) :
    store (.whole slot) value state =
      match value, state.reference? slot with
      | .struct source, some (.struct target) =>
          .done (.struct target) (state.copyFields source target)
      | _, _ => .done value (state.setReference slot value) := by
  change (match value, state.reference? slot with
    | .struct source, some (.struct target) => (do
        Step.modify (State.copyFields · source target)
        return .struct target : Step Value)
    | _, _ => do
        Step.modify (State.setReference · slot value)
        return value) state = _
  generalize state.reference? slot = found
  split
  · rfl
  · rfl

theorem store_eq_done (location : Location) (value : Value) (state : State) :
    ∃ result after, store location value state = .done result after := by
  cases location with
  | scalar slot => exact ⟨_, _, rfl⟩
  | element address index => exact ⟨_, _, rfl⟩
  | field address index => exact ⟨_, _, rfl⟩
  | whole slot =>
      rw [store_whole]
      split
      · exact ⟨_, _, rfl⟩
      · exact ⟨_, _, rfl⟩

/-- Writing reaches neither the sink nor the record. -/
theorem store_world {location : Location} {value written : Value} {state last : State}
    (stored : store location value state = .done written last) :
    last.world.sink = state.world.sink ∧ last.world.record? = state.world.record? := by
  cases location with
  | scalar slot =>
      cases stored
      simp only [State.setScalar_world, and_self]
  | element address index =>
      cases stored
      exact ⟨rfl, rfl⟩
  | field address index =>
      cases stored
      exact ⟨rfl, rfl⟩
  | whole slot =>
      rw [store_whole] at stored
      split at stored
      · cases stored
        exact ⟨rfl, rfl⟩
      · cases stored
        simp only [State.setReference_world, and_self]

theorem store_heap_size {location : Location} {value written : Value} {state last : State}
    (stored : store location value state = .done written last) :
    last.world.heap.size = state.world.heap.size := by
  cases location with
  | scalar slot =>
      cases stored
      rw [State.setScalar_world]
  | element address index =>
      cases stored
      exact Array.size_modify
  | field address index =>
      cases stored
      exact Array.size_modify
  | whole slot =>
      rw [store_whole] at stored
      split at stored
      · cases stored
        exact Heap.size_copyFields state.world.heap _ _
      · cases stored
        rw [State.setReference_world]

/-- A store changes the reference in no slot but the one that it puts a value in. -/
theorem store_reference? {location : Location} {value written : Value} {state last : State}
    (stored : store location value state = .done written last) (slot : Slot) :
    last.reference? slot = state.reference? slot ∨
      location = .whole slot ∧ last = state.setReference slot value := by
  cases location with
  | scalar other =>
      cases stored
      exact Or.inl (state.reference?_setScalar other slot value)
  | element address index =>
      cases stored
      exact Or.inl rfl
  | field address index =>
      cases stored
      exact Or.inl rfl
  | whole other =>
      rw [store_whole] at stored
      split at stored
      · cases stored
        exact Or.inl rfl
      · cases stored
        by_cases same : slot = other
        · subst same
          exact Or.inr ⟨rfl, rfl⟩
        · refine Or.inl ?_
          rw [State.reference?_setReference, if_neg same]

theorem store_last? {location : Location} {value : Value} {state last : State}
    (ended : (store location value state).last? = some last) :
    ∃ written, store location value state = .done written last := by
  obtain ⟨written, after, stored⟩ := store_eq_done location value state
  rw [stored] at ended
  cases ended
  exact ⟨written, stored⟩

end Machine

end MiniC
