import MiniC.Proofs.Machine.History

/-!
When the slots of arrays and structs are bound.

A slot becomes bound by its declaration, or by an assignment to the whole
variable, and is never unbound again. So which of these points have ended tells,
at every point of a run, whether a slot is bound.
-/

namespace MiniC

def Command.declares (slot : Slot) : Command → Bool
  | .newArray other _ _ => other = slot
  | .newStruct other _ _ => other = slot
  | .bind other _ => other = slot
  | _ => false

namespace Machine

def State.Bound (slot : Slot) (state : State) : Prop := (state.reference? slot).isSome = true

namespace Point

/-- A declaration of the slot that has run. -/
def Declares (slot : Slot) : Point → Prop
  | exec context fuel command state =>
      command.declares slot = true ∧ ∃ flow last,
        Machine.exec context fuel command state = .done flow last ∧ last.Bound slot
  | _ => False

/-- An assignment to the whole variable in the slot that has been made. -/
def Assigns (slot : Slot) : Point → Prop
  | eval context fuel (.mk ty span (.assign (.whole other) value)) state =>
      other = slot ∧ ∃ written last,
        Machine.eval context fuel (.mk ty span (.assign (.whole other) value)) state =
          .done written last ∧ last.Bound slot
  | _ => False

end Point

variable {slot : Slot} {point : Point} {state before last : State} {points : List Point}

theorem State.Bound.setReference {other : Slot} (value : Value) (bound : state.Bound slot) :
    (state.setReference other value).Bound slot := by
  unfold Bound
  rw [reference?_setReference]
  split
  · rename_i same
    subst same
    have inside : slot.index < (state.frame slot.region).references.size := by
      refine Nat.lt_of_not_le ?_
      intro outside
      unfold Bound reference? Frame.reference? at bound
      rw [Array.getElem?_eq_none outside] at bound
      cases bound
    rw [if_pos inside]
    rfl
  · exact bound

theorem State.bound_setReference (value : Value)
    (inside : slot.index < (state.frame slot.region).references.size) :
    (state.setReference slot value).Bound slot := by
  unfold Bound
  rw [reference?_setReference, if_pos rfl, if_pos inside]
  rfl

/-- A function that is left changes its own frame and the global one. -/
theorem Leaves.bound_iff {function : Function} {inner : State}
    (leaves : Leaves function state.locals inner last) :
    last.Bound slot ↔ (if slot.region = .global then inner else state).Bound slot := by
  obtain ⟨region, index⟩ := slot
  cases leaves with
  | plain => cases region <;> exact Iff.rfl
  | zero => cases region <;> exact Iff.rfl

theorem Point.Changes.bound (changes : point.Changes before last) (bound : before.Bound slot) :
    last.Bound slot := by
  have stores {location : Location} {value written : Value}
      (stored : store location value before = .done written last) : last.Bound slot := by
    rcases store_reference? stored slot with same | ⟨_, rfl⟩
    · unfold State.Bound
      rw [same]
      exact bound
    · exact bound.setReference value
  cases changes with
  | none _ => exact bound
  | assign _ _ stored => exact stores stored
  | update _ _ _ stored => exact stores stored
  | invoke _ ended =>
      rw [invoke_last? ended]
      exact bound
  | copy _ => exact bound
  | newArray _ _ => exact State.Bound.setReference _ bound
  | newStruct => exact State.Bound.setReference _ bound
  | bind _ => exact State.Bound.setReference _ bound

theorem Point.bound_last (ended : point.last? = some last) (bound : point.state.Bound slot) :
    last.Bound slot := by
  revert bound
  refine @Point.end_induction (fun point last => point.state.Bound slot → last.Bound slot)
    ?_ ?_ point last ended
  · intro point before last _ _ each threads changes bound
    refine changes.bound ?_
    exact threads.kept each bound
  · intro context fuel id args state function body inner last _ _ holds leaves bound
    rw [leaves.bound_iff]
    split
    · rename_i global
      refine holds ?_
      unfold State.Bound State.reference? at bound ⊢
      rw [global] at bound ⊢
      exact bound
    · exact bound

theorem Threads.bound (threads : Threads state points last) {called : Point}
    (listed : called ∈ points)
    (behind : ∀ last, called.last? = some last → last.Bound slot) : last.Bound slot := by
  induction threads with
  | nil state => cases listed
  | @cons point rest middle last ended threads ih =>
      rcases List.mem_cons.mp listed with rfl | later
      · refine threads.kept ?_ (behind middle ended)
        intro other _ last ended bound
        exact other.bound_last ended bound
      · exact ih later

theorem Point.Declares.bound_last (declares : point.Declares slot)
    (ended : point.last? = some last) : last.Bound slot := by
  cases point with
  | exec context fuel command state =>
      obtain ⟨_, flow, after, done, bound⟩ := declares
      rw [last?, done] at ended
      cases ended
      exact bound
  | _ => cases declares

theorem Point.Assigns.bound_last (assigns : point.Assigns slot) (ended : point.last? = some last) :
    last.Bound slot := by
  unfold Assigns at assigns
  split at assigns
  · obtain ⟨_, written, after, done, bound⟩ := assigns
    rw [last?, done] at ended
    cases ended
    exact bound
  · cases assigns

theorem Point.bound_of_history {made : Point}
    (behind : ∀ last, made.last? = some last → last.Bound slot)
    (listed : made ∈ point.history slot.region) (ended : point.last? = some last) :
    last.Bound slot := by
  revert listed
  refine @Point.end_induction (fun point last => made ∈ point.history slot.region →
    last.Bound slot) ?_ ?_ point last ended
  · intro point before last ended same each threads changes listed
    rcases mem_history_cases listed with rfl | ⟨next, inside, within⟩
    · exact behind last ended
    · rw [same] at inside
      refine changes.bound (threads.bound inside ?_)
      intro last ended
      exact each next inside last ended within
  · intro context fuel id args state function body inner last entered ended holds leaves listed
    rcases mem_history_cases listed with rfl | ⟨next, inside, within⟩
    · exact behind last ended
    · rw [leaves.bound_iff]
      split
      · have called := mem_calls_of_mem_inner inside
        rw [calls_of_enter entered, List.mem_singleton] at called
        rw [called] at within
        exact holds within
      · rename_i own
        have activation : slot.region = .activation := by
          cases region : slot.region with
          | global => exact absurd region own
          | activation => rfl
        rw [activation] at inside
        cases inside

theorem locate_whole {context : Context} {fuel : Nat} {place : Place} {between : State}
    (found : locate context fuel place state = .done (.whole slot) between) :
    place = .whole slot ∧ between = state := by
  cases fuel with
  | zero => cases found
  | succ fuel =>
      cases place with
      | scalar other => cases found
      | whole other =>
          cases found
          exact ⟨rfl, rfl⟩
      | field owner index =>
          rw [locate, fieldLocation_eq] at found
          split at found <;> cases found
      | element array index =>
          rw [locate] at found
          cases evaluated : eval context fuel index state with
          | done value middle =>
              rw [bind_of_done evaluated, elementLocation_eq] at found
              split at found
              · split at found <;> cases found
              · cases found
          | failed failure middle =>
              rw [bind_of_failed evaluated] at found
              cases found
          | exhausted =>
              simp only [Bind.bind, Step.bind, evaluated] at found
              cases found

/-- Where neither a declaration nor an assignment has come to its end, a free slot stays free. -/
theorem Point.Changes.free (changes : point.Changes before last) (declares : ¬point.Declares slot)
    (assigns : ¬point.Assigns slot) (free : ¬before.Bound slot) : ¬last.Bound slot := by
  intro bound
  have unchanged (same : last.reference? slot = before.reference? slot) : False := by
    unfold State.Bound at bound
    rw [same] at bound
    exact free bound
  -- a reference that was put in another slot leaves this one free
  have declared {context : Context} {fuel : Nat} {command : Command} {state middle : State}
      {here : Slot} {value : Value} (is : point = .exec context fuel command state)
      (text : command.declares here = true)
      (done : Machine.exec context fuel command state = .done .normal last)
      (kept : middle.reference? slot = before.reference? slot)
      (put : last = middle.setReference here value) : False := by
    by_cases same : slot = here
    · subst same is
      exact declares ⟨text, .normal, last, done, bound⟩
    · refine unchanged ?_
      rw [put, State.reference?_setReference, if_neg same, kept]
  cases changes with
  | none _ => exact free bound
  | copy _ => exact free bound
  | invoke _ ended =>
      rw [invoke_last? ended] at bound
      exact free bound
  | @assign _ _ _ _ _ _ _ _ _ _ _ _ written found evaluated stored =>
      rcases store_reference? stored slot with same | ⟨whole, _⟩
      · exact unchanged same
      · subst whole
        obtain ⟨rfl, rfl⟩ := locate_whole found
        refine assigns ⟨rfl, written, last, ?_, bound⟩
        rw [Machine.eval, bind_of_done found, bind_of_done evaluated]
        exact stored
  | @update context fuel _ _ _ _ _ rhs _ _ between _ _ _ _ _ _ found loaded evaluated stored =>
      rcases store_reference? stored slot with same | ⟨whole, _⟩
      · exact unchanged same
      · subst whole
        -- what is updated was read before
        have readBound : between.Bound slot := by
          unfold State.Bound
          rw [load, reference_eq] at loaded
          split at loaded
          · rename_i here
            rw [here]
            rfl
          · cases loaded
        have ended : (Point.eval context fuel rhs between).last? = some before := by
          rw [last?, evaluated]
          rfl
        exact free (bound_last ended readBound)
  | @newArray context fuel count here kind length size state _ evaluated created =>
      refine declared rfl (decide_eq_true rfl) ?_ ?_ rfl
      · rw [Machine.exec, bind_of_done evaluated, bind_of_done created]
        rfl
      · rfl
  | newStruct =>
      refine declared rfl (decide_eq_true rfl) ?_ ?_ rfl
      · rw [Machine.exec]
        rfl
      · rfl
  | bind evaluated =>
      refine declared rfl (decide_eq_true rfl) ?_ rfl rfl
      rw [Machine.exec, bind_of_done evaluated]
      rfl

theorem Point.free_last (ended : point.last? = some last)
    (nothing : ∀ other ∈ point.history slot.region, ¬other.Declares slot ∧ ¬other.Assigns slot)
    (free : ¬point.state.Bound slot) : ¬last.Bound slot := by
  revert nothing free
  refine @Point.end_induction (fun point last =>
    (∀ other ∈ point.history slot.region, ¬other.Declares slot ∧ ¬other.Assigns slot) →
      ¬point.state.Bound slot → ¬last.Bound slot) ?_ ?_ point last ended
  · intro point before last _ same each threads changes nothing free
    obtain ⟨declares, assigns⟩ := nothing point (mem_history_self _ point)
    refine changes.free declares assigns ?_
    refine @Threads.kept (fun state => ¬state.Bound slot) _ _ _ threads ?_ free
    intro next called last ended
    refine each next called last ended ?_
    intro other within
    rw [← same slot.region] at called
    exact nothing other (mem_history_of_mem_inner called within)
  · intro context fuel id args state function body inner last entered _ holds leaves nothing free
    rw [leaves.bound_iff]
    split
    · rename_i global
      refine holds ?_ ?_
      · intro other within
        refine nothing other (mem_history_of_mem_inner ?_ within)
        rw [global]
        change _ ∈ (call context (fuel + 1) id args state).calls
        rw [calls_of_enter entered]
        exact List.mem_cons_self
      · unfold State.Bound State.reference? at free ⊢
        rw [global] at free ⊢
        exact free
    · exact free

/-! ### Where a run stands -/

/-- The calls in the same frame start with the reference that the point starts with. -/
theorem Point.inner_starts {next : Point} {earlier behind : List Point}
    (split : point.inner slot.region = earlier ++ next :: behind) :
    ∃ start : State, start.reference? slot = point.state.reference? slot ∧
      Threads start earlier next.state := by
  cases isCall : point.isCall with
  | false =>
      rw [inner_eq_calls isCall] at split
      exact ⟨point.state, rfl, (runs isCall).starts earlier next behind split⟩
  | true =>
      have listed : next ∈ point.inner slot.region := by
        rw [split]
        exact List.mem_append_right _ List.mem_cons_self
      have called := mem_calls_of_mem_inner listed
      obtain ⟨only, _, function, args, start⟩ := entered_of_call isCall called
      cases region : slot.region with
      | activation =>
          rw [region] at listed
          simp only [inner, isCall, if_true] at listed
          cases listed
      | global =>
          rw [region] at split
          change point.calls = _ at split
          rw [only] at split
          cases earlier with
          | nil =>
              refine ⟨next.state, ?_, .nil _⟩
              rw [start, State.reference?, State.reference?, region]
              rfl
          | cons first rest => cases rest <;> cases split

private theorem State.entered_free {function : Function} {args : List Value}
    (own : slot.region = .activation) : ¬(state.entered function args).Bound slot := by
  unfold Bound reference?
  rw [own]
  change ¬((Frame.new function.layout args).reference? slot.index).isSome = true
  rw [Frame.reference?_new]
  exact Bool.false_ne_true

namespace Point.Reaches

variable {earlier : List Point}

/-- A slot is still free where the run has neither declared it nor assigned to it. -/
theorem free (reached : Reaches slot.region points earlier point)
    (starts : ∀ before point behind, points = before ++ point :: behind →
      Threads state before point.state)
    (nothing : ∀ other ∈ earlier, ¬other.Declares slot ∧ ¬other.Assigns slot)
    (unset : ¬state.Bound slot) : ¬point.state.Bound slot := by
  have along {start last : State} {before : List Point} (threads : Threads start before last)
      (nothing : ∀ other ∈ before.flatMap (history slot.region),
        ¬other.Declares slot ∧ ¬other.Assigns slot)
      (free : ¬start.Bound slot) : ¬last.Bound slot := by
    refine @Threads.kept (fun state => ¬state.Bound slot) _ _ _ threads ?_ free
    intro next listed last ended
    refine next.free_last ended ?_
    intro other within
    exact nothing other (List.mem_flatMap.mpr ⟨next, listed, within⟩)
  induction reached with
  | first split => exact along (starts _ _ _ split) nothing unset
  | inner _ split ih =>
      obtain ⟨start, same, threads⟩ := inner_starts split
      refine along threads (fun other within => nothing other (List.mem_append_right _ within)) ?_
      unfold State.Bound
      rw [same]
      exact ih fun other within => nothing other (List.mem_append_left _ within)
  | enters own isCall _ called ih =>
      obtain ⟨_, _, function, args, start⟩ := entered_of_call isCall called
      rw [start]
      exact State.entered_free own

theorem bound {made : Point} (reached : Reaches slot.region points earlier point)
    (starts : ∀ before point behind, points = before ++ point :: behind →
      Threads state before point.state)
    (behind : ∀ last, made.last? = some last → last.Bound slot) (listed : made ∈ earlier) :
    point.state.Bound slot := by
  have among {start last : State} {before : List Point} (threads : Threads start before last)
      (listed : made ∈ before.flatMap (history slot.region)) : last.Bound slot := by
    obtain ⟨next, called, within⟩ := List.mem_flatMap.mp listed
    refine threads.bound called ?_
    intro last ended
    exact bound_of_history behind within ended
  induction reached with
  | first split => exact among (starts _ _ _ split) listed
  | inner _ split ih =>
      obtain ⟨start, same, threads⟩ := inner_starts split
      rcases List.mem_append.mp listed with outer | here
      · refine threads.kept (fun other _ last ended => other.bound_last ended) ?_
        unfold State.Bound
        rw [same]
        exact ih outer
      · exact among threads here
  | enters _ _ _ _ _ => cases listed

end Point.Reaches

end Machine

end MiniC
