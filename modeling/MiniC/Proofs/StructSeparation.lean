import MiniC.Proofs.Soundness.Structs

/-!
Structs are values.

While the global variables are declared, a function may assign to one whose
declaration is still to come, and so make two of them share a struct. Every
declaration that runs takes its variable out of this, and once all have run no
two variables share a struct again, whatever the functions do that are active.
So a write to one variable leaves the fields of all others as they are.
-/

namespace MiniC

open Lowering Machine Typing Soundness

variable {program : Program} {globals : Variables} {structs declared : Nat → Prop}
  {context : Machine.Context} {fuel : Nat} {frames : List Frame}

/-- The variable that a command declares counts from then on. -/
theorem exec_separate {command : Command} {state last : Machine.State} {flow : Flow}
    (wellFormed : StructsIn program globals structs)
    (ready : Ready .anything program globals (.exec context fuel command state))
    (obeys : (Point.exec context fuel command state).Obeys program (Command.Declaring structs))
    (separate : Separate structs declared frames state)
    (done : exec context fuel command state = .done flow last) :
    Separate structs
      (fun index => declared index ∨
        ∃ name members, command = .newStruct ⟨.global, index⟩ name members)
      frames last := by
  have ended : (Point.exec context fuel command state).last? = some last := by
    rw [Point.last?, done]
    rfl
  cases command with
  | newStruct slot name members =>
      cases fuel with
      | zero => cases done
      | succ fuel =>
          obtain rfl : state.allocated slot (·.newStruct name members) = last := by
            cases done
            rfl
          cases ready with
          | exec here typed =>
              cases typed with
              | newStruct object _ has _ =>
                  obtain ⟨value, size⟩ := @newStruct_eq state.world.heap name members object
                  have new : ∀ address, (state.world.heap.newStruct name members).1 =
                      .struct address → state.world.heap.size ≤ address ∧
                        address < (state.world.heap.newStruct name members).2.size := by
                    intro address same
                    cases value.symm.trans same
                    rw [size]
                    exact ⟨Nat.le_refl _, Nat.lt_succ_self _⟩
                  refine And.left (separate.put ?_ ?_ ?_ ?_ (fun _ => rfl) ?_ ?_)
                  · exact fun _ _ global _ => obeys.struct_listed (decide_eq_true rfl) global
                  · rintro index (known | ⟨_, _, same⟩)
                    · exact Or.inl known
                    · cases same
                      exact Or.inr (State.bound_setReference _ (here.typed.lt_size has))
                  · intro holder counts other
                    cases holder with
                    | active depth index => trivial
                    | global index =>
                        rcases counts with known | ⟨_, _, same⟩
                        · exact known
                        · cases same
                          exact absurd rfl other
                  · intro _ address same
                    exact (new address same).1
                  · change _ ≤ (state.world.heap.newStruct name members).2.size
                    rw [size]
                    exact Nat.le_succ _
                  · intro address same
                    exact (new address same).2
  | _ =>
      refine (ready.renews wellFormed obeys separate ended).separate.mono ?_
      rintro index (known | ⟨_, _, impossible⟩)
      · exact known
      · cases impossible

private theorem execInit_separate {commands : List Command} {state start : Machine.State}
    (wellFormed : StructsIn program globals structs)
    (ready : ∀ point ∈ initPoints context fuel commands state,
      Ready .anything program globals point)
    (obeys : Point.AllObey program (Command.Declaring structs)
      (initPoints context fuel commands state))
    (separate : Separate structs declared frames state)
    (done : execInit context fuel commands state = .done () start) :
    Separate structs
      (fun index => declared index ∨
        ∃ name members, .newStruct ⟨.global, index⟩ name members ∈ commands)
      frames start := by
  induction commands generalizing state declared with
  | nil =>
      cases done
      refine separate.mono ?_
      rintro index (known | ⟨_, _, impossible⟩)
      · exact known
      · cases impossible
  | cons first rest ih =>
      rw [execInit] at done
      rw [initPoints] at ready obeys
      have here : Point.exec context fuel first state ∈ [Point.exec context fuel first state] ++
          after (exec context fuel first state) fun _ state => initPoints context fuel rest state :=
        List.mem_append_left _ List.mem_cons_self
      cases executed : exec context fuel first state with
      | failed failure middle =>
          rw [bind_of_failed executed] at done
          cases done
      | exhausted =>
          simp only [Bind.bind, Step.bind, executed] at done
          cases done
      | done flow middle =>
          rw [bind_of_done executed] at done
          have declaredHere :=
            exec_separate wellFormed (ready _ here) (obeys _ here) separate executed
          rw [executed] at ready obeys
          have behind := ih (fun point listed => ready point (List.mem_append_right _ listed))
            (fun point listed => obeys point (List.mem_append_right _ listed)) declaredHere done
          refine behind.mono ?_
          rintro index (known | ⟨name, members, listed⟩)
          · exact Or.inl (Or.inl known)
          · rcases List.mem_cons.mp listed with is | later
            · exact Or.inl (Or.inr ⟨name, members, is.symm⟩)
            · exact Or.inr ⟨name, members, later⟩

private theorem initial_separate {world : World} :
    Separate structs (fun _ => False) [] (.initial program world) := by
  have empty {holder : Holder} {value : Value} :
      (Machine.State.initial program world).held? [] holder ≠ some value := by
    intro held
    cases holder with
    | global index =>
        change (Frame.new program.globals []).reference? index = some value at held
        rw [Frame.reference?_new] at held
        cases held
    | active depth index => cases depth <;> cases held
  refine ⟨?_, fun _ impossible => impossible.elim, ?_, ?_⟩
  · intro index address held
    exact absurd held empty
  · intro holder address _ held
    exact absurd held empty
  · intro first second address _ _ held
    exact absurd held empty

/-- A point that a run comes to when all the global variables are declared. -/
structure Stands (program : Program) (globals : Variables) (structs : Nat → Prop)
    (frames : List Frame) (point : Point) : Prop where
  ready : Ready .anything program globals point
  obeys : point.Obeys program (Command.Declaring structs)
  separate : Separate structs structs frames point.state

namespace Stands

variable {point next first : Point} {state before last : Machine.State}

theorem renews (wellFormed : StructsIn program globals structs)
    (stands : Stands program globals structs frames point) (ended : point.last? = some last) :
    Renews structs structs frames point.state last :=
  stands.ready.renews wellFormed stands.obeys stands.separate ended

theorem threads {earlier : List Point} (wellFormed : StructsIn program globals structs)
    (stands : Stands program globals structs frames point)
    (called : ∀ next ∈ earlier, next ∈ point.calls) (threads : Threads point.state earlier state) :
    Separate structs structs frames state := by
  have ready := stands.ready.calls wellFormed.typed (clean_anything point)
  have obeys := stands.obeys.calls fun _ => wellFormed.bodies
  refine threads.kept ?_ stands.separate
  intro next listed last ended separate
  have here := called next listed
  exact ((ready next here).renews wellFormed (obeys next here) separate ended).separate

theorem inner (wellFormed : StructsIn program globals structs)
    (stands : Stands program globals structs frames point) (other : point.isCall = false)
    (called : next ∈ point.calls) : Stands program globals structs frames next := by
  refine ⟨stands.ready.calls wellFormed.typed (clean_anything point) next called,
    stands.obeys.calls (fun _ => wellFormed.bodies) next called, ?_⟩
  obtain ⟨earlier, behind, split⟩ := List.append_of_mem called
  refine stands.threads wellFormed ?_ ((Point.runs other).starts earlier next behind split)
  intro early listed
  rw [split]
  exact List.mem_append_left _ listed

theorem enters (wellFormed : StructsIn program globals structs)
    (stands : Stands program globals structs frames point) (isCall : point.isCall = true)
    (called : next ∈ point.calls) :
    Stands program globals structs (point.state.locals :: frames) next := by
  refine ⟨stands.ready.calls wellFormed.typed (clean_anything point) next called,
    stands.obeys.calls (fun _ => wellFormed.bodies) next called, ?_⟩
  obtain ⟨_, _, function, args, start⟩ := Point.entered_of_call isCall called
  rw [start]
  exact stands.separate.enter function args

theorem active (wellFormed : StructsIn program globals structs)
    (stands : Stands program globals structs [] first) (active : first.Active frames point) :
    Stands program globals structs frames point := by
  induction active with
  | here => exact stands
  | inner _ other called ih => exact ih.inner wellFormed other called
  | enters _ isCall called ih => exact ih.enters wellFormed isCall called

end Stands

/-- The struct variable that a point writes to: a field of it, or all of them. -/
def Machine.Point.writes? : Point → Option Slot
  | .eval _ _ (.mk _ _ (.assign (.field slot _) _)) _ => some slot
  | .eval _ _ (.mk _ _ (.assign (.whole slot) _)) _ => some slot
  | .eval _ _ (.mk _ _ (.update (.field slot _) _ _ _ _)) _ => some slot
  | _ => none

private theorem Machine.locate_field {slot : Slot} {index : Nat} {location : Location}
    {state between : Machine.State}
    (found : locate context fuel (.field slot index) state = .done location between) :
    ∃ address, location = .field address index ∧ between = state ∧
      state.reference? slot = some (.struct address) := by
  cases fuel with
  | zero => cases found
  | succ fuel =>
      rw [locate, fieldLocation_eq] at found
      split at found
      · rename_i address held
        cases found
        exact ⟨address, rfl, rfl, held⟩
      · cases found

private theorem Stands.write_field {slot : Slot} {address : Address} {index : Nat}
    {operand : Term} {state before last : Machine.State} {result value written : Value}
    {reader : Holder} (wellFormed : StructsIn program globals structs)
    (stands : Stands program globals structs frames (.eval context fuel operand state))
    (held : state.reference? slot = some (.struct address))
    (evaluated : eval context fuel operand state = .done result before)
    (stored : store (.field address index) value before = .done written last)
    (other : reader ≠ holderOf slot) :
    last.fields? frames reader = before.fields? frames reader := by
  have ended : (Point.eval context fuel operand state).last? = some before := by
    rw [Point.last?, evaluated]
    rfl
  have renews := stands.renews wellFormed ended
  cases stored
  refine fields?_setCell ?_
  intro sharing
  -- the struct was looked up before the operand was evaluated; what another variable refers to
  -- behind it is either what that variable referred to before, or new
  have heldBefore : state.held? frames (holderOf slot) = some (.struct address) := by
    rw [held?_holderOf]
    exact held
  exact other (renews.eq_of_held? stands.separate (stands.separate.counts heldBefore)
    (renews.separate.counts sharing) heldBefore sharing).symm

private theorem store_whole_fields {slot : Slot} {before last : Machine.State}
    {value written : Value}
    {reader : Holder} (separate : Separate structs structs frames before)
    (stored : store (.whole slot) value before = .done written last)
    (other : reader ≠ holderOf slot) :
    last.fields? frames reader = before.fields? frames reader := by
  rw [store_whole] at stored
  split at stored
  · rename_i source target held
    cases stored
    refine fields?_copyFields ?_
    intro sharing
    rw [← held?_holderOf before frames slot] at held
    exact other (separate.distinct reader (holderOf slot) target (separate.counts sharing)
      (separate.counts held) sharing held)
  · cases stored
    refine fields?_congr (held?_setReference_of_ne other) ?_
    intro address _
    rw [State.setReference_world]

theorem Stands.write {point : Point} {slot : Slot} {before last : Machine.State} {reader : Holder}
    (wellFormed : StructsIn program globals structs)
    (stands : Stands program globals structs frames point)
    (separate : Separate structs structs frames before) (writes : point.writes? = some slot)
    (changes : point.Changes before last) (other : reader ≠ holderOf slot) :
    last.fields? frames reader = before.fields? frames reader := by
  cases changes with
  | none _ => rfl
  | @assign context fuel ty span place term state between _ _ location result written found
      evaluated stored =>
      cases place with
      | scalar _ => cases writes
      | element _ _ => cases writes
      | field owner index =>
          cases writes
          obtain ⟨address, rfl, rfl, held⟩ := locate_field found
          have called : Point.eval context fuel term between ∈
              (Point.eval context (fuel + 1) (.mk ty span (.assign (.field slot index) term))
                between).calls := by
            refine List.mem_append_right _ ?_
            rw [found]
            exact List.mem_cons_self
          exact (stands.inner wellFormed rfl called).write_field wellFormed held evaluated stored
            other
      | whole owner =>
          cases writes
          have whole : location = .whole slot := by
            cases fuel <;> cases found
            rfl
          subst whole
          exact store_whole_fields separate stored other
  | @update context fuel ty span place fn operand rhs yieldsOld state between _ _ location old
      result written found loaded evaluated stored =>
      cases place with
      | scalar _ => cases writes
      | element _ _ => cases writes
      | whole _ => cases writes
      | field owner index =>
          cases writes
          obtain ⟨address, rfl, rfl, held⟩ := locate_field found
          have called : Point.eval context fuel rhs between ∈
              (Point.eval context (fuel + 1)
                (.mk ty span (.update (.field slot index) fn operand rhs yieldsOld))
                between).calls := by
            refine List.mem_append_right _ ?_
            rw [found]
            change _ ∈ after (load (.field address index) between) fun _ state =>
              [Point.eval context fuel rhs state]
            rw [loaded]
            exact List.mem_cons_self
          exact (stands.inner wellFormed rfl called).write_field wellFormed held evaluated stored
            other
  | _ => cases writes

/-! ### Runs -/

private theorem stands_after_init {items : List Item} (accepted : lower items = .ok program)
    {entry : FunctionId} {ret : Ty} (parameterless : program.signature? entry = some ([], ret))
    {limit : Nat} {sink : Sink} {record? : Option WorkRecord} {start : Machine.State}
    (initialised : execInit ⟨program, limit, 0⟩ fuel program.init
      (.initial program ⟨.empty, sink, record?⟩) = .done () start) :
    ∃ globals, StructsIn program globals program.DeclaresStruct ∧
      Stands program globals program.DeclaresStruct []
        (.call ⟨program, limit, 0⟩ fuel entry [] start) := by
  obtain ⟨globals, wellFormed⟩ := lower_structsIn accepted
  have sound : RunSound .anything program globals entry ret fuel limit ⟨.empty, sink, record?⟩ :=
    run_sound wellFormed.typed (fun _ => rfl) (.empty _) parameterless
      (fun _ _ _ _ _ _ => trivial) nofun
  have visits (point : Point)
      (listed : point ∈ runPoints fuel program entry limit ⟨.empty, sink, record?⟩) :
      Ready .anything program globals point :=
    (sound.points point ⟨point, listed, .here point⟩).2
  have called : Point.call ⟨program, limit, 0⟩ fuel entry [] start ∈
      runPoints fuel program entry limit ⟨.empty, sink, record?⟩ := by
    refine List.mem_append_right _ ?_
    rw [initialised]
    exact List.mem_cons_self
  have separate := execInit_separate wellFormed
    (fun point listed => visits point (List.mem_append_left _ listed))
    (initPoints_obey rfl (lower_declaring accepted).1) initial_separate initialised
  exact ⟨globals, wellFormed, visits _ called, .of_term rfl rfl,
    separate.mono fun _ => Or.inr⟩

/-- Once the global declarations of an accepted program have run, no two variables refer to the same
struct, wherever a run of an entry without parameters comes to: at every point, before it and behind
it, with all the functions that are active there. A write to one of them leaves the fields of every
other one as they were. -/
theorem struct_variables_are_separate {items : List Item} (accepted : lower items = .ok program)
    {entry : FunctionId} {ret : Ty} (parameterless : program.signature? entry = some ([], ret))
    {limit : Nat} {sink : Sink} {record? : Option WorkRecord} {start : Machine.State}
    (initialised : execInit ⟨program, limit, 0⟩ fuel program.init
      (.initial program ⟨.empty, sink, record?⟩) = .done () start)
    {point : Point} (within : (Point.call ⟨program, limit, 0⟩ fuel entry [] start).Within point) :
    (∃ frames, (Point.call ⟨program, limit, 0⟩ fuel entry [] start).Active frames point) ∧
    ∀ frames, (Point.call ⟨program, limit, 0⟩ fuel entry [] start).Active frames point →
      (∀ state, state = point.state ∨ point.last? = some state →
        ∀ first second address, state.held? frames first = some (.struct address) →
          state.held? frames second = some (.struct address) → first = second) ∧
      ∀ slot last, point.writes? = some slot → point.last? = some last →
        ∃ before, Threads point.state point.calls before ∧ point.Changes before last ∧
          ∀ reader, reader ≠ holderOf slot →
            last.fields? frames reader = before.fields? frames reader := by
  obtain ⟨globals, wellFormed, start⟩ := stands_after_init accepted parameterless initialised
  refine ⟨Point.Active.here.within within, ?_⟩
  intro frames active
  have stands := start.active wellFormed active
  constructor
  · have distinct {state : Machine.State}
        (separate : Separate program.DeclaresStruct program.DeclaresStruct frames state)
        (first second : Holder) (address : Address)
        (firstHeld : state.held? frames first = some (.struct address))
        (secondHeld : state.held? frames second = some (.struct address)) : first = second :=
      separate.distinct first second address (separate.counts firstHeld)
        (separate.counts secondHeld) firstHeld secondHeld
    rintro state (rfl | ended)
    · exact distinct stands.separate
    · exact distinct (stands.renews wellFormed ended).separate
  · intro slot last writes ended
    have other : point.isCall = false := by
      cases point with
      | call => cases writes
      | _ => rfl
    obtain ⟨before, threads, changes⟩ := (Point.runs other).ends last ended
    refine ⟨before, threads, changes, ?_⟩
    intro reader different
    exact stands.write wellFormed (stands.threads wellFormed (fun _ => id) threads) writes changes
      different

/-- A source with two global structs. The second is assigned to before its declaration, by `f`, and
once more in `main`, which then writes to a field of it. -/
def assignedStructs : List Item :=
  let place : Span := ⟨0, 0⟩
  let copied : Stmt := .expr place (.assign place none (.ident place "s") (.ident place "t"))
  let number (value : UInt64) : Expr := .int place ⟨value, false, false, false⟩
  [.declaration ⟨false, .struct (some "S") [.mk .int "x" false place] place,
      [⟨"t", none, none, place⟩], place⟩,
    .function ⟨.int, "f", [], none, place⟩,
    .declaration ⟨false, .int, [⟨"g", none, some (.call place "f" place []), place⟩], place⟩,
    .declaration ⟨false, .named "S", [⟨"s", none, none, place⟩], place⟩,
    .function ⟨.int, "f", [], some [copied, .ret place (some (number 0))], place⟩,
    .function ⟨.int, "main", [],
      some [copied,
        .expr place (.assign place none (.field place (.ident place "s") "x") (number 3)),
        .ret place (some (.field place (.ident place "t") "x"))], place⟩]

def Machine.Outcome.endsIn (check : Machine.State → Bool) : Outcome Unit → Bool
  | .done _ start => check start
  | _ => false

private theorem Machine.Outcome.eq_done_of_endsIn {check : Machine.State → Bool}
    {outcome : Outcome Unit}
    (ends : outcome.endsIn check = true) :
    ∃ start, outcome = .done () start ∧ check start = true := by
  cases outcome with
  | done value start => exact ⟨start, rfl, ends⟩
  | failed failure start => cases ends
  | exhausted => cases ends

theorem assigned_struct_is_separate : ∃ program start point last,
    lower assignedStructs = .ok program ∧
    execInit ⟨program, 10, 0⟩ 20 program.init (.initial program ⟨.empty, .unlimited, none⟩) =
      .done () start ∧
    (Point.call ⟨program, 10, 0⟩ 20 1 [] start).Within point ∧
    point.writes? = some ⟨.global, 1⟩ ∧ point.last? = some last ∧
    ∃ frames before, (Point.call ⟨program, 10, 0⟩ 20 1 [] start).Active frames point ∧
      (∀ first second address, last.held? frames first = some (.struct address) →
        last.held? frames second = some (.struct address) → first = second) ∧
      Threads point.state point.calls before ∧
      (last.fields? frames (.global 0)).isSome = true ∧
      last.fields? frames (.global 0) = before.fields? frames (.global 0) := by
  have checked : ((lower assignedStructs).toOption.any fun program =>
      decide (program.signature? 1 = some ([], .num .i32)) &&
        (execInit ⟨program, 10, 0⟩ 20 program.init
            (.initial program ⟨.empty, .unlimited, none⟩)).endsIn fun start =>
          ((Point.call ⟨program, 10, 0⟩ 20 1 [] start).follow [0, 0, 1, 0, 0]).any fun point =>
            decide (point.writes? = some ⟨.global, 1⟩) &&
              point.last?.any fun last => (last.fields? [] (.global 0)).isSome) = true := by
    decide +kernel
  obtain ⟨program, accepted, holds⟩ := eq_ok_of_any checked
  obtain ⟨parameterless, holds⟩ := Bool.and_eq_true_iff.mp holds
  obtain ⟨start, initialised, runs⟩ := Outcome.eq_done_of_endsIn holds
  obtain ⟨point, followed, here⟩ := (Option.any_eq_true _ _).mp runs
  obtain ⟨writes, ends⟩ := Bool.and_eq_true_iff.mp here
  obtain ⟨last, ended, fields⟩ := (Option.any_eq_true _ _).mp ends
  have within := Point.within_of_follow followed
  obtain ⟨⟨frames, active⟩, separate⟩ := struct_variables_are_separate accepted
    (of_decide_eq_true parameterless) initialised within
  obtain ⟨distinct, written⟩ := separate frames active
  obtain ⟨before, threads, _, others⟩ := written _ last (of_decide_eq_true writes) ended
  exact ⟨program, start, point, last, accepted, initialised, within, of_decide_eq_true writes,
    ended, frames, before, active, distinct last (Or.inr ended), threads, fields,
    others (.global 0) (by decide)⟩

end MiniC
