import MiniC.Compile
import MiniC.Proofs.Lowering.Declarations

/-!
Arrays and structs that are used before their declarations have run.

A function that is called while the global variables are declared may come to
one whose declaration stands further on. Every use of such a variable is caught,
with one exception: an assignment to a whole struct does not look whether there
is a struct to copy into. It binds the slot, and from then on no use is caught.
-/

namespace MiniC

open Lowering Machine

namespace Machine

variable {slot : Slot} {point : Point} {context : Context} {fuel : Nat} {state middle last : State}

inductive LooksUp (slot : Slot) (context : Context) (fuel : Nat) (state : State) :
    Place → State → Prop where
  | whole : LooksUp slot context fuel state (.whole slot) state
  | field (index : Nat) : LooksUp slot context fuel state (.field slot index) state
  | element {index : Term} {value : Value} {middle : State} :
      eval context fuel index state = .done value middle →
      LooksUp slot context fuel state (.element slot index) middle

/-- The evaluation of a term that comes to use the array or struct variable in the slot. -/
inductive Point.Uses (slot : Slot) : Point → Prop where
  | load {context : Context} {fuel : Nat} {state middle : State} {ty : Ty} {span : Span}
      {place : Place} :
      LooksUp slot context fuel state place middle →
      Uses slot (.eval context (fuel + 2) (.mk ty span (.load place)) state)
  | update {context : Context} {fuel : Nat} {state middle : State} {ty : Ty} {span : Span}
      {place : Place} {fn : BinaryFn} {operand : Kind} {rhs : Term} {yieldsOld : Bool} :
      LooksUp slot context fuel state place middle →
      Uses slot (.eval context (fuel + 2) (.mk ty span (.update place fn operand rhs yieldsOld))
        state)
  | assign {context : Context} {fuel : Nat} {state middle : State} {ty : Ty} {span : Span}
      {place : Place} {value : Term} :
      LooksUp slot context fuel state place middle → place ≠ .whole slot →
      Uses slot (.eval context (fuel + 2) (.mk ty span (.assign place value)) state)
  | assignWhole {context : Context} {fuel : Nat} {state middle : State} {ty : Ty} {span : Span}
      {value : Term} {result : Value} :
      Machine.eval context (fuel + 1) value state = .done result middle →
      Uses slot (.eval context (fuel + 2) (.mk ty span (.assign (.whole slot) value)) state)

def Point.overwrites (slot : Slot) : Point → Bool
  | .eval _ _ (.mk _ _ (.assign (.whole other) _)) _ => other = slot
  | _ => false

/-- The use is refused, and the slot is left free. -/
def Point.Caught (slot : Slot) : Point → Prop
  | .eval context fuel term state => ∃ last,
      Machine.eval context fuel term state = .failed ⟨.uninitialized, []⟩ last ∧ ¬last.Bound slot
  | _ => False

theorem LooksUp.free {place : Place} (looksUp : LooksUp slot context fuel state place middle)
    (nothing : ∀ other ∈ (Point.locate context (fuel + 1) place state).history slot.region,
      ¬other.Declares slot ∧ ¬other.Assigns slot)
    (free : ¬state.Bound slot) : ¬middle.Bound slot := by
  cases looksUp with
  | whole => exact free
  | field index => exact free
  | @element index value _ evaluated =>
      have ended : (Point.eval context fuel index state).last? = some middle := by
        rw [Point.last?, evaluated]
        rfl
      refine Point.free_last ended ?_ free
      intro other within
      refine nothing other (Point.mem_history_of_mem_inner ?_ within)
      rw [Point.inner_eq_calls rfl]
      exact List.mem_cons_self

private theorem LooksUp.locate_eq {place : Place}
    (looksUp : LooksUp slot context fuel state place middle)
    (free : ¬middle.Bound slot) :
    place = .whole slot ∧ middle = state ∨
      locate context (fuel + 1) place state = .failed ⟨.uninitialized, []⟩ middle := by
  have unbound : middle.reference? slot = none := Option.not_isSome_iff_eq_none.mp free
  cases looksUp with
  | whole => exact Or.inl ⟨rfl, rfl⟩
  | field index =>
      refine Or.inr ?_
      rw [locate, fieldLocation_eq, unbound]
  | element evaluated =>
      refine Or.inr ?_
      rw [locate, bind_of_done evaluated, elementLocation_eq, unbound]

private theorem load_whole_free (free : ¬state.Bound slot) :
    load (.whole slot) state = .failed ⟨.uninitialized, []⟩ state := by
  have unbound : state.reference? slot = none := Option.not_isSome_iff_eq_none.mp free
  rw [load, reference_eq, unbound]

theorem Point.Uses.caught (uses : point.Uses slot) (plain : point.overwrites slot = false)
    (nothing : ∀ other ∈ point.history slot.region, ¬other.Declares slot ∧ ¬other.Assigns slot)
    (free : ¬point.state.Bound slot) : point.Caught slot := by
  have located {context : Context} {fuel : Nat} {place : Place} {state : State}
      (called : Point.locate context (fuel + 1) place state ∈ point.inner slot.region)
      (other : Point) (within : other ∈ (Point.locate context (fuel + 1) place state).history slot.region) :
      ¬other.Declares slot ∧ ¬other.Assigns slot :=
    nothing other (mem_history_of_mem_inner called within)
  cases uses with
  | @load context fuel state middle ty span place looksUp =>
      have middleFree : ¬middle.Bound slot := by
        refine looksUp.free (located ?_) free
        rw [inner_eq_calls rfl]
        exact List.mem_cons_self
      refine ⟨middle, ?_, middleFree⟩
      rw [Machine.eval]
      rcases looksUp.locate_eq middleFree with ⟨rfl, rfl⟩ | failed
      · exact load_whole_free middleFree
      · exact bind_of_failed failed
  | @update context fuel state middle ty span place fn operand rhs yieldsOld looksUp =>
      have middleFree : ¬middle.Bound slot := by
        refine looksUp.free (located ?_) free
        rw [inner_eq_calls rfl]
        exact List.mem_cons_self
      refine ⟨middle, ?_, middleFree⟩
      rw [Machine.eval]
      rcases looksUp.locate_eq middleFree with ⟨rfl, rfl⟩ | failed
      · have found : Machine.locate context (fuel + 1) (.whole slot) middle =
            .done (.whole slot) middle := rfl
        rw [bind_of_done found]
        exact bind_of_failed (load_whole_free middleFree)
      · exact bind_of_failed failed
  | @assign context fuel state middle ty span place value looksUp partly =>
      have middleFree : ¬middle.Bound slot := by
        refine looksUp.free (located ?_) free
        rw [inner_eq_calls rfl]
        exact List.mem_cons_self
      refine ⟨middle, ?_, middleFree⟩
      rw [Machine.eval]
      rcases looksUp.locate_eq middleFree with ⟨whole, _⟩ | failed
      · exact absurd whole partly
      · exact bind_of_failed failed
  | assignWhole evaluated =>
      unfold overwrites at plain
      simp only [decide_true, Bool.true_eq_false] at plain

theorem Point.Caught.last_free (caught : point.Caught slot) :
    ∃ last, point.last? = some last ∧ ¬last.Bound slot := by
  cases point with
  | eval context fuel term state =>
      obtain ⟨last, failed, free⟩ := caught
      refine ⟨last, ?_, free⟩
      rw [last?, failed]
      rfl
  | _ => cases caught

theorem Point.Uses.overwrites_eq (uses : point.Uses slot) (caught : point.Caught slot) :
    point.overwrites slot = false := by
  cases uses with
  | load _ => rfl
  | update _ => rfl
  | @assign _ _ _ _ _ _ place _ looksUp partly =>
      cases looksUp with
      | whole => exact absurd rfl partly
      | field _ => rfl
      | element _ => rfl
  | @assignWhole context fuel state middle ty span value result evaluated =>
      obtain ⟨last, failed, _⟩ := caught
      obtain ⟨written, after, stored⟩ := store_eq_done (.whole slot) result middle
      have found : Machine.locate context (fuel + 1) (.whole slot) state =
          .done (.whole slot) state := rfl
      rw [Machine.eval, bind_of_done found, bind_of_done evaluated, stored] at failed
      cases failed

theorem State.initial_free {program : Program} {world : World} :
    ¬(State.initial program world).Bound slot := by
  obtain ⟨region, index⟩ := slot
  unfold State.Bound
  cases region with
  | global =>
      change ¬((Frame.new program.globals []).reference? index).isSome = true
      rw [Frame.reference?_new]
      exact Bool.false_ne_true
  | activation => exact Bool.false_ne_true

end Machine

/-! ### Runs -/

/-- The evaluation of a term declares nothing in its own activation, and no global variable. -/
theorem uses_declare_nothing {items : List Item} {program : Program}
    (accepted : lower items = .ok program) {slot : Slot} {point : Point}
    (same : point.context.program = program) (uses : point.Uses slot) :
    ∀ other ∈ point.history slot.region, ¬other.Declares slot := by
  intro other listed declares
  have obeys : point.Obeys program fun command => command.declares slot = false := by
    refine .of_term same ?_
    cases uses <;> rfl
  have allowed := (obeys.history (lower_bodies_declare_own accepted) listed).allowed
  cases other with
  | exec context fuel command state =>
      have never : command.declares slot = false :=
        allowed command List.mem_cons_self command (.self command)
      rw [declares.1] at never
      cases never
  | _ => cases declares

/-- A term of an accepted program that comes to use an array or struct whose declaration has not run
is refused, and leaves the slot free, just if it is no assignment to the whole variable and none has
been made before. -/
theorem early_use_caught_iff {items : List Item} {program : Program}
    (accepted : lower items = .ok program) {fuel limit : Nat} {entry : FunctionId} {world : World}
    {slot : Slot} {point : Point} (visited : Visits fuel program entry limit world point)
    (uses : point.Uses slot) :
    (∃ earlier,
      Point.Reaches slot.region (runPoints fuel program entry limit world) earlier point) ∧
    ∀ earlier,
      Point.Reaches slot.region (runPoints fuel program entry limit world) earlier point →
      (∀ other ∈ earlier, ¬other.Declares slot) →
      (point.Caught slot ↔ point.overwrites slot = false ∧
        ∀ other ∈ earlier ++ point.history slot.region, ¬other.Assigns slot) := by
  refine ⟨visited.reaches slot.region, ?_⟩
  intro earlier reached undeclared
  have anyProgram : point.Obeys program fun _ => True :=
    visited.obeys (fun _ _ _ _ => trivial) (fun _ _ _ _ _ _ _ => trivial)
  have undeclaredHere := uses_declare_nothing accepted anyProgram.program_eq uses
  constructor
  · intro caught
    refine ⟨uses.overwrites_eq caught, ?_⟩
    intro other listed assigns
    obtain ⟨last, ended, free⟩ := caught.last_free
    have behind : ∀ last, other.last? = some last → last.Bound slot :=
      fun _ => assigns.bound_last
    rcases List.mem_append.mp listed with before | here
    · have boundHere := reached.bound (fun _ _ _ => runPoints_starts) behind before
      exact free (point.bound_last ended boundHere)
    · exact free (Point.bound_of_history behind here ended)
  · rintro ⟨plain, unassigned⟩
    have free : ¬point.state.Bound slot := by
      refine reached.free (fun _ _ _ => runPoints_starts) ?_ State.initial_free
      intro other listed
      exact ⟨undeclared other listed, unassigned other (List.mem_append_left _ listed)⟩
    refine uses.caught plain ?_ free
    intro other listed
    exact ⟨undeclaredHere other listed, unassigned other (List.mem_append_right _ listed)⟩

/-- A source with two global structs, of which the second is declared behind a variable that a call
of `f` initialises. -/
def structsAround (body : List Stmt) : List Item :=
  let place : Span := ⟨0, 0⟩
  [.declaration ⟨false, .struct (some "S") [.mk .int "x" false place] place,
      [⟨"t", none, none, place⟩], place⟩,
    .function ⟨.int, "f", [], none, place⟩,
    .declaration ⟨false, .int, [⟨"g", none, some (.call place "f" place []), place⟩], place⟩,
    .declaration ⟨false, .named "S", [⟨"s", none, none, place⟩], place⟩,
    .function ⟨.int, "f", [], some body, place⟩,
    .function ⟨.int, "main", [], some [.ret place (some (.ident place "g"))], place⟩]

/-- Here `f` reads a field of the second struct. -/
def earlyRead : List Item :=
  structsAround [.ret ⟨0, 0⟩ (some (.field ⟨0, 0⟩ (.ident ⟨0, 0⟩ "s") "x"))]

/-- Here `f` assigns the first struct to the second. -/
def earlyAssignment : List Item :=
  structsAround [.expr ⟨0, 0⟩ (.assign ⟨0, 0⟩ none (.ident ⟨0, 0⟩ "s") (.ident ⟨0, 0⟩ "t")),
    .ret ⟨0, 0⟩ (some (.int ⟨0, 0⟩ ⟨3, false, false, false⟩))]

def Machine.Point.usesFree (slot : Slot) : Point → Bool
  | .eval context (fuel + 2) (.mk _ _ node) state =>
      (state.reference? slot).isNone &&
        match node with
        | .load (.field other _) => other = slot
        | .assign (.whole other) value =>
            other = slot &&
              match Machine.eval context (fuel + 1) value state with
              | .done _ _ => true
              | _ => false
        | _ => false
  | _ => false

private theorem Machine.Point.uses_of_usesFree {slot : Slot} {point : Point}
    (checked : point.usesFree slot = true) : point.Uses slot ∧ ¬point.state.Bound slot := by
  unfold usesFree at checked
  split at checked
  · rename_i context fuel ty span node state
    obtain ⟨unbound, used⟩ := Bool.and_eq_true_iff.mp checked
    have free : ¬state.Bound slot :=
      Option.not_isSome_iff_eq_none.mpr (Option.isNone_iff_eq_none.mp unbound)
    split at used
    · cases of_decide_eq_true used
      exact ⟨.load (.field _), free⟩
    · obtain ⟨same, evaluates⟩ := Bool.and_eq_true_iff.mp used
      cases of_decide_eq_true same
      split at evaluates
      · rename_i result middle evaluated
        exact ⟨.assignWhole evaluated, free⟩
      · cases evaluates
    · cases used
  · cases checked

private theorem Machine.Point.Reaches.none_before {program : Program} {fuel limit : Nat}
    {entry : FunctionId} {world : World} {slot : Slot} {earlier : List Point} {point : Point}
    (reached : Reaches slot.region (runPoints fuel program entry limit world) earlier point)
    (free : ¬point.state.Bound slot) :
    ∀ other ∈ earlier, ¬other.Declares slot ∧ ¬other.Assigns slot := by
  intro other listed
  constructor
  · intro declares
    exact free (reached.bound (fun _ _ _ => runPoints_starts) (fun _ => declares.bound_last) listed)
  · intro assigns
    exact free (reached.bound (fun _ _ _ => runPoints_starts) (fun _ => assigns.bound_last) listed)

theorem early_read_is_caught : ∃ program point earlier, lower earlyRead = .ok program ∧
    Visits 20 program 1 10 ⟨.empty, .unlimited, none⟩ point ∧ point.Uses ⟨.global, 1⟩ ∧
    Point.Reaches .global (runPoints 20 program 1 10 ⟨.empty, .unlimited, none⟩) earlier point ∧
    (∀ other ∈ earlier, ¬other.Declares ⟨.global, 1⟩) ∧ point.Caught ⟨.global, 1⟩ := by
  have checked : ((lower earlyRead).toOption.any fun program =>
        (runPoints 20 program 1 10 ⟨.empty, .unlimited, none⟩).any fun first =>
          (first.follow [0, 1, 1, 0, 0, 0, 0]).any fun point =>
            point.usesFree ⟨.global, 1⟩ && !point.overwrites ⟨.global, 1⟩ &&
              point.last?.any fun last => (last.reference? ⟨.global, 1⟩).isNone) = true := by
    decide +kernel
  obtain ⟨program, accepted, inRun⟩ := eq_ok_of_any checked
  obtain ⟨first, listed, found⟩ := List.any_eq_true.mp inRun
  obtain ⟨point, followed, holds⟩ := (Option.any_eq_true _ _).mp found
  simp only [Bool.and_eq_true, Bool.not_eq_true'] at holds
  obtain ⟨⟨usesFree, plain⟩, leaves⟩ := holds
  obtain ⟨last, ended, lastFree⟩ := (Option.any_eq_true _ _).mp leaves
  have visited : Visits 20 program 1 10 ⟨.empty, .unlimited, none⟩ point :=
    ⟨first, listed, Point.within_of_follow followed⟩
  obtain ⟨uses, free⟩ := Point.uses_of_usesFree usesFree
  obtain ⟨⟨earlier, reached⟩, caught_iff⟩ := early_use_caught_iff accepted visited uses
  have before := Point.Reaches.none_before reached free
  refine ⟨program, point, earlier, accepted, visited, uses, reached,
    fun other listed => (before other listed).1, ?_⟩
  refine (caught_iff earlier reached fun other listed => (before other listed).1).mpr ⟨plain, ?_⟩
  intro other listed assigns
  rcases List.mem_append.mp listed with outside | inside
  · exact (before other outside).2 assigns
  · have bound := Point.bound_of_history (fun _ => assigns.bound_last) inside ended
    exact Option.not_isSome_iff_eq_none.mpr (Option.isNone_iff_eq_none.mp lastFree) bound

/-- The assignment to a struct that is not there yet is not refused, and the run ends well. -/
theorem early_assignment_is_not_caught : ∃ program point earlier,
    lower earlyAssignment = .ok program ∧
    Visits 20 program 1 10 ⟨.empty, .unlimited, none⟩ point ∧ point.Uses ⟨.global, 1⟩ ∧
    Point.Reaches .global (runPoints 20 program 1 10 ⟨.empty, .unlimited, none⟩) earlier point ∧
    (∀ other ∈ earlier, ¬other.Declares ⟨.global, 1⟩) ∧ ¬point.Caught ⟨.global, 1⟩ ∧
    ∃ world, runWith 20 program 1 10 ⟨.empty, .unlimited, none⟩ = .finished (some 3) world := by
  have checked : ((lower earlyAssignment).toOption.any fun program =>
        ((runPoints 20 program 1 10 ⟨.empty, .unlimited, none⟩).any fun first =>
          (first.follow [0, 1, 1, 0, 0, 0, 0]).any fun point =>
            point.usesFree ⟨.global, 1⟩ && point.overwrites ⟨.global, 1⟩) &&
        match runWith 20 program 1 10 ⟨.empty, .unlimited, none⟩ with
        | .finished exitCode? _ => exitCode? == some 3
        | _ => false) = true := by
    decide +kernel
  obtain ⟨program, accepted, holds⟩ := eq_ok_of_any checked
  obtain ⟨inRun, ends⟩ := Bool.and_eq_true_iff.mp holds
  obtain ⟨first, listed, found⟩ := List.any_eq_true.mp inRun
  obtain ⟨point, followed, here⟩ := (Option.any_eq_true _ _).mp found
  obtain ⟨usesFree, overwrites⟩ := Bool.and_eq_true_iff.mp here
  have visited : Visits 20 program 1 10 ⟨.empty, .unlimited, none⟩ point :=
    ⟨first, listed, Point.within_of_follow followed⟩
  obtain ⟨uses, free⟩ := Point.uses_of_usesFree usesFree
  obtain ⟨earlier, reached⟩ := visited.reaches .global
  have before := Point.Reaches.none_before reached free
  refine ⟨program, point, earlier, accepted, visited, uses, reached,
    fun other listed => (before other listed).1, ?_, ?_⟩
  · intro caught
    rw [uses.overwrites_eq caught] at overwrites
    cases overwrites
  · split at ends
    · rename_i exitCode? world finished
      exact ⟨world, by rw [finished, beq_iff_eq.mp ends]⟩
    · cases ends

end MiniC
