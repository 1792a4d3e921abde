import MiniC.Proofs.Builtin.Heap
import MiniC.Proofs.Lowering.Declarations
import MiniC.Proofs.Machine.Separation
import MiniC.Proofs.Soundness.Run

/-!
What the points of a run put in struct variables.

At run time a struct is a reference, which terms hand around freely. Variables
nevertheless get references of their own: a declaration makes a new struct, an
assignment copies the fields into the one that is there, and a parameter is bound
to a copy. Only an assignment to a global variable whose declaration is still to
come shares a struct, and the declaration puts a new one in its place.
-/

namespace MiniC

open Lowering Machine Typing Soundness

private theorem Builtin.invoke_heap_size (builtin : Builtin) (args : List Value) (world : World) :
    (builtin.invoke args world).world.heap.size = world.heap.size := by
  refine @invoke_heap (fun heap => heap.size = world.heap.size) args world builtin rfl ?_
  intro first second numbers others
  exact Array.size_modify.trans Array.size_modify

/-! ### What a ready point does -/

theorem clean_anything (point : Point) : Clean .anything point where
  filled := fun _ _ _ _ _ _ => trivial
  unmixed := nofun

section Points

variable {program : Program} {globals : Variables} {context : Machine.Context} {fuel : Nat}
  {state before last : Machine.State} {structs declared : Nat → Prop} {frames : List Frame}
  {slot : Slot} {value written : Value}

private theorem eval_yields {setting : Setting} {vars : Variables} {term : Term}
    (wellFormed : program.Typed true globals)
    (here : Here .anything program globals context setting vars state)
    (typed : Term.Typed setting vars term)
    (done : Machine.eval context fuel term state = .done value last) :
    Yields .anything setting vars term.ty state value last := by
  have command : Command.Typed setting false vars (.expr term) vars := .expr typed
  exact ((behaved wellFormed fuel).eval here command (clean_anything _)).1.done value last done

private theorem address_lt_of_shape? {heap : Heap} {address : Address} {shape : Ty × Nat}
    (found : heap.shape? address = some shape) : address < heap.size := by
  obtain ⟨object, here, _⟩ := Heap.exists_of_shape? found
  exact (Array.getElem?_eq_some_iff.mp here).1

theorem Soundness.StateTyped.lt_size {G : Guarantee} {setting : Setting} {vars : Variables}
    (typed : StateTyped G setting vars state) (has : setting.HasReference slot) :
    slot.index < (state.frame slot.region).references.size := by
  obtain ⟨region, index⟩ := slot
  cases region with
  | global => exact Nat.lt_of_lt_of_eq has typed.globals.references_size.symm
  | activation => exact Nat.lt_of_lt_of_eq has typed.locals.references_size.symm

private theorem store_whole_renews {setting : Setting} {vars : Variables} {ty : Ty}
    (separate : Separate structs declared frames before)
    (typed : StateTyped .anything setting vars before)
    (known : vars.reference slot = some ty) (object : ty.isObject = true)
    (listed : ∀ index name members, slot = ⟨.global, index⟩ → ty = .struct name members →
      structs index)
    (hasType : HasType .anything before.world.heap value ty)
    (stored : store (.whole slot) value before = .done written last) :
    Renews structs declared frames before last := by
  rw [store_whole] at stored
  cases ty with
  | array element =>
      obtain ⟨address, size, rfl, _⟩ := hasType.exists_array rfl
      cases stored
      exact separate.renewArray (fun _ => rfl) (Nat.le_refl _)
  | struct name members =>
      obtain ⟨source, size, rfl, sourceFound⟩ := hasType.exists_struct rfl
      cases found : before.reference? slot with
      | some reference =>
          have referenceTyped : HasType .anything before.world.heap reference
              (.struct name members) := by
            rcases typed.reference known with ⟨other, same, otherTyped⟩ | ⟨_, empty⟩
            · rw [found] at same
              cases same
              exact otherTyped
            · rw [found] at empty
              cases empty
          obtain ⟨target, targetSize, rfl, _⟩ := referenceTyped.exists_struct rfl
          rw [found] at stored
          cases stored
          refine separate.unchanged (fun _ => rfl) (Nat.le_of_eq ?_)
          exact (Heap.size_copyFields before.world.heap source target).symm
      | none =>
          rw [found] at stored
          cases stored
          -- only a global variable that is still to be declared can be missing
          refine separate.renew ?_ ?_ (fun _ => rfl) (Nat.le_refl _) ?_
          · intro index address here _
            exact listed index name members (eq_of_holderOf here) rfl
          · intro counts
            obtain ⟨region, index⟩ := slot
            cases region with
            | global =>
                have bound := separate.bound index counts
                unfold State.Bound at bound
                rw [found] at bound
                cases bound
            | activation =>
                have empty : before.locals.reference? index = none := found
                rcases typed.locals.reference index _ known with ⟨_, bound, _⟩ | ⟨impossible, _⟩
                · rw [empty] at bound
                  cases bound
                · cases impossible
          · intro address same
            cases same
            exact address_lt_of_shape? sourceFound
  | _ => cases object

theorem Soundness.Ready.assignWhole {ty : Ty} {span : Span} {term : Term}
    (ready : Ready .anything program globals
      (.eval context fuel (.mk ty span (.assign (.whole slot) term)) state)) :
    ∃ setting vars, Here .anything program globals context setting vars state ∧
      vars.reference slot = some term.ty ∧ term.ty.isObject = true ∧
      Term.Typed setting vars term := by
  have placed {setting : Setting} {vars : Variables} {shown : Ty}
      (here : Here .anything program globals context setting vars state)
      (typed : Node.Typed setting vars (.assign (.whole slot) term) shown) :
      ∃ setting vars, Here .anything program globals context setting vars state ∧
        vars.reference slot = some term.ty ∧ term.ty.isObject = true ∧
        Term.Typed setting vars term := by
    cases typed with
    | assign place typed =>
        cases place with
        | whole known _ object => exact ⟨setting, vars, here, known, object, typed⟩
  cases ready with
  | eval here typed =>
      cases typed with
      | expr typed =>
          cases typed with
          | natural typed => exact placed here typed
          | discarded typed => exact placed here typed

private theorem Soundness.Ready.update_place {ty : Ty} {span : Span} {place : Place} {fn : BinaryFn}
    {operand : Kind} {rhs : Term} {yieldsOld : Bool}
    (ready : Ready .anything program globals
      (.eval context fuel (.mk ty span (.update place fn operand rhs yieldsOld)) state)) :
    place ≠ .whole slot := by
  have placed {setting : Setting} {vars : Variables} {shown : Ty}
      (typed : Node.Typed setting vars (.update place fn operand rhs yieldsOld) shown) :
      place ≠ .whole slot := by
    rintro rfl
    cases typed with
    | update place _ _ =>
        cases place with
        | whole _ _ object => cases object
  cases ready with
  | eval here typed =>
      cases typed with
      | expr typed =>
          cases typed with
          | natural typed => exact placed typed
          | discarded typed => exact placed typed

private theorem copy_eq {heap : Heap} {ty : Ty} {address : Address} (object : ty.isObject = true)
    (hasType : HasType .anything heap value ty) (struct : (heap.copy value).1 = .struct address) :
    address = heap.size ∧ (heap.copy value).2.size = heap.size + 1 := by
  cases ty with
  | array element =>
      obtain ⟨source, size, rfl, found⟩ := hasType.exists_array rfl
      obtain ⟨original, here, _⟩ := Heap.exists_of_shape? found
      simp only [Heap.copy, here, Heap.allocate] at struct
      cases struct
  | struct name members =>
      obtain ⟨source, size, rfl, found⟩ := hasType.exists_struct rfl
      obtain ⟨original, here, _⟩ := Heap.exists_of_shape? found
      simp only [Heap.copy, here, Heap.allocate] at struct ⊢
      cases struct
      exact ⟨rfl, Array.size_push _⟩
  | _ => cases object

theorem newStruct_eq {heap : Heap} {name : String} {members : List (String × Ty)}
    (object : (Ty.struct name members).isObject = true) :
    (heap.newStruct name members).1 = .struct heap.size ∧
      (heap.newStruct name members).2.size = heap.size + 1 := by
  have declarable : (Ty.struct name members).isDeclarable = true := object
  obtain ⟨heapEq, _⟩ := zeroMembers_typed heap (isDeclarable_struct_iff.mp declarable)
  simp only [Heap.newStruct, Heap.zeroOf, Heap.allocate, heapEq, Array.size_push, and_self]

private theorem Heap.size_le_copy (heap : Heap) (value : Value) :
    heap.size ≤ (heap.copy value).2.size := by
  unfold Heap.copy
  split
  · split
    · simp only [Heap.allocate, Array.size_push]
      omega
    · exact Nat.le_refl _
  · split
    · simp only [Heap.allocate, Array.size_push]
      omega
    · exact Nat.le_refl _
  · exact Nat.le_refl _

/-- The evaluation of a copy yields a struct that is newer than every one that is referred to. -/
def CopiesFresh (structs declared : Nat → Prop) (frames : List Frame) (last : Machine.State) :
    Point → Prop
  | .eval context fuel (.mk ty span (.copy term)) state => ∀ address,
      Machine.eval context fuel (.mk ty span (.copy term)) state = .done (.struct address) last →
      ∃ middle, Renews structs declared frames state middle ∧
        (∀ slot, last.reference? slot = middle.reference? slot) ∧
        middle.world.heap.size ≤ address ∧ address < last.world.heap.size
  | _ => True

structure StructsIn (program : Program) (globals : Variables) (structs : Nat → Prop) : Prop where
  typed : program.Typed true globals
  listed : ∀ index name members,
    globals.reference ⟨.global, index⟩ = some (.struct name members) → structs index
  bodies : program.BodiesObey (Command.Declaring structs)

theorem lower_structsIn {items : List Item} (accepted : lower items = .ok program) :
    ∃ globals, StructsIn program globals program.DeclaresStruct := by
  obtain ⟨globals, typed⟩ : ∃ globals, program.Typed true globals := lower_typed nofun accepted
  refine ⟨globals, typed, ?_, (lower_declaring accepted).2⟩
  intro index name members known
  rcases typed.init.struct_declared (lower_copying accepted).1 known with impossible | declared
  · cases impossible
  · exact ⟨name, members, declared⟩

theorem Machine.Point.Obeys.struct_listed {command : Command} {index : Nat}
    (obeys : (Point.exec context fuel command state).Obeys program (Command.Declaring structs))
    (text : command.declaresStruct slot = true) (here : .global index = holderOf slot) :
    structs index := by
  cases eq_of_holderOf here
  exact (obeys.allowed _ List.mem_cons_self _ (.self _)).listed index text

theorem Machine.Point.Changes.renews {point : Point}
    (wellFormed : StructsIn program globals structs)
    (ready : Ready .anything program globals point)
    (obeys : point.Obeys program (Command.Declaring structs))
    (renews : Renews structs declared frames point.state before)
    (copies : ∀ next ∈ point.calls, next.last? = some before → next.state = point.state →
      CopiesFresh structs declared frames before next)
    (changes : point.Changes before last) : Renews structs declared frames point.state last := by
  have separate := renews.separate
  have kept {location : Location} {value written : Value}
      (elsewhere : ∀ slot, location ≠ .whole slot)
      (stored : store location value before = .done written last) :
      Renews structs declared frames before last := by
    refine separate.unchanged ?_ (Nat.le_of_eq (store_heap_size stored).symm)
    intro slot
    rcases store_reference? stored slot with same | ⟨whole, _⟩
    · exact same
    · exact absurd whole (elsewhere slot)
  cases changes with
  | none _ => exact renews
  | invoke _ ended =>
      rw [invoke_last? ended]
      refine renews.trans (separate.unchanged (fun _ => rfl) (Nat.le_of_eq ?_))
      exact (Builtin.invoke_heap_size _ _ _).symm
  | copy _ =>
      exact renews.trans (separate.unchanged (fun _ => rfl) (Heap.size_le_copy _ _))
  | @assign context fuel ty span place term state between _ _ location result written found
      evaluated stored =>
      refine renews.trans ?_
      cases location with
      | scalar slot => exact kept (by intro _ same; cases same) stored
      | element array index => exact kept (by intro _ same; cases same) stored
      | field owner index => exact kept (by intro _ same; cases same) stored
      | whole slot =>
          obtain ⟨rfl, rfl⟩ := locate_whole found
          obtain ⟨setting, vars, here, known, object, typed⟩ := ready.assignWhole
          have yields := eval_yields wellFormed.typed here typed evaluated
          refine store_whole_renews separate yields.later.typed known object ?_ yields.hasType
            stored
          rintro index name members rfl same
          rw [same] at known
          exact wellFormed.listed index name members (here.below index _ known)
  | update found _ _ stored =>
      refine renews.trans (kept ?_ stored)
      rintro slot rfl
      exact ready.update_place (locate_whole found).1
  | @newArray context fuel count slot kind length size state _ evaluated created =>
      refine renews.trans (separate.renewArray (fun _ => rfl) ?_)
      change before.world.heap.size ≤ (before.world.heap.push _).size
      rw [Array.size_push]
      exact Nat.le_succ _
  | @newStruct context fuel slot name members state =>
      cases ready with
      | exec here typed =>
          cases typed with
          | newStruct object _ _ _ =>
              obtain ⟨value, size⟩ := @newStruct_eq before.world.heap name members object
              refine renews.trans (separate.renew ?_ ?_ (fun _ => rfl) ?_ ?_)
              · exact fun _ _ here _ => obeys.struct_listed (decide_eq_true rfl) here
              · intro _ address same
                cases value.symm.trans same
                exact Nat.le_refl _
              · change before.world.heap.size ≤ (before.world.heap.newStruct name members).2.size
                rw [size]
                exact Nat.le_succ _
              · intro address same
                cases value.symm.trans same
                change before.world.heap.size < (before.world.heap.newStruct name members).2.size
                rw [size]
                exact Nat.lt_succ_self _
  | @bind context fuel slot term result state _ evaluated =>
      have called : Point.eval context fuel term state ∈
          (Point.exec context (fuel + 1) (.bind slot term) state).calls := List.mem_cons_self
      have ended : (Point.eval context fuel term state).last? = some before := by
        rw [Point.last?, evaluated]
        rfl
      have checked : (Command.bind slot term).bindsCopies = true :=
        (obeys.allowed _ List.mem_cons_self _ (.self _)).copies
      cases ready with
      | exec here typed =>
          cases typed with
          | bind typed object _ _ _ =>
              have hasType := (eval_yields wellFormed.typed here typed evaluated).hasType
              obtain ⟨ty, span, node⟩ := term
              cases ty with
              | array element =>
                  obtain ⟨address, _, rfl, _⟩ := hasType.exists_array rfl
                  exact renews.trans (separate.renewArray (fun _ => rfl) (Nat.le_refl _))
              | struct name members =>
                  obtain ⟨address, _, rfl, _⟩ := hasType.exists_struct rfl
                  cases node with
                  | copy inner =>
                      obtain ⟨middle, early, same, new, inside⟩ :=
                        copies _ called ended rfl address evaluated
                      refine early.trans (early.separate.renew ?_ ?_ same ?_ ?_)
                      · exact fun _ _ here _ => obeys.struct_listed (decide_eq_true rfl) here
                      · intro _ other is
                        cases is
                        exact new
                      · exact Nat.le_of_lt (Nat.lt_of_le_of_lt new inside)
                      · intro other is
                        cases is
                        exact inside
                  | _ => cases checked
              | _ => cases object

private theorem copiesFresh_of_calls {point : Point} (wellFormed : program.Typed true globals)
    (ready : Ready .anything program globals point)
    (each : ∀ next ∈ point.calls, ∀ last, next.last? = some last →
      next.state = point.state → Renews structs declared frames next.state last) :
    CopiesFresh structs declared frames last point := by
  unfold CopiesFresh
  split
  · rename_i context fuel ty span term state
    intro address done
    cases fuel with
    | zero => cases done
    | succ fuel =>
        rw [Machine.eval] at done
        cases evaluated : Machine.eval context fuel term state with
        | failed failure middle =>
            rw [bind_of_failed evaluated] at done
            cases done
        | exhausted =>
            simp only [Bind.bind, Step.bind, evaluated] at done
            cases done
        | done result middle =>
            rw [bind_of_done evaluated] at done
            obtain ⟨value, after⟩ := Outcome.done.inj done
            have ended : (Point.eval context fuel term state).last? = some middle := by
              rw [Point.last?, evaluated]
              rfl
            obtain ⟨object, hasType⟩ : term.ty.isObject = true ∧
                HasType .anything middle.world.heap result term.ty := by
              have copied {setting : Setting} {vars : Variables} {shown : Ty}
                  (here : Here .anything program globals context setting vars state)
                  (typed : Node.Typed setting vars (.copy term) shown) :
                  term.ty.isObject = true ∧
                    HasType .anything middle.world.heap result term.ty := by
                cases typed with
                | copy typed object =>
                    exact ⟨object, (eval_yields wellFormed here typed evaluated).hasType⟩
              cases ready with
              | eval here typed =>
                  cases typed with
                  | expr typed =>
                      cases typed with
                      | natural typed => exact copied here typed
                      | discarded typed => exact copied here typed
            obtain ⟨rfl, size⟩ := copy_eq object hasType value
            subst after
            refine ⟨middle, each _ List.mem_cons_self middle ended rfl, fun _ => rfl,
              Nat.le_refl _, ?_⟩
            change middle.world.heap.size < (middle.world.heap.copy result).2.size
            rw [size]
            exact Nat.lt_succ_self _
  · trivial

/-- A point keeps struct variables separate. -/
theorem Soundness.Ready.renews {point : Point} (wellFormed : StructsIn program globals structs)
    (ready : Ready .anything program globals point)
    (obeys : point.Obeys program (Command.Declaring structs))
    (separate : Separate structs declared frames point.state) (ended : point.last? = some last) :
    Renews structs declared frames point.state last := by
  -- a parameter is bound to what the evaluation of a copy yields, so the induction has to say of
  -- such an evaluation that the struct is new
  suffices holds : Renews structs declared frames point.state last ∧
      CopiesFresh structs declared frames last point from holds.1
  revert frames ready obeys
  refine @Point.end_induction (fun point last => ∀ {frames : List Frame},
    Ready .anything program globals point →
    point.Obeys program (Command.Declaring structs) →
    Separate structs declared frames point.state →
    Renews structs declared frames point.state last ∧
      CopiesFresh structs declared frames last point)
    ?_ ?_ point last ended
  · intro point before last _ _ each threads changes frames ready obeys separate
    have readyCalls := ready.calls wellFormed.typed (clean_anything point)
    have obeyCalls := obeys.calls fun _ => wellFormed.bodies
    have early : Renews structs declared frames point.state before := by
      refine @Threads.kept (Renews structs declared frames point.state) _ _ _ threads ?_
        (.refl separate)
      intro next called last ended renews
      exact renews.trans
        (each next called last ended (readyCalls next called) (obeyCalls next called)
          renews.separate).1
    constructor
    · refine changes.renews wellFormed ready obeys early ?_
      intro next called ended same
      rw [← same] at separate
      exact (each next called before ended (readyCalls next called) (obeyCalls next called)
        separate).2
    · refine copiesFresh_of_calls wellFormed.typed ready ?_
      intro next called last ended same
      rw [← same] at separate
      exact (each next called last ended (readyCalls next called) (obeyCalls next called)
        separate).1
  · intro context fuel id args state function body inner last entered _ holds leaves frames ready
      obeys separate
    have called : Point.exec context.deeper fuel body (state.entered function args) ∈
        (Point.call context (fuel + 1) id args state).calls := by
      rw [Point.calls_of_enter entered]
      exact List.mem_cons_self
    have inside := (holds (ready.calls wellFormed.typed (clean_anything _) _ called)
      (obeys.calls (fun _ => wellFormed.bodies) _ called) (separate.enter function args)).1
    exact ⟨inside.leave leaves, trivial⟩

end Points

end MiniC
