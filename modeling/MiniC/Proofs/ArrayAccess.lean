import MiniC.Proofs.Machine.Arrays
import MiniC.Proofs.Machine.Loops
import MiniC.Proofs.Soundness.Structs
import MiniC.Proofs.Soundness.Truths
import MiniC.Proofs.Value.Integers

/-!
Arrays follow the mathematical index.

An index is converted to its own kind and then to a signed one of 64 bits before
it is compared with the length. No number gets into an array on this way that is
not in it by itself: a number beyond the signed range turns negative, and no
array is so long that a wide number could come around to it. The one type that is
narrower than its kind is that of truth values, and its terms yield nothing else.
-/

namespace MiniC

open Lowering Machine Typing Soundness

/-- A number is read as itself, or it is beyond the signed range and is read as a negative one. -/
theorem Value.toI64_eq_or_neg {value : Value} {number : Int}
    (stands : value.integer? = some number) :
    value.toI64.toInt = number ∨ (2 ^ 63 ≤ number ∧ value.toI64.toInt < 0) := by
  have same : value.toI64.toInt % 2 ^ 64 = number % 2 ^ 64 := toI64_modEq stands
  have least := value.toI64.le_toInt
  have most := value.toI64.toInt_lt
  have bounds : -2 ^ 63 ≤ number ∧ number < 2 ^ 64 := by
    cases value <;> simp only [integer?, Option.some.injEq, reduceCtorEq] at stands <;>
      subst stands
    case i32 word =>
      have := word.le_toInt
      have := word.toInt_lt
      omega
    case u32 word =>
      have := word.toNat_lt
      omega
    case i64 word =>
      have := word.le_toInt
      have := word.toInt_lt
      omega
    case u64 word =>
      have := word.toNat_lt
      omega
    case bool truth => cases truth <;> decide
  omega

/-- The signed reading is inside a range of fair size just if the number is. -/
theorem Value.toI64_inside {value : Value} {number bound : Int}
    (stands : value.integer? = some number) (fair : bound ≤ 2 ^ 63) :
    (0 ≤ value.toI64.toInt ∧ value.toI64.toInt < bound) ↔ (0 ≤ number ∧ number < bound) := by
  have reading := toI64_eq_or_neg stands
  omega

/-- The term that is used as an index or a length, and the one that it is made of. The lowering of a
subscript and that of a declaration make such terms. -/
structure IndexOf (written index : Term) : Prop where
  converted : ∃ refusal, asIndex refusal written = .ok index
  /-- A literal shows its type. -/
  literal : ∀ value, written.node = .literal value → value.ty? = some written.ty

private theorem indexOf_of_typed {setting : Setting} {vars : Variables} {refusal : String}
    {written index : Term} (typed : written.Typed setting vars)
    (converted : asIndex refusal written = .ok index) : IndexOf written index := by
  refine ⟨⟨refusal, converted⟩, ?_⟩
  rintro value isLiteral
  cases typed with
  | natural nodeTyped =>
      subst isLiteral
      cases nodeTyped with
      | literal shown => exact shown
  | discarded nodeTyped => cases converted

/-- A subscript is lowered to an element with an index of this form. -/
theorem lowerPlace_subscript {setting : Setting} {vars : Variables} {scope : ScopeId}
    {tree : ScopeTree} {span : Span} {base expr : Expr} {place : Place} {ty : Ty}
    (visible : Visible setting vars tree scope) (permits : setting.Permits expr.callsFunction)
    (found : lowerPlace scope (.subscript span base expr) tree = .ok (place, ty)) :
    ∃ slot written index, lowerExpr scope expr tree = .ok written ∧
      place = .element slot index ∧ IndexOf written index := by
  rw [lowerPlace, elementPlace] at found
  obtain ⟨⟨slot, owner⟩, _, found⟩ := bind_eq_ok.mp found
  simp only at found
  split at found
  · obtain ⟨written, lowered, found⟩ := bind_eq_ok.mp found
    obtain ⟨index, converted, found⟩ := bind_eq_ok.mp found
    cases found
    exact ⟨slot, written, index, lowered, rfl,
      indexOf_of_typed (lowerExpr_typed scope expr tree written visible permits lowered) converted⟩
  · cases found

/-- So is the length of an array that is declared. -/
theorem lowerArray_length {setting : Setting} {vars : Variables} {scope : ScopeId}
    {tree after : ScopeTree} {base : Ty} {declarator : Declarator} {expr : Expr}
    {commands : List Command} (visible : Visible setting vars tree scope)
    (permits : setting.Permits expr.callsFunction)
    (found : lowerArray scope base declarator expr tree = .ok (commands, after)) :
    ∃ slot kind written length, base = .num kind ∧ lowerExpr scope expr tree = .ok written ∧
      commands = [.newArray slot kind length] ∧ IndexOf written length := by
  unfold lowerArray at found
  simp only at found
  split at found
  · rename_i kind
    split at found
    · cases found
    · obtain ⟨written, lowered, found⟩ := bind_eq_ok.mp found
      obtain ⟨length, converted, found⟩ := bind_eq_ok.mp found
      obtain ⟨⟨slot, tree⟩, _, found⟩ := bind_eq_ok.mp found
      cases found
      exact ⟨slot, kind, written, length, rfl, lowered, rfl,
        indexOf_of_typed (lowerExpr_typed scope expr _ written visible permits lowered) converted⟩
  · cases found

/-- Where the names of a scope are known, what is written as an index becomes the index of an element,
and what is written as a length that of an array. -/
structure IndicesLowered (setting : Setting) (vars : Variables) (scope : ScopeId)
    (tree : ScopeTree) : Prop where
  subscript : ∀ span base expr place ty, setting.Permits expr.callsFunction →
    lowerPlace scope (.subscript span base expr) tree = .ok (place, ty) →
    ∃ slot written index, lowerExpr scope expr tree = .ok written ∧
      place = .element slot index ∧ IndexOf written index
  length : ∀ base declarator expr commands after, setting.Permits expr.callsFunction →
    lowerArray scope base declarator expr tree = .ok (commands, after) →
    ∃ slot kind written length, base = .num kind ∧ lowerExpr scope expr tree = .ok written ∧
      commands = [.newArray slot kind length] ∧ IndexOf written length

/-- The term that `index` is made of evaluates to a value that stands for the number. -/
structure Selects (context : Machine.Context) (written index : Term) (state : Machine.State)
    (value : Value) (number : Int) (middle : Machine.State) : Prop where
  indexOf : IndexOf written index
  evaluates : Evaluates context written state (.done value middle)
  stands : value.integer? = some number

section

variable {setting : Setting} {vars : Variables} {context : Machine.Context} {term : Term}
  {kind : Kind} {state middle : Machine.State} {value : Value}

private theorem evaluates_convert (kind : Kind)
    (evaluates : Evaluates context term state (.done value middle)) :
    Evaluates context (convert term kind) state
      (.done (if term.ty = .num kind then value else value.convert kind) middle) := by
  apply evaluates_of_done
  rw [evaluation_of_convert]
  split
  · exact evaluates.eq
  · exact bind_of_done evaluates.eq

private theorem typed_of_convert (typed : (convert term kind).Typed setting vars) :
    (∃ value, term.node = .literal value) ∨ term.Typed setting vars := by
  unfold convert at typed
  split at typed
  · exact Or.inr typed
  · split at typed
    · rename_i value isLiteral
      exact Or.inl ⟨value, isLiteral⟩
    · cases typed with
      | natural nodeTyped =>
          cases nodeTyped with
          | convert typed _ => exact Or.inr typed

private theorem literal_of_convert {folded : Value}
    (isLiteral : (convert term kind).node = .literal folded) :
    ∃ value, term.node = .literal value := by
  unfold convert at isLiteral
  split at isLiteral
  · exact ⟨folded, isLiteral⟩
  · split at isLiteral
    · rename_i value found
      exact ⟨value, found⟩
    · cases isLiteral

end

variable {program : Program} {globals : Variables} {context : Machine.Context}
  {setting : Setting} {vars : Variables} {written index length : Term}
  {state middle last : Machine.State} {value : Value} {number : Int} {slot : Slot} {kind : Kind}

namespace Selects

/-- Where the index is of the type of truth values, what it evaluates to is one. -/
theorem truth (selects : Selects context written index state value number middle)
    (wellFormed : program.Typed true globals)
    (here : Here .truths program globals context setting vars state)
    (typed : index.Typed setting vars) (isTruth : written.ty = .bool) :
    value.ty? = some .bool := by
  have shown : (∃ constant, written.node = .literal constant) ∨ written.Typed setting vars := by
    obtain ⟨refusal, converted⟩ := selects.indexOf.converted
    have widened : integerKind? written.ty = some .i32 := by
      rw [isTruth]
      rfl
    rw [asIndex, widened] at converted
    cases converted
    rcases typed_of_convert typed with ⟨folded, isLiteral⟩ | typed
    · exact Or.inl (literal_of_convert isLiteral)
    · exact typed_of_convert typed
  rcases shown with ⟨constant, isLiteral⟩ | typed
  · have literal := selects.indexOf.literal constant isLiteral
    obtain ⟨ty, span, node⟩ := written
    cases isLiteral
    cases isTruth
    have evaluated := selects.evaluates.eq
    rw [evaluation_literal] at evaluated
    cases evaluated
    exact literal
  · rcases here.truth wellFormed typed isTruth selects.evaluates with rfl | shown
    · cases selects.stands
    · exact shown

/-- The index itself evaluates to a value that has the same signed reading. -/
theorem index_evaluates (selects : Selects context written index state value number middle)
    (truth : written.ty = .bool → value.ty? = some .bool) :
    ∃ result, Evaluates context index state (.done result middle) ∧
      result.toI64 = value.toI64 := by
  obtain ⟨refusal, converted⟩ := selects.indexOf.converted
  unfold asIndex at converted
  split at converted
  · rename_i kind found
    cases converted
    refine ⟨_, evaluates_convert .i64 (evaluates_convert kind selects.evaluates), ?_⟩
    have ofKind := (integerKind?_eq_some found).1
    rw [convert_ty]
    cases ty : written.ty with
    | num other =>
        rw [ty] at ofKind
        cases ofKind
        rw [if_pos rfl]
        split <;> rfl
    | bool =>
        have shown := truth ty
        rw [ty] at ofKind
        cases ofKind
        cases value with
        | bool bit => cases bit <;> rfl
        | _ => cases shown
    | _ =>
        rw [ty] at ofKind
        cases ofKind
  · cases converted

end Selects

/-! ### Elements and declarations -/

def Node.place? : Node → Option Place
  | .load place => some place
  | .assign place _ => some place
  | .update place _ _ _ _ => some place
  | _ => none

/-- The second state is the first one with another value in one cell of an object. -/
structure Machine.State.SetsElement (before : Machine.State) (address : Address) (position : Nat)
    (value : Value) (after : Machine.State) : Prop where
  written : after.world.heap.cell address position = value
  elements : ∀ other, other ≠ position →
    after.world.heap.cell address other = before.world.heap.cell address other
  objects : ∀ other : Address, other ≠ address →
    after.world.heap[other]? = before.world.heap[other]?
  rest : after = { before with world := { before.world with heap := after.world.heap } }

/-- An access to an element, with an index that has been evaluated, follows the number that the
index stands for. -/
structure ElementAccess (context : Machine.Context) (state : Machine.State) (slot : Slot)
    (index : Term) (value : Value) (number : Int) (middle : Machine.State) (address : Address)
    (elements : Array Value) : Prop where
  load : ∀ position (inside : position < elements.size), number = position → ∀ ty span,
    Evaluates context (.mk ty span (.load (.element slot index))) state
      (.done elements[position] middle)
  assign : ∀ position, position < elements.size → number = position →
    ∀ ty span operand result last, Evaluates context operand middle (.done result last) →
      ∃ after, last.SetsElement address position result after ∧
        Evaluates context (.mk ty span (.assign (.element slot index) operand)) state
          (.done result after)
  update : ∀ position (inside : position < elements.size), number = position →
    ∀ ty span fn kind operand yieldsOld right last,
      Evaluates context operand middle (.done right last) →
      let fresh := updated fn kind ty elements[position] right
      ∃ after, last.SetsElement address position fresh after ∧
        Evaluates context (.mk ty span (.update (.element slot index) fn kind operand yieldsOld))
          state (.done (if yieldsOld then elements[position] else fresh) after)
  /-- Nothing is evaluated behind the index then. -/
  refused : number < 0 ∨ elements.size ≤ number → ∀ ty span node,
    node.place? = some (.element slot index) →
      Evaluates context (.mk ty span node) state
        (.failed ⟨.indexOutOfRange value.toI64 elements.size, []⟩ middle) ∧
      ∀ fuel, (Point.eval context (fuel + 1) (.mk ty span node) state).calls =
        [.locate context fuel (.element slot index) state]

section

variable {address : Address} {elements : Array Value} {place : Place} {node : Node}

private theorem cell_setCell_self {heap : Heap} {position : Nat}
    (found : heap[address]? = some (.array kind elements))
    (inside : position < elements.size) (value : Value) :
    (heap.setCell address position value).cell address position = value := by
  simp only [Heap.cell, Heap.setCell, Array.getElem?_modify, if_pos, found, Option.map_some,
    Object.setCell, Object.cells, Array.getElem?_setIfInBounds_self_of_lt inside, Option.getD_some]

private theorem setsElement_setCell {position : Nat}
    (found : state.world.heap[address]? = some (.array kind elements))
    (inside : position < elements.size) (value : Value) :
    state.SetsElement address position value (state.setCell address position value) where
  written := cell_setCell_self found inside value
  elements := by
    intro other different
    change (state.world.heap.setCell address position value).cell address other = _
    simp only [Heap.cell, Heap.setCell, Array.getElem?_modify, if_pos, found, Option.map_some,
      Object.setCell, Object.cells, Array.getElem?_setIfInBounds_ne different.symm]
  objects := by
    intro other different
    exact Array.getElem?_modify.trans (if_neg different.symm)
  rest := rfl

theorem Machine.Evaluates.growsArrays {term : Term} {result : Value}
    (evaluates : Evaluates context term state (.done result last)) : state.GrowsArrays last := by
  obtain ⟨_, fuel, evaluated⟩ := evaluates
  have ended : (Point.eval context fuel term state).last? = some last := by
    rw [Point.last?, evaluated]
    rfl
  exact Point.growsArrays ended

private theorem location_of_index {result : Value}
    (evaluates : Evaluates context index state (.done result middle))
    (bound : middle.reference? slot = some (.array address))
    (found : middle.world.heap[address]? = some (.array kind elements)) :
    location context (.element slot index) state =
      if 0 ≤ result.toI64.toInt ∧ result.toI64.toInt < elements.size then
        .done (.element address result.toI64.toInt.toNat) middle
      else .failed ⟨.indexOutOfRange result.toI64 elements.size, []⟩ middle := by
  have count : middle.cellCount address = elements.size := by
    rw [State.cellCount, found]
    rfl
  rw [location_element, bind_of_done evaluates.eq, elementLocation_eq, bound]
  simp only [count]

private theorem evaluation_of_refused (ty : Ty) (span : Span) {failure : Failure}
    (accesses : node.place? = some place)
    (refused : location context place state = .failed failure middle) :
    evaluation context (.mk ty span node) state = .failed failure middle := by
  cases node with
  | load place =>
      cases accesses
      rw [evaluation_load, bind_of_failed refused]
  | assign place operand =>
      cases accesses
      rw [evaluation_assign, bind_of_failed refused]
  | update place fn kind operand yieldsOld =>
      cases accesses
      rw [evaluation_update, bind_of_failed refused]
  | _ => cases accesses

private theorem calls_of_refused (ty : Ty) (span : Span) {failure : Failure}
    (accesses : node.place? = some place)
    (refused : location context place state = .failed failure middle) (fuel : Nat) :
    (Point.eval context (fuel + 1) (.mk ty span node) state).calls =
      [.locate context fuel place state] := by
  have alone (next : Location → Machine.State → List Point) :
      after (locate context fuel place state) next = [] := by
    rcases (settles_locate context place).below fuel state with spent | same
    · rw [spent]
      rfl
    · rw [same, refused]
      rfl
  cases node with
  | load place =>
      cases accesses
      rfl
  | assign place operand =>
      cases accesses
      rw [Point.calls, Point.nodeCalls, alone]
      rfl
  | update place fn kind operand yieldsOld =>
      cases accesses
      rw [Point.calls, Point.nodeCalls, alone]
      rfl
  | _ => cases accesses

private theorem elementAccess_of_index (stands : value.integer? = some number) {result : Value}
    (evaluates : Evaluates context index state (.done result middle))
    (same : result.toI64 = value.toI64) (bound : middle.reference? slot = some (.array address))
    (found : middle.world.heap[address]? = some (.array kind elements))
    (moderate : middle.world.heap.Moderate) :
    ElementAccess context state slot index value number middle address elements := by
  have located := location_of_index evaluates bound found
  have fair : (elements.size : Int) ≤ 2 ^ 63 :=
    Int.le_trans (moderate address kind _ (Heap.array?_of_getElem? found)) (by decide)
  have range := Value.toI64_inside stands fair
  have reading := Value.toI64_eq_or_neg stands
  rw [same] at located
  have place (position : Nat) (inside : position < elements.size) (is : number = position) :
      location context (.element slot index) state = .done (.element address position) middle := by
    rw [located, if_pos (range.mpr (by omega))]
    congr
    omega
  have content (position : Nat) (inside : position < elements.size) :
      middle.world.heap.cell address position = elements[position] := by
    simp only [Heap.cell, found, Object.cells, Array.getElem?_eq_getElem inside, Option.getD_some]
  have written {operand : Term} {right fresh : Value} {last : Machine.State} {position : Nat}
      (inside : position < elements.size)
      (evaluates : Evaluates context operand middle (.done right last)) :
      last.SetsElement address position fresh (last.setCell address position fresh) := by
    obtain ⟨contents, still, size⟩ := Heap.exists_of_array?
      (evaluates.growsArrays.kept address kind _ (Heap.array?_of_getElem? found))
    exact setsElement_setCell still (by omega) fresh
  constructor
  · intro position inside is ty span
    apply evaluates_of_done
    rw [evaluation_load, bind_of_done (place position inside is), ← content position inside]
    rfl
  · intro position inside is ty span operand right last operandEvaluates
    refine ⟨last.setCell address position right, written inside operandEvaluates, ?_⟩
    apply evaluates_of_done
    rw [evaluation_assign, bind_of_done (place position inside is),
      bind_of_done operandEvaluates.eq]
    rfl
  · intro position inside is ty span fn kind operand yieldsOld right last operandEvaluates fresh
    refine ⟨last.setCell address position fresh, written inside operandEvaluates, ?_⟩
    apply evaluates_of_done
    have loaded : load (.element address position) middle = .done elements[position] middle := by
      rw [← content position inside]
      rfl
    rw [evaluation_update, bind_of_done (place position inside is), bind_of_done loaded,
      bind_of_done operandEvaluates.eq]
    rfl
  · intro outside ty span node accesses
    have refused : location context (.element slot index) state =
        .failed ⟨.indexOutOfRange value.toI64 elements.size, []⟩ middle := by
      rw [located, if_neg]
      intro inside
      have := range.mp inside
      omega
    exact ⟨evaluates_of_failed (evaluation_of_refused ty span accesses refused),
      calls_of_refused ty span accesses refused⟩

end

/-- The declaration of an array, with a length that has been evaluated, follows the number that the
length stands for. -/
structure ArrayMade (context : Machine.Context) (state : Machine.State) (slot : Slot) (kind : Kind)
    (length : Term) (value : Value) (number : Int) (middle : Machine.State) : Prop where
  made : 0 ≤ number → number ≤ maxArrayLength → ∃ address last,
    Executes context (.newArray slot kind length) state (.done .normal last) ∧
      middle.world.heap[address]? = none ∧ last.reference? slot = some (.array address) ∧
      last.world.heap[address]? =
        some (.array kind (Array.replicate number.toNat (Value.zero kind)))
  refused : number < 0 ∨ maxArrayLength < number →
    Executes context (.newArray slot kind length) state
      (.failed ⟨.invalidArraySize value.toI64, []⟩ middle)

section

variable {result : Value}

private theorem executes_newArray_of_done
    (evaluates : Evaluates context length state (.done result middle))
    (made : newArray slot kind result.toI64 middle = .done () last) :
    Executes context (.newArray slot kind length) state (.done .normal last) := by
  obtain ⟨_, fuel, evaluated⟩ := evaluates
  constructor
  · intro impossible
    cases impossible
  · refine ⟨fuel + 1, ?_⟩
    rw [exec, bind_of_done evaluated, bind_of_done made]
    rfl

private theorem executes_newArray_of_failed {failure : Failure}
    (evaluates : Evaluates context length state (.done result middle))
    (refused : newArray slot kind result.toI64 middle = .failed failure last) :
    Executes context (.newArray slot kind length) state (.failed failure last) := by
  obtain ⟨_, fuel, evaluated⟩ := evaluates
  constructor
  · intro impossible
    cases impossible
  · refine ⟨fuel + 1, ?_⟩
    rw [exec, bind_of_done evaluated, bind_of_failed refused]

end

private theorem arrayMade_of_length (stands : value.integer? = some number) {result : Value}
    (evaluates : Evaluates context length state (.done result middle))
    (same : result.toI64 = value.toI64)
    (inside : slot.index < (middle.frame slot.region).references.size) :
    ArrayMade context state slot kind length value number middle := by
  have fair : maxArrayLength + 1 ≤ 2 ^ 63 := by decide
  have range := Value.toI64_inside stands fair
  have reading := Value.toI64_eq_or_neg stands
  constructor
  · intro least most
    have bounds : 0 ≤ value.toI64.toInt ∧ value.toI64.toInt ≤ maxArrayLength := by omega
    have exact : value.toI64.toInt = number := by omega
    have made : newArray slot kind result.toI64 middle =
        .done () (middle.allocated slot (·.newArray kind number.toNat)) := by
      rw [newArray_eq, same, if_pos bounds, exact]
    refine ⟨middle.world.heap.size, _, executes_newArray_of_done evaluates made, ?_, ?_, ?_⟩
    · exact Array.getElem?_eq_none (Nat.le_refl _)
    · rw [State.allocated, State.reference?_setReference, if_pos rfl]
      exact if_pos inside
    · rw [State.allocated, State.setReference_world]
      exact Array.getElem?_push_size
  · intro outside
    have refused : newArray slot kind result.toI64 middle =
        .failed ⟨.invalidArraySize value.toI64, []⟩ middle := by
      rw [newArray_eq, same, if_neg]
      omega
    exact executes_newArray_of_failed evaluates refused

/-! ### Every subscript and declaration -/

theorem Soundness.Ready.subscript {fuel : Nat}
    (ready : Ready .truths program globals (.locate context fuel (.element slot index) state)) :
    ∃ setting vars, Here .truths program globals context setting vars state ∧
      index.Typed setting vars := by
  cases ready with
  | locate here typed =>
      cases typed with
      | element _ _ typed _ => exact ⟨_, _, here, typed⟩

private theorem Soundness.Ready.arrayLength {fuel : Nat}
    (ready : Ready .truths program globals
      (.exec context fuel (.newArray slot kind length) state)) :
    ∃ setting vars, Here .truths program globals context setting vars state ∧
      length.Typed setting vars ∧ setting.HasReference slot := by
  cases ready with
  | exec here typed =>
      cases typed with
      | newArray typed _ _ has _ => exact ⟨_, _, here, typed, has⟩

/-- Wherever a run of an accepted program comes to a subscript, the access follows the number that
the index stands for; wherever it comes to the declaration of an array, so does its length. Nothing
that happens from any point on changes the kind or the length of an array that is there. The indices
and lengths are made of the expressions that are written in the source. -/
theorem arrays_follow_indices {items : List Item} (accepted : lower items = .ok program)
    {fuel limit : Nat} {entry : FunctionId} {sink : Sink} {record? : Option WorkRecord}
    {point : Point} (visited : Visits fuel program entry limit ⟨.empty, sink, record?⟩ point) :
    (∀ context less slot index state, point = .locate context less (.element slot index) state →
      ∀ written value number middle address kind elements,
        Selects context written index state value number middle →
        middle.reference? slot = some (.array address) →
        middle.world.heap[address]? = some (.array kind elements) →
        ElementAccess context state slot index value number middle address elements) ∧
    (∀ context less slot kind length state,
      point = .exec context less (.newArray slot kind length) state →
      ∀ written value number middle,
        Selects context written length state value number middle →
        ArrayMade context state slot kind length value number middle) ∧
    (∀ reached, point.Within reached →
      point.state.world.heap.KeepsArrays reached.state.world.heap ∧
      ∀ last, reached.last? = some last →
        point.state.world.heap.KeepsArrays last.world.heap) ∧
    ∀ setting vars scope tree, Visible setting vars tree scope →
      IndicesLowered setting vars scope tree := by
  obtain ⟨globals, wellFormed⟩ : ∃ globals, program.Typed true globals :=
    lower_typed (fun impossible => by cases impossible) accepted
  have moderate : point.state.world.heap.Moderate :=
    visited.growsArrays.moderate Heap.moderate_empty
  refine ⟨?_, ?_, ?_, ?_⟩
  · rintro context less slot index state rfl written value number middle address kind elements
      selects bound found
    obtain ⟨setting, vars, here, typed⟩ :=
      (ready_of_visits wellFormed (.empty _) visited rfl).subscript
    obtain ⟨result, evaluates, same⟩ :=
      selects.index_evaluates (selects.truth wellFormed here typed)
    exact elementAccess_of_index selects.stands evaluates same bound found
      (evaluates.growsArrays.moderate moderate)
  · rintro context less slot kind length state rfl written value number middle selects
    obtain ⟨setting, vars, here, typed, has⟩ :=
      (ready_of_visits wellFormed (.empty _) visited rfl).arrayLength
    obtain ⟨result, evaluates, same⟩ :=
      selects.index_evaluates (selects.truth wellFormed here typed)
    have later := (here.yields wellFormed typed evaluates).later
    exact arrayMade_of_length selects.stands evaluates same (later.typed.lt_size has)
  · intro reached within
    have arrived := within.growsArrays
    exact ⟨arrived.kept, fun last ended => (arrived.trans (Point.growsArrays ended)).kept⟩
  · intro setting vars scope tree visible
    exact ⟨fun _ _ _ _ _ permits found => lowerPlace_subscript visible permits found,
      fun _ _ _ _ _ permits found => lowerArray_length visible permits found⟩

def Node.isLiteral : Node → Bool
  | .literal _ => true
  | _ => false

/-- Whether a subscript, whose index is converted while the program runs, selects a number in an
array of a length. -/
def Machine.Point.selects (number : Int) (length : Nat) : Point → Bool
  | .locate context fuel
      (.element slot (.mk (.num .i64) outer (.convert .i64 (.mk (.num kind) inner node)))) state =>
      decide (outer = inner ∧ kind ≠ .i64) && (kind.isInteger && !node.isLiteral) &&
        match Machine.eval context fuel (.mk (.num kind) inner node) state with
        | .done value middle =>
            decide (value.integer? = some number) &&
              match middle.reference? slot with
              | some (.array address) =>
                  (middle.world.heap.array? address).any fun shape => shape.2 = length
              | _ => false
        | _ => false
  | _ => false

private theorem indexOf_converted {kind : Kind} (isInteger : kind.isInteger = true)
    (narrow : kind ≠ .i64)
    {node : Node} (computed : node.isLiteral = false) (span : Span) :
    IndexOf (.mk (.num kind) span node)
      (.mk (.num .i64) span (.convert .i64 (.mk (.num kind) span node))) := by
  constructor
  · refine ⟨"", ?_⟩
    have ofKind : integerKind? (.num kind) = some kind := by
      rw [integerKind?, arithKind?, Option.filter, if_pos isInteger]
    have different : Ty.num kind ≠ .num .i64 := fun same => narrow (Ty.num.inj same)
    have own : convert (.mk (.num kind) span node) kind = .mk (.num kind) span node := if_pos rfl
    have widened : convert (.mk (.num kind) span node) .i64 =
        .mk (.num .i64) span (.convert .i64 (.mk (.num kind) span node)) := by
      refine (if_neg different).trans ?_
      cases node <;> first | rfl | cases computed
    rw [asIndex, Term.ty, ofKind]
    simp only [own, widened]
  · rintro value rfl
    cases computed

private theorem exists_of_selects {point : Point} {number : Int} {count : Nat}
    (selecting : point.selects number count = true) :
    ∃ context less slot index state written value middle address kind elements,
      point = .locate context less (.element slot index) state ∧
      Selects context written index state value number middle ∧
      middle.reference? slot = some (.array address) ∧
      middle.world.heap[address]? = some (.array kind elements) ∧ elements.size = count := by
  unfold Point.selects at selecting
  split at selecting
  · rename_i context fuel slot outer kind inner node state
    obtain ⟨index, selecting⟩ := Bool.and_eq_true_iff.mp selecting
    obtain ⟨same, ofKind⟩ := Bool.and_eq_true_iff.mp index
    obtain ⟨rfl, narrow⟩ := of_decide_eq_true same
    obtain ⟨isInteger, computed⟩ := Bool.and_eq_true_iff.mp ofKind
    split at selecting
    · rename_i value middle evaluated
      obtain ⟨stands, selecting⟩ := Bool.and_eq_true_iff.mp selecting
      split at selecting
      · rename_i address bound
        obtain ⟨⟨element, length⟩, shape, same⟩ := (Option.any_eq_true _ _).mp selecting
        obtain ⟨elements, found, size⟩ := Heap.exists_of_array? shape
        have evaluates : Evaluates context (.mk (.num kind) outer node) state
            (.done value middle) := by
          refine ⟨?_, fuel, evaluated⟩
          intro impossible
          cases impossible
        exact ⟨context, fuel, slot, _, state, _, value, middle, address, element, elements, rfl,
          ⟨indexOf_converted isInteger narrow (Bool.not_eq_true' _ |>.mp computed) _,
            evaluates, of_decide_eq_true stands⟩, bound, found,
          size.trans (of_decide_eq_true same)⟩
      · cases selecting
    · cases selecting
  · cases selecting

/-- A source that stores at the index `1 < 2` of an array of three elements, and then reads at the
largest number there is. -/
def wideIndex : List Item :=
  let place : Span := ⟨0, 0⟩
  let number (value : UInt64) : Expr := .int place ⟨value, false, false, false⟩
  let element (index : Expr) : Expr := .subscript place (.ident place "a") index
  [.function ⟨.int, "main", [], some
    [.decl place ⟨false, .int, [⟨"a", some (number 3), none, place⟩], place⟩,
      .expr place
        (.assign place none (element (.binary place .lt (number 1) (number 2))) (number 7)),
      .decl place
        ⟨false, .unsignedLong, [⟨"i", none, some (number 18446744073709551615), place⟩], place⟩,
      .ret place (some (element (.ident place "i")))], place⟩]

theorem wide_index_is_refused : ∃ program, lower wideIndex = .ok program ∧
    (∃ point context less slot index state, ∃ middle : Machine.State, ∃ address,
      Visits 20 program 0 10 ⟨.empty, .unlimited, none⟩ point ∧
      point = .locate context less (.element slot index) state ∧
      middle.reference? slot = some (.array address) ∧
      ∀ ty span value, ∃ after, middle.SetsElement address 1 value after ∧
        Evaluates context
          (.mk ty span (.assign (.element slot index) (.mk ty span (.literal value)))) state
          (.done value after)) ∧
    ∃ point context less slot index state middle written value,
      Visits 20 program 0 10 ⟨.empty, .unlimited, none⟩ point ∧
      point = .locate context less (.element slot index) state ∧
      Selects context written index state value (2 ^ 64 - 1) middle ∧
      ∀ ty span, Evaluates context (.mk ty span (.load (.element slot index))) state
        (.failed ⟨.indexOutOfRange value.toI64 3, []⟩ middle) := by
  have checked : ((lower wideIndex).toOption.any fun program =>
      (runPoints 20 program 0 10 ⟨.empty, .unlimited, none⟩).any fun first =>
        ((first.follow [0, 0, 1, 0, 0, 0]).any fun point => point.selects 1 3) &&
          (first.follow [0, 0, 1, 1, 1, 0, 0, 0]).any fun point =>
            point.selects (2 ^ 64 - 1) 3) = true := by
    decide +kernel
  obtain ⟨program, accepted, holds⟩ := eq_ok_of_any checked
  obtain ⟨first, listed, holds⟩ := List.any_eq_true.mp holds
  obtain ⟨narrow, wide⟩ := Bool.and_eq_true_iff.mp holds
  refine ⟨program, accepted, ?_, ?_⟩
  · obtain ⟨point, followed, selecting⟩ := (Option.any_eq_true _ _).mp narrow
    have visited : Visits 20 program 0 10 ⟨.empty, .unlimited, none⟩ point :=
      ⟨first, listed, Point.within_of_follow followed⟩
    obtain ⟨context, less, slot, index, state, written, value, middle, address, kind, elements,
      is, selects, bound, found, size⟩ := exists_of_selects selecting
    have access := (arrays_follow_indices accepted visited).1 context less slot index state is
      written value 1 middle address kind elements selects bound found
    refine ⟨point, context, less, slot, index, state, middle, address, visited, is, bound, ?_⟩
    intro ty span stored
    refine access.assign 1 (by omega) rfl ty span _ stored middle ?_
    apply evaluates_of_done
    rw [evaluation_literal]
    rfl
  · obtain ⟨point, followed, selecting⟩ := (Option.any_eq_true _ _).mp wide
    have visited : Visits 20 program 0 10 ⟨.empty, .unlimited, none⟩ point :=
      ⟨first, listed, Point.within_of_follow followed⟩
    obtain ⟨context, less, slot, index, state, written, value, middle, address, kind, elements,
      is, selects, bound, found, size⟩ := exists_of_selects selecting
    have access := (arrays_follow_indices accepted visited).1 context less slot index state is
      written value _ middle address kind elements selects bound found
    refine ⟨point, context, less, slot, index, state, middle, written, value, visited, is, selects,
      ?_⟩
    intro ty span
    have refused := (access.refused (Or.inr (by omega)) ty span (.load _) rfl).1
    rw [size] at refused
    exact refused

end MiniC
