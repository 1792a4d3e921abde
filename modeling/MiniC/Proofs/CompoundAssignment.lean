import MiniC.Proofs.Lowering.Mirror
import MiniC.Proofs.ReadOnly
import MiniC.Proofs.Token.Written
import MiniC.Proofs.VoidCast

/-!
Compound assignments and what they stand for.

`t op= e` and `t = t op e` take different ways: the one is an update, which finds
its place once and converts between the kinds by itself, the other an assignment
of an operation whose conversions are terms of their own. They are accepted
together. If the index of the target only reads, they also evaluate alike, since
the place is found a second time at once, where nothing has changed yet.
-/

namespace MiniC

open Lowering Machine

/-- The index of a subscripted target only reads. -/
def Expr.indexOnlyReads : Expr → Bool
  | .subscript _ _ index => index.onlyReads
  | _ => true

namespace Lowering

/-- What can be written can be read. -/
theorem lowerExpr_of_lowerPlace {scope : ScopeId} {tree : ScopeTree} {target : Expr}
    {place : Place} {ty : Ty} (found : lowerPlace scope target tree = .ok (place, ty)) :
    ∃ span, lowerExpr scope target tree = .ok (.mk ty span (.load place)) := by
  cases target with
  | ident span name =>
      rw [lowerPlace] at found
      obtain ⟨symbol, resolved, continued⟩ := bind_eq_ok.mp found
      refine ⟨span, ?_⟩
      rw [lowerExpr, identTerm, resolved]
      simp only [bind, Except.bind]
      split at continued
      · rename_i slot storage
        cases continued
        rw [storage]
        rfl
      · rename_i slot storage
        cases continued
        rw [storage]
        rfl
      · cases continued
  | subscript span base index =>
      rw [lowerPlace] at found
      refine ⟨span, ?_⟩
      rw [lowerExpr, found]
      rfl
  | field span owner name =>
      rw [lowerPlace] at found
      refine ⟨span, ?_⟩
      rw [lowerExpr, found]
      rfl
  | _ => cases found

private theorem commonKind_of_some (op : BinaryOp) {left right : Term} {kind other : Kind}
    (span : Span)
    (ofLeft : left.ty = .num kind) (ofRight : arithKind? right.ty = some other) :
    commonKind op left right span = .ok (kind.promote other) := by
  unfold commonKind widen
  rw [ofLeft]
  cases ty : right.ty <;> rw [ty] at ofRight <;> cases ofRight <;> rfl

private theorem commonKind_of_none (op : BinaryOp) {left right : Term} {kind : Kind} (span : Span)
    (ofLeft : left.ty = .num kind) (ofRight : arithKind? right.ty = none) :
    ∃ fault, commonKind op left right span = .error fault := by
  unfold commonKind widen
  rw [ofLeft]
  cases ty : right.ty <;> rw [ty] at ofRight <;> first | exact ⟨_, rfl⟩ | cases ofRight

private theorem promote_isInteger (left right : Kind) :
    (left.promote right).isInteger = (left.isInteger && right.isInteger) := by
  cases left <;> cases right <;> rfl

/-- An update and an operation that compute the same: in the kind `operand`, the second operand
converted to the kind `count`. -/
inductive Combines (kind : Kind) (place : Place) (left rhs : Term) (span inner : Span) :
    Term → Term → Prop where
  | mk {arith : ArithOp} {operand count : Kind}
      (supported : (operand.isInteger || arith.onFloats) = true) :
      Combines kind place left rhs span inner
        (.mk (.num kind) span
          (.update place (.arith arith operand) operand (convert rhs count) false))
        (.mk (.num operand) inner
          (.binary (.arith arith operand) (convert left operand) (convert rhs count)))

private theorem family_of_compound {op : BinaryOp} (compound : op.assignSpelling?.isSome = true) :
    (∃ arith, op.family = .arithmetic arith) ∨ ∃ arith, op.family = .bitwise arith := by
  cases op <;> first | exact Or.inl ⟨_, rfl⟩ | exact Or.inr ⟨_, rfl⟩ | cases compound

/-- The kind in which a bit operator or a shift computes is one of integers if both kinds are. -/
theorem bitwise_isInteger (arith : ArithOp) (kind other : Kind) :
    ((if isShift arith = true then kind else kind.promote other).isInteger && other.isInteger) =
      (kind.isInteger && other.isInteger) := by
  split
  · rfl
  · rw [promote_isInteger, Bool.and_assoc, Bool.and_self]

private theorem updateTerm_alike_binary {op : BinaryOp}
    (compound : op.assignSpelling?.isSome = true)
    {kind : Kind} {left : Term} (ofLeft : left.ty = .num kind) (place : Place) (rhs : Term)
    (targetSpan span inner : Span) :
    Alike (Combines kind place left rhs span inner)
      (updateTerm op (place, .num kind) targetSpan rhs false span)
      (binary op left rhs inner) := by
  have leftKind : arithKind? left.ty = some kind := by rw [ofLeft]; rfl
  rcases family_of_compound compound with ⟨arith, family⟩ | ⟨arith, family⟩
  · have noShift := not_isShift_of_arithmetic family
    cases ofRight : arithKind? rhs.ty with
    | none =>
        obtain ⟨fault, refused⟩ := commonKind_of_none op inner ofLeft ofRight
        simp only [updateTerm, binary, family, Ty.kind?, ofRight, refused]
        exact .error _ _
    | some other =>
        simp only [updateTerm, binary, family, Ty.kind?, ofRight, noShift, BinaryFn.arith?,
          commonKind_of_some op inner ofLeft ofRight, Bool.false_eq_true, if_false, bind,
          Except.bind]
        cases supported : ((kind.promote other).isInteger || arith.onFloats) with
        | true => exact .ok (.mk supported)
        | false => exact .error _ _
  · cases ofRight : arithKind? rhs.ty with
    | none =>
        simp only [updateTerm, binary, family, Ty.kind?, ofRight, integerKind?, leftKind]
        cases kind <;> exact .error _ _
    | some other =>
        have allowed := bitwise_isInteger arith kind other
        simp only [updateTerm, binary, family, Ty.kind?, ofRight, integerKind?, leftKind,
          allowed, Bool.not_true, Bool.false_or]
        cases both : (kind.isInteger && other.isInteger) with
        | false =>
            have refused (found : Option BinaryFn) : found.filter (fun _ => false) = none := by
              cases found <;> rfl
            rw [refused]
            rcases Bool.and_eq_false_iff.mp both with no | no
            · simp only [Option.filter, no, Bool.false_eq_true, if_false]
              exact .error _ _
            · simp only [Option.filter, no, Bool.false_eq_true, if_false]
              cases kind <;> exact .error _ _
        | true =>
            obtain ⟨ofKind, ofOther⟩ := Bool.and_eq_true_iff.mp both
            rw [both] at allowed
            have supported :
                ((if isShift arith = true then kind else kind.promote other).isInteger ||
                  arith.onFloats) = true := by
              rw [(Bool.and_eq_true_iff.mp allowed).1]
              rfl
            simp only [Option.filter, ofKind, ofOther, BinaryFn.arith?, supported, if_true]
            exact .ok (Combines.mk supported)

end Lowering

/-- An operator reads its operand in its kind anyway. -/
theorem ArithOp.apply_convert (op : ArithOp) (kind : Kind) (left right : Value) :
    op.apply kind (left.convert kind) right = op.apply kind left right := by
  cases kind <;> rfl

namespace Machine

/-- A number that is stored is what is there then. -/
theorem store_number (location : Location) {value : Value} {kind : Kind}
    (number : value.ty? = some (.num kind)) :
    (do
      let _ ← store location value
      return value) = store location value := by
  funext state
  cases location with
  | whole slot =>
      have stored : store (.whole slot) value state =
          .done value (state.setReference slot value) := by
        rw [store_whole]
        cases value with
        | struct address => cases number
        | _ => rfl
      rw [bind_of_done stored, stored]
      rfl
  | _ => rfl

/-- The value that the longer form assigns is what an update of the place would write. -/
theorem evaluation_combination (context : Context) {arith : ArithOp} {operand : Kind}
    (supported : (operand.isInteger || arith.onFloats) = true) (kind : Kind) (span inner : Span)
    (place : Place) (rhs : Term) :
    evaluation context
      (Lowering.convert (.mk (.num operand) inner (.binary (.arith arith operand)
        (Lowering.convert (.mk (.num kind) span (.load place)) operand) rhs)) kind) = (do
      let location ← location context place
      let old ← load location
      let value ← evaluation context rhs
      return updated (.arith arith operand) operand (.num kind) old value) := by
  rw [evaluation_of_convert, evaluation_binary, evaluation_of_convert, evaluation_load]
  by_cases same : operand = kind
  · subst same
    have unchanged (old value : Value) :
        updated (.arith arith operand) operand (.num operand) old value =
          arith.apply operand old value := by
      have typed : (arith.apply operand (old.convert operand) value).ty? = some (.num operand) :=
        ArithOp.ty?_apply supported _ _
      exact (Value.convert_of_ty? typed).trans (arith.apply_convert operand old value)
    simp only [Term.ty, if_true, bind_bind, unchanged]
    rfl
  · simp only [Term.ty, Ty.num.injEq, same, Ne.symm same, if_false, bind_bind]
    rfl

/-- Finding the place again, before anything is written, changes nothing. -/
theorem evaluation_compound (context : Context) {arith : ArithOp} {operand : Kind}
    (supported : (operand.isInteger || arith.onFloats) = true) (kind : Kind)
    (span targetSpan inner : Span) {place : Place} (reads : place.onlyReads = true) (rhs : Term) :
    evaluation context
      (.mk (.num kind) span (.update place (.arith arith operand) operand rhs false)) =
    evaluation context
      (.mk (.num kind) span (.assign place
        (Lowering.convert (.mk (.num operand) inner (.binary (.arith arith operand)
          (Lowering.convert (.mk (.num kind) targetSpan (.load place)) operand) rhs)) kind))) := by
  have number (old value : Value) :
      (updated (.arith arith operand) operand (.num kind) old value).ty? = some (.num kind) :=
    Value.ty?_convert kind _
  rw [evaluation_update, evaluation_assign, evaluation_combination context supported]
  simp only [bind_bind]
  rw [(reads_location context reads).twice]
  simp only [Bool.false_eq_true, if_false, store_number _ (number _ _)]
  rfl

end Machine

/-! ### Both forms -/

namespace Lowering

private theorem lowerPlace_onlyReads {scope : ScopeId} {tree : ScopeTree} {target : Expr}
    {place : Place}
    {ty : Ty} (reads : target.indexOnlyReads = true)
    (found : lowerPlace scope target tree = .ok (place, ty)) : place.onlyReads = true := by
  cases target with
  | ident span name =>
      rw [lowerPlace] at found
      obtain ⟨symbol, _, continued⟩ := bind_eq_ok.mp found
      split at continued
      · cases continued
        rfl
      · cases continued
        rfl
      · cases continued
  | subscript span base index =>
      rw [lowerPlace] at found
      exact elementPlace_onlyReads
        (fun term lowered => lowerExpr_onlyReads scope index tree term reads lowered) found
  | field span owner name =>
      rw [lowerPlace] at found
      exact fieldPlace_onlyReads found
  | _ => cases found

private theorem storable_number (operand kind : Kind) (span : Span) (node : Node) :
    storable (.mk (.num operand) span node) (.num kind) =
      .ok (convert (.mk (.num operand) span node) kind) := by
  by_cases same : Ty.num operand = Ty.num kind
  · simp only [storable, coerce, convert, Term.ty, same, if_true]
  · simp only [storable, coerce, Term.ty, same, if_false]

theorem compound_assignment (scope : ScopeId) (tree : ScopeTree) (target value : Expr)
    (place : Place) (kind : Kind) (op : BinaryOp) (span inner : Span)
    (numeric : lowerPlace scope target tree = .ok (place, .num kind))
    (reads : target.indexOnlyReads = true) (compound : op.assignSpelling?.isSome = true) :
    Alike (fun joined written => ∀ context, EvaluateAlike context joined written)
      (lowerExpr scope (.assign span (some op) target value) tree)
      (lowerExpr scope (.assign span none target (.binary inner op target value)) tree) := by
  obtain ⟨targetSpan, loaded⟩ := lowerExpr_of_lowerPlace numeric
  have placeReads := lowerPlace_onlyReads reads numeric
  simp only [lowerExpr, numeric, loaded, bind, Except.bind]
  cases lowerExpr scope value tree with
  | error fault => exact .error _ _
  | ok rhs =>
      simp only
      have left : (Term.mk (.num kind) targetSpan (.load place)).ty = .num kind := rfl
      have operation := updateTerm_alike_binary compound left place rhs target.span span inner
      generalize updateTerm op (place, .num kind) target.span rhs false span = joined at operation ⊢
      generalize binary op (.mk (.num kind) targetSpan (.load place)) rhs inner = written
        at operation ⊢
      cases operation with
      | error fault otherFault => exact .error _ _
      | ok combines =>
          obtain ⟨supported⟩ := combines
          simp only [storable_number]
          apply Alike.ok
          intro context
          apply evaluateAlike_of_eq
          exact evaluation_compound context supported kind span targetSpan inner placeReads _

def countersTree : ScopeTree :=
  let declared : List (String × Ty) := [("i", .num .i32), ("a", .array (.num .u32))]
  declared.foldl (fun tree (name, ty) =>
    ((tree.define? ScopeTree.root name ty).map Prod.snd).getD tree) .initial

/-- `a[i] >>= i = 2L`: the operand writes the variable of the index, and the kinds are three. -/
theorem shift_by_new_index :
    let place : Span := ⟨0, 0⟩
    let i : Expr := .ident place "i"
    let element : Expr := .subscript place (.ident place "a") i
    let value : Expr := .assign place none i (.int place ⟨2, false, true, false⟩)
    ∃ joined written,
      lowerExpr ScopeTree.root (.assign place (some .shr) element value) countersTree =
        .ok joined ∧
      lowerExpr ScopeTree.root
        (.assign place none element (.binary place .shr element value)) countersTree =
        .ok written ∧
      ∀ context, EvaluateAlike context joined written := by
  intro place i element value
  obtain ⟨⟨found, ty⟩, numeric, isNumber⟩ : ∃ result,
      lowerPlace ScopeTree.root element countersTree = .ok result ∧
        (decide (result.2 = .num .u32)) = true :=
    eq_ok_of_any (by decide +kernel)
  have isNumber : ty = .num .u32 := of_decide_eq_true isNumber
  rw [isNumber] at numeric
  obtain ⟨joined, accepted, _⟩ : ∃ term,
      lowerExpr ScopeTree.root (.assign place (some .shr) element value) countersTree = .ok term ∧
        true = true :=
    eq_ok_of_any (by decide +kernel)
  have alike := compound_assignment ScopeTree.root countersTree element value found .u32 .shr
    place place numeric rfl rfl
  rw [accepted] at alike ⊢
  generalize lowerExpr _ (.assign place none element (.binary place .shr element value)) _ = result
    at alike ⊢
  cases alike with
  | ok same => exact ⟨joined, _, rfl, rfl, same⟩

end Lowering
end MiniC
