import MiniC.Lowering.Expr
import MiniC.Proofs.Typing.Judgement

/-!
Conversions and operators build well-formed terms.

Each function of the lowering that makes a term out of terms keeps the judgement,
and what it promises about the type of its result is stated beside it.
-/

namespace MiniC

@[simp]
theorem Value.ty?_convert (kind : Kind) (value : Value) :
    (value.convert kind).ty? = some (.num kind) := by
  cases kind <;> rfl

@[simp]
theorem Value.ty?_zero (kind : Kind) : (Value.zero kind).ty? = some (.num kind) := by
  cases kind <;> rfl

theorem Value.ty?_initial {ty : Ty} (scalar : Lowering.isCondition ty = true) :
    (Value.initial ty).ty? = some ty := by
  cases ty with
  | num kind => exact Value.ty?_zero kind
  | bool => rfl
  | str => simp [Lowering.isCondition, Ty.isNumeric] at scalar
  | array element => simp [Lowering.isCondition, Ty.isNumeric] at scalar
  | func params ret => simp [Lowering.isCondition, Ty.isNumeric] at scalar
  | struct name members => simp [Lowering.isCondition, Ty.isNumeric] at scalar
  | void => simp [Lowering.isCondition, Ty.isNumeric] at scalar

namespace Lowering

open Typing

variable {setting : Setting} {vars : Variables}

/-- A computation that ends well went through its first part. -/
theorem bind_eq_ok {ε α β : Type} {first : Except ε α} {next : α → Except ε β} {result : β} :
    (first >>= next) = .ok result ↔ ∃ value, first = .ok value ∧ next value = .ok result := by
  cases first with
  | error fault => simp [bind, Except.bind]
  | ok value => simp [bind, Except.bind]

theorem map_eq_ok {ε α β : Type} {function : α → β} {first : Except ε α} {result : β} :
    (function <$> first) = .ok result ↔ ∃ value, first = .ok value ∧ function value = result := by
  cases first with
  | error fault => simp [Functor.map, Except.map]
  | ok value => simp [Functor.map, Except.map]

theorem eq_ok_of_any {ε α : Type} {result : Except ε α} {check : α → Bool}
    (holds : result.toOption.any check = true) :
    ∃ value, result = .ok value ∧ check value = true := by
  cases result with
  | error fault => cases holds
  | ok value => exact ⟨value, rfl, holds⟩

theorem isCondition_iff {ty : Ty} :
    isCondition ty = true ↔ (∃ kind, ty = .num kind) ∨ ty = .bool := by
  cases ty <;> simp [isCondition, Ty.isNumeric]

theorem arithKind?_isSome_of_eq {ty : Ty} {kind : Kind} (found : arithKind? ty = some kind) :
    (arithKind? ty).isSome = true := by
  rw [found]
  rfl

theorem integerKind?_eq_some {ty : Ty} {kind : Kind} (found : integerKind? ty = some kind) :
    arithKind? ty = some kind ∧ kind.isInteger = true :=
  Option.filter_eq_some_iff.mp found

@[simp]
theorem convert_ty (term : Term) (kind : Kind) : (convert term kind).ty = .num kind := by
  unfold convert
  split
  · assumption
  · split <;> rfl

theorem convert_typed {term : Term} (kind : Kind) (typed : term.Typed setting vars)
    (numeric : (arithKind? term.ty).isSome = true) :
    (convert term kind).Typed setting vars := by
  unfold convert
  split
  · exact typed
  · split
    · exact .natural (.literal (Value.ty?_convert kind _))
    · exact .natural (.convert typed numeric)

theorem coerce_typed {term result : Term} {target : Ty} (typed : term.Typed setting vars)
    (coerced : coerce term target = .ok result) :
    result.Typed setting vars ∧ result.ty = target := by
  unfold coerce at coerced
  split at coerced
  · rename_i same
    cases coerced
    exact ⟨typed, same⟩
  · split at coerced
    · rename_i tyEq _different
      cases coerced
      exact ⟨convert_typed _ typed (by rw [tyEq]; rfl), convert_ty _ _⟩
    · rename_i tyEq _different
      cases coerced
      exact ⟨convert_typed _ typed (by rw [tyEq]; rfl), convert_ty _ _⟩
    · rename_i tyEq _different
      cases coerced
      exact ⟨.natural (.truth typed tyEq), rfl⟩
    · cases coerced

theorem asIndex_typed {refusal : String} {term result : Term} (typed : term.Typed setting vars)
    (accepted : asIndex refusal term = .ok result) :
    result.Typed setting vars ∧ result.ty = .num .i64 := by
  unfold asIndex at accepted
  split at accepted
  · rename_i kind found
    cases accepted
    have numeric := arithKind?_isSome_of_eq (integerKind?_eq_some found).1
    have inner := convert_typed kind typed numeric
    refine ⟨convert_typed .i64 inner ?_, convert_ty _ _⟩
    rw [convert_ty]
    rfl
  · cases accepted

/-! ### Operators -/

private theorem commonKind_numeric {op : BinaryOp} {left right : Term} {span : Span} {kind : Kind}
    (found : commonKind op left right span = .ok kind) :
    (arithKind? left.ty).isSome = true ∧ (arithKind? right.ty).isSome = true := by
  have widened {ty : Ty} {other : Kind} (eq : widen ty = .num other) :
      (arithKind? ty).isSome = true := by
    cases ty <;> simp [widen, arithKind?] at eq ⊢
  unfold commonKind at found
  split at found
  · rename_i first second leftEq rightEq
    exact ⟨widened leftEq, widened rightEq⟩
  · cases found

theorem arith?_eq_some {op : ArithOp} {kind : Kind} {fn : BinaryFn}
    (found : BinaryFn.arith? op kind = some fn) :
    fn = .arith op kind ∧ (kind.isInteger || op.onFloats) = true := by
  unfold BinaryFn.arith? at found
  split at found
  · rename_i supported
    exact ⟨(Option.some.inj found).symm, supported⟩
  · cases found

private theorem operands_convert {op : ArithOp} {kind countKind : Kind} (left right : Term)
    (supported : (kind.isInteger || op.onFloats) = true)
    (count : countKind = kind ∨ (isShift op = true ∧ countKind.isInteger = true)) :
    Operands op kind (convert left kind).ty (convert right countKind).ty := by
  refine ⟨supported, convert_ty left kind, ?_⟩
  rw [convert_ty]
  rcases count with same | ⟨shift, integer⟩
  · exact Or.inl (congrArg Ty.num same)
  · exact Or.inr ⟨shift, countKind, integer, rfl⟩

theorem binary_typed {op : BinaryOp} {left right result : Term} {span : Span}
    (leftTyped : left.Typed setting vars) (rightTyped : right.Typed setting vars)
    (accepted : binary op left right span = .ok result) : result.Typed setting vars := by
  unfold binary at accepted
  simp only at accepted
  split at accepted
  -- `&&` and `||`
  · split at accepted
    · rename_i conditions
      rw [Bool.and_eq_true] at conditions
      cases accepted
      exact .natural (.logical leftTyped rightTyped conditions.1 conditions.2)
    · cases accepted
  -- comparisons
  · rename_i compare _family
    split at accepted
    · rename_i fn found
      cases accepted
      split at found
      · rename_i bools
        cases compare <;> simp only [BinaryFn.compareBool?] at found <;> try contradiction
        all_goals
          cases found
          exact .natural (.compareBool leftTyped rightTyped bools.1 bools.2)
      · cases found
    · obtain ⟨kind, common, built⟩ := bind_eq_ok.mp accepted
      cases built
      have numeric := commonKind_numeric common
      exact .natural (.compare (convert_typed kind leftTyped numeric.1)
        (convert_typed kind rightTyped numeric.2) (convert_ty _ _) (convert_ty _ _))
  -- arithmetic
  · obtain ⟨kind, common, built⟩ := bind_eq_ok.mp accepted
    have numeric := commonKind_numeric common
    split at built
    · rename_i fn found
      obtain ⟨rfl, supported⟩ := arith?_eq_some found
      cases built
      exact .natural (.arith (convert_typed kind leftTyped numeric.1)
        (convert_typed kind rightTyped numeric.2)
        (operands_convert left right supported (Or.inl rfl)))
    · cases built
  -- bit operators
  · split at accepted
    · rename_i leftKind rightKind leftFound rightFound
      obtain ⟨leftArith, _⟩ := integerKind?_eq_some leftFound
      obtain ⟨rightArith, rightInteger⟩ := integerKind?_eq_some rightFound
      split at accepted
      · rename_i fn found
        obtain ⟨rfl, supported⟩ := arith?_eq_some found
        cases accepted
        refine .natural (.arith (convert_typed _ leftTyped (arithKind?_isSome_of_eq leftArith))
          (convert_typed _ rightTyped (arithKind?_isSome_of_eq rightArith))
          (operands_convert left right supported ?_))
        split
        · rename_i shift
          exact Or.inr ⟨shift, rightInteger⟩
        · exact Or.inl rfl
      · cases accepted
    · cases accepted

theorem unary_typed {op : UnaryOp} {operand result : Term} {span : Span}
    (typed : operand.Typed setting vars) (accepted : unary op operand span = .ok result) :
    result.Typed setting vars := by
  unfold unary at accepted
  split at accepted
  · split at accepted
    · rename_i condition
      cases accepted
      exact .natural (.not typed condition)
    · cases accepted
  · split at accepted
    · cases accepted
    · rename_i kind found
      have converted := convert_typed kind typed (arithKind?_isSome_of_eq found)
      split at accepted
      · cases accepted
        exact converted
      · split at accepted
        · rename_i fn complement
          unfold UnaryFn.bitNot? at complement
          split at complement
          · rename_i integer
            cases complement
            cases accepted
            exact .natural (.bitNot converted (convert_ty _ _) integer)
          · cases complement
        · cases accepted
      · cases accepted
        exact .natural (.negate converted (convert_ty _ _))

theorem unify_typed {yes no yes' no' : Term} {ty : Ty} {span : Span}
    (yesTyped : yes.Typed setting vars) (noTyped : no.Typed setting vars)
    (accepted : unify yes no span = .ok (yes', no', ty)) :
    yes'.Typed setting vars ∧ no'.Typed setting vars ∧ yes'.ty = ty ∧ no'.ty = ty := by
  unfold unify at accepted
  split at accepted
  · rename_i same
    cases accepted
    exact ⟨yesTyped, noTyped, rfl, same.symm⟩
  · split at accepted
    · rename_i first second yesKind noKind
      cases accepted
      exact ⟨convert_typed _ yesTyped (arithKind?_isSome_of_eq yesKind),
        convert_typed _ noTyped (arithKind?_isSome_of_eq noKind), convert_ty _ _, convert_ty _ _⟩
    · cases accepted

theorem cast_typed {operand result : Term} {target : Ty} {span : Span}
    (typed : operand.Typed setting vars)
    (accepted : cast operand target span = .ok result) : result.Typed setting vars := by
  unfold cast at accepted
  simp only at accepted
  split at accepted
  · split at accepted
    · rename_i numeric
      cases accepted
      exact convert_typed _ typed numeric
    · cases accepted
  · split at accepted
    · exact (coerce_typed typed accepted).1
    · cases accepted
  · cases accepted
    cases typed with
    | natural node => exact .discarded node
    | discarded node => exact .discarded node
  · cases accepted

end Lowering
end MiniC
