import Mathlib.Data.Int.ModEq
import MiniC.Proofs.Typing.Judgement

/-!
The numbers behind integer values.

A value of an integer kind stands for an integer, and a truth value for zero or
one. A kind holds one representative of every residue class modulo the power of
two of its width; reading a number in a kind picks that representative. So a
conversion is known by a congruence, and two conversions in a row are the second
one where the first kind is wide enough.
-/

namespace MiniC

/-- The integer that a value stands for, if it is an integer or a truth value. -/
def Value.integer? : Value → Option Int
  | .i32 number => some number.toInt
  | .u32 number => some number.toNat
  | .i64 number => some number.toInt
  | .u64 number => some number.toNat
  | .bool truth => some (if truth then 1 else 0)
  | _ => none

namespace Kind

/-- The number of the kind that is congruent to the given one: the least natural number for an
unsigned kind, the one nearest to zero for a signed kind. -/
def wrap (kind : Kind) (number : Int) : Int :=
  if kind.isUnsigned then number % 2 ^ kind.bits else number.bmod (2 ^ kind.bits)

/-- The value is of the kind and stands for the number. -/
def Shows (kind : Kind) (value : Value) (number : Int) : Prop :=
  value.ty? = some (.num kind) ∧ value.integer? = some number

theorem wrap_modEq (kind : Kind) (number : Int) :
    kind.wrap number ≡ number [ZMOD 2 ^ kind.bits] := by
  unfold wrap Int.ModEq
  split
  · exact Int.emod_emod_of_dvd number (dvd_refl _)
  · exact_mod_cast Int.bmod_emod

theorem wrap_congr (kind : Kind) {left right : Int} (same : left ≡ right [ZMOD 2 ^ kind.bits]) :
    kind.wrap left = kind.wrap right := by
  unfold wrap
  split
  · exact same
  · have same : left % (2 ^ kind.bits : Nat) = right % (2 ^ kind.bits : Nat) := by
      exact_mod_cast same
    rw [← Int.emod_bmod left, same, Int.emod_bmod]

theorem wrap_wrap {narrow wide : Kind} (fits : narrow.bits ≤ wide.bits) (number : Int) :
    narrow.wrap (wide.wrap number) = narrow.wrap number :=
  narrow.wrap_congr ((wide.wrap_modEq number).of_dvd (pow_dvd_pow 2 fits))

namespace Shows

/-- A kind holds only its own representatives. -/
theorem wrap_eq {kind : Kind} {value : Value} {number : Int} (shows : kind.Shows value number) :
    kind.wrap number = number := by
  obtain ⟨ofKind, stands⟩ := shows
  cases value <;> simp only [Value.ty?, Option.some.injEq, Ty.num.injEq, reduceCtorEq] at ofKind
  all_goals
    subst ofKind
    simp only [Value.integer?, Option.some.injEq, reduceCtorEq] at stands
  case i32 word =>
    rw [← stands]
    exact word.toInt_bmod
  case u32 word =>
    rw [← stands]
    exact Int.emod_eq_of_lt (by omega) (by exact_mod_cast word.toNat_lt)
  case i64 word =>
    rw [← stands]
    exact word.toInt_bmod
  case u64 word =>
    rw [← stands]
    exact Int.emod_eq_of_lt (by omega) (by exact_mod_cast word.toNat_lt)

/-- A value of a kind is known by its number. -/
theorem eq_of_shows {kind : Kind} {left right : Value} {number : Int}
    (shows : kind.Shows left number) (alike : kind.Shows right number) : left = right := by
  obtain ⟨leftKind, leftStands⟩ := shows
  obtain ⟨rightKind, rightStands⟩ := alike
  have same := leftStands.trans rightStands.symm
  have kinds := leftKind.trans rightKind.symm
  cases left <;> simp only [Value.integer?, reduceCtorEq] at leftStands <;>
    cases right <;>
    simp only [Value.ty?, Value.integer?, Option.some.injEq, Ty.num.injEq, Int.natCast_inj,
      reduceCtorEq] at leftKind kinds same rightStands
  · rw [Int32.toInt_inj.mp same]
  · rw [UInt32.toNat_inj.mp same]
  · rw [Int64.toInt_inj.mp same]
  · rw [UInt64.toNat_inj.mp same]

/-- The representative of a number is what a congruent value of the kind shows. -/
theorem of_modEq {kind : Kind} {value : Value} {number other : Int}
    (shows : kind.Shows value other) (same : other ≡ number [ZMOD 2 ^ kind.bits]) :
    kind.Shows value (kind.wrap number) := by
  rw [← kind.wrap_congr same, shows.wrap_eq]
  exact shows

/-- There is at most one value of a kind in a residue class. -/
theorem unique {kind : Kind} {left right : Value} {number other : Int}
    (shows : kind.Shows left number) (alike : kind.Shows right other)
    (same : number ≡ other [ZMOD 2 ^ kind.bits]) : left = right := by
  have congruent := alike.of_modEq same.symm
  rw [shows.wrap_eq] at congruent
  exact shows.eq_of_shows congruent

end Shows
end Kind

/-! ### Words -/

/-- Both readings of a word lie in its residue class. -/
theorem signed_modEq {width : Nat} (word : BitVec width) :
    word.toInt ≡ word.toNat [ZMOD 2 ^ width] := by
  rw [BitVec.toInt_eq_toNat_bmod]
  exact_mod_cast Int.bmod_emod

/-- The low half of a word lies in the same residue class modulo its own size. -/
theorem low_modEq (word : UInt64) : word.toUInt32.toNat ≡ word.toNat [ZMOD 2 ^ 32] := by
  rw [UInt64.toNat_toUInt32]
  push_cast
  exact Int.mod_modEq _ _

namespace Value

variable {value : Value} {number : Int}

private theorem toI32_modEq (stands : value.integer? = some number) :
    value.toI32.toInt ≡ number [ZMOD 2 ^ 32] := by
  cases value <;> simp only [integer?, Option.some.injEq, reduceCtorEq] at stands <;>
    subst stands
  case i32 word => exact Int.ModEq.refl _
  case u32 word => exact signed_modEq word.toBitVec
  case i64 word =>
    rw [toI32, Int64.toInt_toInt32]
    exact_mod_cast Int.bmod_emod
  case u64 word =>
    exact (signed_modEq word.toUInt32.toBitVec).trans (low_modEq word)
  case bool truth => cases truth <;> decide

theorem toU32_modEq (stands : value.integer? = some number) :
    value.toU32.toNat ≡ number [ZMOD 2 ^ 32] := by
  cases value <;> simp only [integer?, Option.some.injEq, reduceCtorEq] at stands <;>
    subst stands
  case i32 word => exact (signed_modEq word.toBitVec).symm
  case u32 word => exact Int.ModEq.refl _
  case i64 word =>
    have whole := (signed_modEq word.toBitVec).symm
    exact (low_modEq word.toUInt64).trans (whole.of_dvd (by decide))
  case u64 word => exact low_modEq word
  case bool truth => cases truth <;> decide

theorem toI64_modEq (stands : value.integer? = some number) :
    value.toI64.toInt ≡ number [ZMOD 2 ^ 64] := by
  cases value <;> simp only [integer?, Option.some.injEq, reduceCtorEq] at stands <;>
    subst stands
  case i32 word => rw [toI64, Int32.toInt_toInt64]
  case u32 word => exact signed_modEq word.toUInt64.toBitVec
  case i64 word => exact Int.ModEq.refl _
  case u64 word => exact signed_modEq word.toBitVec
  case bool truth => cases truth <;> decide

theorem toU64_modEq (stands : value.integer? = some number) :
    value.toU64.toNat ≡ number [ZMOD 2 ^ 64] := by
  cases value <;> simp only [integer?, Option.some.injEq, reduceCtorEq] at stands <;>
    subst stands
  case i32 word =>
    rw [← Int32.toInt_toInt64]
    exact (signed_modEq word.toInt64.toBitVec).symm
  case u32 word => exact Int.ModEq.refl _
  case i64 word => exact (signed_modEq word.toBitVec).symm
  case u64 word => exact Int.ModEq.refl _
  case bool truth => cases truth <;> decide

def word (kind : Kind) (value : Value) : BitVec kind.bits :=
  match kind with
  | .i32 => value.toI32.toBitVec
  | .u32 => value.toU32.toBitVec
  | .i64 => value.toI64.toBitVec
  | .u64 => value.toU64.toBitVec
  | .f32 => 0
  | .f64 => 0

def ofWord (kind : Kind) (word : BitVec kind.bits) : Value :=
  match kind with
  | .i32 => .i32 (.ofBitVec word)
  | .u32 => .u32 (.ofBitVec word)
  | .i64 => .i64 (.ofBitVec word)
  | .u64 => .u64 (.ofBitVec word)
  | .f32 => .void
  | .f64 => .void

private theorem word_modEq {kind : Kind} (isInteger : kind.isInteger = true)
    (stands : value.integer? = some number) :
    (value.word kind).toNat ≡ number [ZMOD 2 ^ kind.bits] := by
  cases kind with
  | i32 => exact (signed_modEq _).symm.trans (toI32_modEq stands)
  | u32 => exact toU32_modEq stands
  | i64 => exact (signed_modEq _).symm.trans (toI64_modEq stands)
  | u64 => exact toU64_modEq stands
  | f32 => cases isInteger
  | f64 => cases isInteger

theorem convert_eq_ofWord {kind : Kind} (isInteger : kind.isInteger = true) (value : Value) :
    value.convert kind = ofWord kind (value.word kind) := by
  cases kind <;> first | rfl | cases isInteger

end Value

namespace Kind

def reading (kind : Kind) (word : BitVec kind.bits) : Int :=
  if kind.isUnsigned then word.toNat else word.toInt

theorem reading_modEq (kind : Kind) (word : BitVec kind.bits) :
    kind.reading word ≡ word.toNat [ZMOD 2 ^ kind.bits] := by
  unfold reading
  split
  · exact Int.ModEq.refl _
  · exact signed_modEq word

theorem shows_ofWord {kind : Kind} (isInteger : kind.isInteger = true) (word : BitVec kind.bits) :
    kind.Shows (Value.ofWord kind word) (kind.reading word) := by
  cases kind <;> first | exact ⟨rfl, rfl⟩ | cases isInteger

/-- A value is known by the residue class of its bits. -/
theorem shows_of_modEq {kind : Kind} (isInteger : kind.isInteger = true) {word : BitVec kind.bits}
    {number : Int} (same : word.toNat ≡ number [ZMOD 2 ^ kind.bits]) :
    kind.Shows (Value.ofWord kind word) (kind.wrap number) :=
  (shows_ofWord isInteger word).of_modEq ((kind.reading_modEq word).trans same)

end Kind

namespace Value

variable {value : Value} {number : Int}

/-- A conversion keeps the residue class. -/
theorem shows_convert {kind : Kind} (isInteger : kind.isInteger = true)
    (stands : value.integer? = some number) :
    kind.Shows (value.convert kind) (kind.wrap number) := by
  rw [convert_eq_ofWord isInteger]
  exact Kind.shows_of_modEq isInteger (word_modEq isInteger stands)

/-- A detour over a kind that is wide enough is not noticed. -/
theorem convert_convert {narrow wide : Kind} (ofNarrow : narrow.isInteger = true)
    (ofWide : wide.isInteger = true) (fits : narrow.bits ≤ wide.bits)
    (stands : value.integer? = some number) :
    (value.convert wide).convert narrow = value.convert narrow := by
  have detour := shows_convert ofNarrow (shows_convert ofWide stands).2
  rw [Kind.wrap_wrap fits] at detour
  exact detour.eq_of_shows (shows_convert ofNarrow stands)

end Value
end MiniC
