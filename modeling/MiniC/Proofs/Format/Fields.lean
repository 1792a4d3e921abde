import Mathlib.Data.Nat.Digits.Defs
import Mathlib.Tactic.SplitIfs
import MiniC.Proofs.Format.Reading

/-!
The sizes of fields.

Width and precision are cut where they are read, whether digits or an argument give them. A number
has at most 64 digits, so its field has at most as many characters as the greatest width, and two
more for a sign or a mark in front of digits that fill the precision.
-/

namespace MiniC.Format

variable {char : Char} {spec : Spec} {digits : List Char}

structure Spec.Bounded (spec : Spec) : Prop where
  width : spec.width ≤ maxField
  precision : ∀ precision, spec.precision = some precision → precision ≤ maxField

namespace Spec.Bounded

theorem plain : Spec.plain.Bounded := ⟨Nat.zero_le _, nofun⟩

theorem flag? {after : Spec} (bounded : spec.Bounded) (set : spec.flag? char = some after) :
    after.Bounded := by
  unfold Spec.flag? at set
  split at set <;> cases set <;> exact ⟨bounded.width, bounded.precision⟩

theorem readFlags (bounded : spec.Bounded) (text : List Char) :
    (readFlags spec text).1.Bounded := by
  induction text generalizing spec with
  | nil => exact bounded
  | cons char rest ih =>
      rw [Format.readFlags]
      split
      · next after set => exact ih (bounded.flag? set)
      · exact bounded

theorem readWidth (bounded : spec.Bounded) (text : List Char) (args : List Value) :
    (readWidth spec text args).1.Bounded := by
  unfold Format.readWidth
  split
  · exact ⟨Nat.min_le_left _ _, bounded.precision⟩
  · exact ⟨Nat.min_le_left _ _, bounded.precision⟩

theorem readPrecision (bounded : spec.Bounded) (text : List Char) (args : List Value) :
    (readPrecision spec text args).1.Bounded := by
  unfold Format.readPrecision
  split
  · refine ⟨bounded.width, ?_⟩
    intro precision taken
    dsimp only at taken
    split at taken
    · cases taken
    · cases taken
      exact Nat.min_le_left _ _
  · refine ⟨bounded.width, ?_⟩
    rintro precision ⟨⟩
    exact Nat.min_le_left _ _
  · exact bounded

/-- What is read of a directive is bounded, whatever digits and arguments say. -/
theorem readSpec (text : List Char) (args : List Value) : (readSpec text args).1.Bounded := by
  have flags := plain.readFlags text
  have width := flags.readWidth (Format.readFlags .plain text).2 args
  have precision := width.readPrecision
    (Format.readWidth (Format.readFlags .plain text).1 (Format.readFlags .plain text).2 args).2.1
    (Format.readWidth (Format.readFlags .plain text).1 (Format.readFlags .plain text).2 args).2.2
  exact ⟨precision.width, precision.precision⟩

end Spec.Bounded

theorem length_padText (spec : Spec) (text : List Char) :
    (padText spec text).length = max spec.width text.length := by
  unfold padText
  split_ifs <;> simp only [List.length_append, List.length_replicate] <;> omega

theorem length_padNumber (spec : Spec) (sign mark body : List Char) (zeros : Bool) :
    (padNumber spec sign mark body zeros).length =
      max spec.width (sign.length + mark.length + body.length) := by
  unfold padNumber
  split_ifs <;> simp only [List.length_append, List.length_replicate] <;> omega

private theorem length_withPrecision_le (bounded : spec.Bounded)
    (short : digits.length ≤ maxField) :
    (withPrecision spec digits).length ≤ maxField := by
  unfold withPrecision
  split
  · exact short
  · next precision given =>
      have most := bounded.precision precision given
      split
      · exact Nat.zero_le _
      · rw [List.length_append, List.length_replicate]
        omega

private theorem length_toDigits_le {base number : Nat} (large : 2 ≤ base)
    (small : number < 2 ^ 64) :
    (Nat.toDigits base number).length ≤ 64 :=
  Nat.toDigits_length base number 64 (by decide)
    (Nat.lt_of_lt_of_le small (Nat.pow_le_pow_left large 64))

theorem natAbs_toInt_lt (number : Int64) : number.toInt.natAbs < 2 ^ 64 := by
  have low := number.le_toInt
  have high := number.toInt_lt
  omega

private theorem natAbs_signedValue_lt (long : Bool) (arg : Value) :
    (signedValue long arg).natAbs < 2 ^ 64 := by
  have narrow (number : Int32) : number.toInt.natAbs < 2 ^ 64 := by
    have low := number.le_toInt
    have high := number.toInt_lt
    omega
  unfold signedValue
  split
  · exact natAbs_toInt_lt _
  · exact natAbs_toInt_lt _
  · split
    · exact natAbs_toInt_lt _
    · exact narrow _

private theorem unsignedValue_lt (long : Bool) (arg : Value) : unsignedValue long arg < 2 ^ 64 := by
  have narrow (number : UInt32) : number.toNat < 2 ^ 64 :=
    Nat.lt_trans number.toNat_lt (by decide)
  unfold unsignedValue
  split
  · exact UInt64.toNat_lt _
  · exact UInt64.toNat_lt _
  · split
    · exact UInt64.toNat_lt _
    · exact narrow _

private theorem length_signOf_le (spec : Spec) (negative : Bool) :
    (signOf spec negative).length ≤ 1 := by
  unfold signOf
  split_ifs <;> decide

/-- A number that is shown as a text has its digits and perhaps a sign. -/
theorem length_toString_le {number : Int} (small : number.natAbs < 2 ^ 64) :
    (toString number).toList.length ≤ 65 := by
  have digits (size : Nat) (same : number.natAbs = size) :
      (toString size).toList.length ≤ 64 := by
    rw [same] at small
    have shown : (toString size).toList = Nat.toDigits 10 size := String.toList_ofList
    rw [shown]
    exact length_toDigits_le (by decide) small
  cases number with
  | ofNat size => exact (digits size rfl).trans (by decide)
  | negSucc size =>
      have shown : (toString (Int.negSucc size)).toList = '-' :: (toString (size + 1)).toList :=
        String.toList_append
      rw [shown, List.length_cons]
      exact Nat.succ_le_succ (digits (size + 1) rfl)

/-! ### Conversions -/

theorem length_formatSigned_le (bounded : spec.Bounded) (arg : Value) :
    (formatSigned spec arg).length ≤ maxField + 2 := by
  have short := length_toDigits_le (show 2 ≤ 10 by decide) (natAbs_signedValue_lt spec.long arg)
  have digits := length_withPrecision_le bounded (short.trans (by decide))
  have sign := length_signOf_le spec (signedValue spec.long arg < 0)
  have width := bounded.width
  unfold formatSigned
  dsimp only
  rw [length_padNumber, List.length_nil]
  omega

theorem length_formatUnsigned_le (bounded : spec.Bounded) {radix : Radix} (large : 2 ≤ radix.base)
    (short : radix.mark.length ≤ 2) (arg : Value) :
    (formatUnsigned spec radix arg).length ≤ maxField + 2 := by
  unfold formatUnsigned
  generalize values : unsignedValue spec.long arg = value
  have small := unsignedValue_lt spec.long arg
  rw [values] at small
  have digits : (if radix.upper then (Nat.toDigits radix.base value).map Char.toUpper
      else Nat.toDigits radix.base value).length ≤ maxField := by
    have few := length_toDigits_le large small
    split
    · rw [List.length_map]
      exact few.trans (by decide)
    · exact few.trans (by decide)
  have mark : (if spec.alternate && value != 0 then radix.mark else []).length ≤ 2 := by
    split
    · exact short
    · exact Nat.zero_le _
  have body := length_withPrecision_le bounded digits
  have width := bounded.width
  dsimp only
  rw [length_padNumber, List.length_nil]
  omega

end MiniC.Format
