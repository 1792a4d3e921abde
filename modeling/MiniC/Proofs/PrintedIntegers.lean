import MiniC.Proofs.Format.Digits
import MiniC.Proofs.Format.Fields
import MiniC.Proofs.Value.Integers

/-!
Printed integers.

A directive gives an integer a field that is as wide as the directive asks for, and
no wider than its sign, mark and digits need otherwise. Without its padding the field
reads back as the number that the directive takes from the argument.
-/

namespace MiniC.Format

namespace IntegerDirective

variable (directive : IntegerDirective)

def bits (kind : Kind) : Nat := if kind.bits = 64 ∨ directive.spec.long = true then 64 else 32

/-- The number that is printed for an argument of the kind that stands for the number. -/
def printed (kind : Kind) (number : Int) : Int :=
  if directive.conversion.isSigned then number.bmod (2 ^ directive.bits kind)
  else number % 2 ^ directive.bits kind

def sign (printed : Int) : List Char :=
  if directive.conversion.isSigned = false then []
  else if printed < 0 then ['-']
  else if directive.spec.plus then ['+']
  else if directive.spec.space then [' ']
  else []

def mark (printed : Int) : List Char :=
  if directive.spec.alternate = true ∧ printed ≠ 0 then directive.conversion.mark else []

def digitCount (printed : Int) : Nat :=
  if printed = 0 ∧ directive.spec.precision = some 0 then 0
  else max (Nat.toDigits directive.conversion.base printed.natAbs).length
    (directive.spec.precision.getD 0)

/-- The field shows the number with the digits, as the directive asks for it. -/
structure Shows (printed : Int) (digits field : List Char) : Prop where
  digits_length : digits.length = directive.digitCount printed
  length : field.length = max directive.spec.width
    ((directive.sign printed).length + (directive.mark printed).length +
      directive.digitCount printed)
  onLeft : directive.spec.left = true → ∃ fill,
    field = directive.sign printed ++ directive.mark printed ++ digits ++ List.replicate fill ' '
  withZeros : directive.spec.left = false → directive.spec.zero = true →
    directive.spec.precision = none → ∃ fill,
      field = directive.sign printed ++ directive.mark printed ++ List.replicate fill '0' ++ digits
  onRight : directive.spec.left = false →
    directive.spec.zero = false ∨ directive.spec.precision ≠ none → ∃ fill,
      field = List.replicate fill ' ' ++ directive.sign printed ++ directive.mark printed ++ digits
  /-- With any zeros in front of the digits. -/
  reads : ∀ zeros, readInteger? directive.conversion.base
    (directive.sign printed ++ directive.mark printed ++ List.replicate zeros '0' ++ digits) =
      some printed

end IntegerDirective

section Values

variable {value : Value} {number : Int} {kind : Kind}

private theorem toI32_eq_bmod (stands : value.integer? = some number) :
    value.toI32.toInt = number.bmod (2 ^ 32) :=
  Option.some.inj (@Value.shows_convert value number .i32 rfl stands).2

private theorem toU32_eq_emod (stands : value.integer? = some number) :
    (value.toU32.toNat : Int) = number % 2 ^ 32 :=
  Option.some.inj (@Value.shows_convert value number .u32 rfl stands).2

private theorem toI64_eq_bmod (stands : value.integer? = some number) :
    value.toI64.toInt = number.bmod (2 ^ 64) :=
  Option.some.inj (@Value.shows_convert value number .i64 rfl stands).2

private theorem toU64_eq_emod (stands : value.integer? = some number) :
    (value.toU64.toNat : Int) = number % 2 ^ 64 :=
  Option.some.inj (@Value.shows_convert value number .u64 rfl stands).2

/-- An argument of a 64-bit kind, or any argument under a long modifier, is read in 64 bits. -/
theorem signedValue_eq (shows : kind.Shows value number) (long : Bool) :
    signedValue long value =
      if kind.bits = 64 ∨ long = true then number.bmod (2 ^ 64) else number.bmod (2 ^ 32) := by
  obtain ⟨ofKind, stands⟩ := shows
  rw [← toI64_eq_bmod stands, ← toI32_eq_bmod stands]
  cases value <;> cases ofKind <;> cases stands <;> cases long <;> rfl

private theorem unsignedValue_eq (shows : kind.Shows value number) (long : Bool) :
    (unsignedValue long value : Int) =
      if kind.bits = 64 ∨ long = true then number % 2 ^ 64 else number % 2 ^ 32 := by
  obtain ⟨ofKind, stands⟩ := shows
  rw [← toU64_eq_emod stands, ← toU32_eq_emod stands]
  cases value <;> cases ofKind <;> cases stands <;> cases long <;> rfl

end Values

namespace IntegerDirective

variable (directive : IntegerDirective)

def shownDigits (printed : Int) : List Char :=
  withPrecision directive.spec (directive.conversion.numeral printed.natAbs)

def field (printed : Int) : List Char :=
  padNumber directive.spec (directive.sign printed) (directive.mark printed)
    (directive.shownDigits printed) directive.spec.precision.isNone

private theorem length_shownDigits (printed : Int) :
    (directive.shownDigits printed).length = directive.digitCount printed := by
  rw [shownDigits, withPrecision_numeral, digitCount]
  simp only [Int.natAbs_eq_zero]
  split
  · rfl
  · rw [List.length_append, List.length_replicate, directive.conversion.length_numeral]
    omega

private theorem isDigitOf_of_mem_shownDigits {zeros : Nat} {printed : Int} {char : Char}
    (listed : char ∈ List.replicate zeros '0' ++ directive.shownDigits printed) :
    isDigitOf directive.conversion.base char = true := by
  have zero : isDigitOf directive.conversion.base '0' = true := by
    cases directive.conversion <;> rfl
  rw [shownDigits, withPrecision_numeral] at listed
  rcases List.mem_append.mp listed with front | listed
  · rw [List.eq_of_mem_replicate front]
    exact zero
  · split at listed
    · cases listed
    · rcases List.mem_append.mp listed with front | digit
      · rw [List.eq_of_mem_replicate front]
        exact zero
      · exact directive.conversion.isDigitOf_of_mem_numeral digit

private theorem numberOf_shownDigits (zeros : Nat) (printed : Int) :
    Lexer.numberOf directive.conversion.base
      (List.replicate zeros '0' ++ directive.shownDigits printed) = printed.natAbs := by
  rw [shownDigits, withPrecision_numeral]
  split
  · next zero =>
      rw [zero.1, List.append_nil]
      cases zeros with
      | zero => rfl
      | succ zeros =>
          have padded := directive.conversion.numberOf_padded_numeral zeros 0
          rw [directive.conversion.numeral_eq_zero_iff.mpr rfl, ← List.replicate_succ'] at padded
          exact padded
  · rw [← List.append_assoc, List.replicate_append_replicate]
    exact directive.conversion.numberOf_padded_numeral _ _

/-- The mark and the digits read back as the size of the number. -/
theorem readMarked?_field (zeros : Nat) (printed : Int) :
    readMarked? directive.conversion.base (directive.mark printed ++
      (List.replicate zeros '0' ++ directive.shownDigits printed)) = some printed.natAbs := by
  have areDigits (char : Char)
      (listed : char ∈ List.replicate zeros '0' ++ directive.shownDigits printed) :
      isDigitOf directive.conversion.base char = true :=
    directive.isDigitOf_of_mem_shownDigits listed
  rw [← directive.numberOf_shownDigits zeros printed, mark]
  split
  · exact readMarked?_mark directive.conversion areDigits
  · exact readMarked?_digits areDigits

private theorem isDigitOf_head {zeros : Nat} {printed : Int} {char : Char}
    (first : (directive.mark printed ++
      (List.replicate zeros '0' ++ directive.shownDigits printed)).head? = some char) :
    isDigitOf 16 char = true := by
  rcases head?_append_cases first with mark | digit
  · unfold IntegerDirective.mark at mark
    split at mark
    · cases same : directive.conversion <;> rw [same] at mark <;> cases mark <;> rfl
    · cases mark
  · have small := directive.isDigitOf_of_mem_shownDigits (List.mem_of_head? digit)
    have bound := directive.conversion.base_small
    unfold isDigitOf at small ⊢
    rw [Bool.and_eq_true, decide_eq_true_eq] at small ⊢
    exact ⟨small.1, Nat.lt_of_lt_of_le small.2 bound⟩

private theorem readSign_sign {printed : Int}
    (natural : directive.conversion.isSigned = false → 0 ≤ printed) {text : List Char}
    (noSign : ∀ char, text.head? = some char → isDigitOf 16 char = true) :
    readSign (directive.sign printed ++ text) = (decide (printed < 0), text) := by
  unfold sign
  split
  · next unsigned =>
      rw [decide_eq_false (Int.not_lt.mpr (natural unsigned))]
      exact readSign_none noSign
  · split
    · next negative =>
        rw [decide_eq_true negative]
        rfl
    · next positive =>
        rw [decide_eq_false positive]
        split
        · rfl
        · split
          · rfl
          · exact readSign_none noSign

private theorem readInteger?_field {printed : Int}
    (natural : directive.conversion.isSigned = false → 0 ≤ printed) (zeros : Nat) :
    readInteger? directive.conversion.base (directive.sign printed ++ directive.mark printed ++
      List.replicate zeros '0' ++ directive.shownDigits printed) = some printed := by
  rw [List.append_assoc, List.append_assoc, readInteger?,
    directive.readSign_sign natural fun char => directive.isDigitOf_head,
    directive.readMarked?_field, Option.map_some]
  dsimp only
  congr 1
  split
  · next negative =>
      rw [decide_eq_true_eq] at negative
      omega
  · next positive =>
      rw [decide_eq_true_eq] at positive
      omega

private theorem field_shows {printed : Int}
    (natural : directive.conversion.isSigned = false → 0 ≤ printed) :
    directive.Shows printed (directive.shownDigits printed) (directive.field printed) where
  digits_length := directive.length_shownDigits printed
  length := by
    rw [field, length_padNumber, directive.length_shownDigits]
  onLeft left := by
    unfold field padNumber
    rw [if_pos left]
    exact ⟨_, rfl⟩
  withZeros left zero precision := by
    unfold field padNumber
    rw [if_neg (Bool.eq_false_iff.mp left), zero, precision]
    exact ⟨_, rfl⟩
  onRight left others := by
    have spaces : (directive.spec.zero && directive.spec.precision.isNone) = false := by
      rcases others with zero | precision
      · rw [zero, Bool.false_and]
      · have given := Option.isNone_eq_false_iff.mpr (Option.isSome_iff_ne_none.mpr precision)
        rw [given, Bool.and_false]
    unfold field padNumber
    rw [if_neg (Bool.eq_false_iff.mp left), if_neg (Bool.eq_false_iff.mp spaces)]
    exact ⟨_, rfl⟩
  reads := directive.readInteger?_field natural

/-! ### What a directive prints -/

private theorem applyConversion_letter {value : Value} {printed : Int}
    (same : (if directive.conversion.isSigned then signedValue directive.spec.long value
      else (unsignedValue directive.spec.long value : Int)) = printed) (args : List Value) :
    applyConversion directive.spec directive.conversion.letter (value :: args) =
      (directive.field printed, args) := by
  subst same
  unfold field sign mark shownDigits
  generalize directive.conversion = conversion
  cases conversion <;>
    simp [applyConversion, conversion?, IntegerConversion.letter, IntegerConversion.isSigned,
      formatSigned, formatUnsigned, signOf, IntegerConversion.mark, IntegerConversion.numeral] <;>
    rfl

private theorem printed_eq {kind : Kind} {value : Value} {number : Int}
    (shows : kind.Shows value number) :
    (if directive.conversion.isSigned then signedValue directive.spec.long value
      else (unsignedValue directive.spec.long value : Int)) = directive.printed kind number := by
  rw [signedValue_eq shows, unsignedValue_eq shows, printed, bits]
  split_ifs <;> rfl

private theorem printed_natural (kind : Kind) (number : Int)
    (unsigned : directive.conversion.isSigned = false) : 0 ≤ directive.printed kind number := by
  rw [printed, unsigned, if_neg Bool.false_ne_true]
  exact Int.emod_nonneg number (pow_ne_zero _ (by decide))

/-- An integer printed by a directive stands in its field as the directive asks, and the field reads
back as the number that the directive takes from the argument. -/
theorem printed_integer_reads_back (directive : IntegerDirective) {kind : Kind} {value : Value}
    {number : Int} (shows : kind.Shows value number) (args : List Value) :
    ∃ digits, directive.Shows (directive.printed kind number) digits
      (format directive.text (directive.args ++ value :: args)).toList := by
  refine ⟨directive.shownDigits (directive.printed kind number), ?_⟩
  have read : readSpec directive.inside (directive.args ++ value :: args) =
      (directive.spec, [directive.conversion.letter], value :: args) :=
    readSpec_written directive [] (value :: args)
  have shown := applyConversion_letter directive (directive.printed_eq shows) args
  have printed : formatChars ('%' :: directive.inside) (directive.args ++ value :: args) =
      directive.field (directive.printed kind number) := by
    rw [formatChars_directive read, shown, formatChars_nil, List.append_nil]
  rw [format, String.toList_ofList, text, String.toList_ofList, printed]
  exact directive.field_shows (directive.printed_natural kind number)

/-- The directive `%#0*.*hX` with a negative width and a negative precision. -/
def negativeExtents : IntegerDirective where
  flags := ['#', '0']
  areFlags := List.all_eq_true.mp rfl
  width := .argument (.i32 (-14))
  noFlag := by decide
  precision? := some (.argument (.i32 (-1)))
  modifiers := ['h']
  areModifiers := List.all_eq_true.mp rfl
  conversion := .X

theorem minus_one_in_negativeExtents :
    Kind.i32.Shows (.i32 (-1)) (-1) ∧ negativeExtents.text = "%#0*.*hX" ∧
    (∃ digits, negativeExtents.Shows 4294967295 digits
      (format "%#0*.*hX" [.i32 (-14), .i32 (-1), .i32 (-1)]).toList) ∧
    format "%#0*.*hX" [.i32 (-14), .i32 (-1), .i32 (-1)] = "0XFFFFFFFF    " := by
  have shows : Kind.i32.Shows (.i32 (-1)) (-1) := ⟨rfl, rfl⟩
  have printed : negativeExtents.printed .i32 (-1) = 4294967295 := by decide
  have field := printed_integer_reads_back negativeExtents shows []
  rw [printed] at field
  have text : "%#0*.*hX".toList = '%' :: "#0*.*hX".toList := rfl
  have read : readSpec "#0*.*hX".toList [.i32 (-14), .i32 (-1), .i32 (-1)] =
      (⟨true, false, false, true, true, 14, none, false⟩, ['X'], [.i32 (-1)]) := rfl
  refine ⟨shows, rfl, field, ?_⟩
  rw [format, text, formatChars_directive read, formatChars_nil]
  rfl

end IntegerDirective

end MiniC.Format
