import MiniC.Proofs.Format.Directives
import MiniC.Proofs.Token.Scanning

/-!
Digits of printed integers.

A printed integer is read back as a sign, a mark of its base and digits, the first
two where they are there. Zeros in front of the digits change nothing, and a zero
without digits is read as zero too.
-/

namespace MiniC.Format

def isDigitOf (base : Nat) (char : Char) : Bool :=
  Lexer.isHexDigit char && decide (Lexer.digitValue char < base)

def readDigits? (base : Nat) (digits : List Char) : Option Nat :=
  if digits.all (isDigitOf base) then some (Lexer.numberOf base digits) else none

/-- The number behind the mark of base sixteen, which may be left out. The mark of base eight is a
zero like any other. -/
def readMarked? (base : Nat) (text : List Char) : Option Nat :=
  match text with
  | '0' :: 'x' :: digits | '0' :: 'X' :: digits =>
      if base = 16 then readDigits? base digits else none
  | _ => readDigits? base text

def readSign (text : List Char) : Bool × List Char :=
  match text with
  | '-' :: rest => (true, rest)
  | '+' :: rest | ' ' :: rest => (false, rest)
  | _ => (false, text)

def readInteger? (base : Nat) (text : List Char) : Option Int :=
  (readMarked? base (readSign text).2).map fun size : Nat =>
    if (readSign text).1 then -(size : Int) else size

variable {base number : Nat} {digits rest : List Char}

private theorem readDigits?_of_all (areDigits : ∀ char ∈ digits, isDigitOf base char = true) :
    readDigits? base digits = some (Lexer.numberOf base digits) :=
  if_pos (List.all_eq_true.mpr areDigits)

/-- Digits alone are not taken for a mark. -/
theorem readMarked?_digits (areDigits : ∀ char ∈ digits, isDigitOf base char = true) :
    readMarked? base digits = some (Lexer.numberOf base digits) := by
  have noMark (char : Char) (listed : char ∈ digits) : char ≠ 'x' ∧ char ≠ 'X' := by
    have digit := (Bool.and_eq_true_iff.mp (areDigits char listed)).1
    constructor <;>
      · rintro rfl
        exact absurd digit (by decide)
  unfold readMarked?
  split
  · exact absurd rfl (noMark 'x' (List.mem_cons_of_mem _ List.mem_cons_self)).1
  · exact absurd rfl (noMark 'X' (List.mem_cons_of_mem _ List.mem_cons_self)).2
  · exact readDigits?_of_all areDigits

theorem readMarked?_mark (conversion : IntegerConversion)
    (areDigits : ∀ char ∈ digits, isDigitOf conversion.base char = true) :
    readMarked? conversion.base (conversion.mark ++ digits) =
      some (Lexer.numberOf conversion.base digits) := by
  cases conversion
  case x => exact readDigits?_of_all areDigits
  case X => exact readDigits?_of_all areDigits
  case o =>
    have zero : ∀ char ∈ '0' :: digits, isDigitOf 8 char = true :=
      List.forall_mem_cons.mpr ⟨rfl, areDigits⟩
    exact readMarked?_digits zero
  all_goals exact readMarked?_digits areDigits

theorem readSign_none (noSign : ∀ char, rest.head? = some char → isDigitOf 16 char = true) :
    readSign rest = (false, rest) := by
  unfold readSign
  split
  · exact absurd (noSign '-' rfl) (by decide)
  · exact absurd (noSign '+' rfl) (by decide)
  · exact absurd (noSign ' ' rfl) (by decide)
  · rfl

namespace IntegerConversion

def numeral (conversion : IntegerConversion) (number : Nat) : List Char :=
  if conversion = X then (Nat.toDigits 16 number).map Char.toUpper
  else Nat.toDigits conversion.base number

variable (conversion : IntegerConversion)

private theorem base_large : 1 < conversion.base := by cases conversion <;> decide

theorem base_small : conversion.base ≤ 16 := by cases conversion <;> decide

theorem length_numeral (number : Nat) :
    (conversion.numeral number).length = (Nat.toDigits conversion.base number).length := by
  unfold numeral
  split
  · next same => rw [same, List.length_map]; rfl
  · rfl

private theorem isDigitOf_digitChar : ∀ digit, digit < 16 →
    Lexer.isHexDigit (Nat.digitChar digit) = true ∧
      Lexer.isHexDigit (Nat.digitChar digit).toUpper = true ∧
      Lexer.digitValue (Nat.digitChar digit).toUpper = digit := by
  decide

theorem isDigitOf_of_mem_numeral {char : Char} (listed : char ∈ conversion.numeral number) :
    isDigitOf conversion.base char = true := by
  unfold numeral at listed
  split at listed
  · next same =>
      obtain ⟨lower, inside, rfl⟩ := List.mem_map.mp listed
      obtain ⟨digit, below, rfl⟩ := Lexer.exists_of_mem_toDigits (show 1 < 16 by decide) inside
      obtain ⟨_, upper, value⟩ := isDigitOf_digitChar digit below
      rw [same, isDigitOf, upper, value]
      exact decide_eq_true below
  · obtain ⟨digit, below, rfl⟩ := Lexer.exists_of_mem_toDigits conversion.base_large listed
    have small := Nat.lt_of_lt_of_le below conversion.base_small
    rw [isDigitOf, (isDigitOf_digitChar digit small).1, Lexer.digitValue_digitChar digit small]
    exact decide_eq_true below

/-- Upper case changes no digit. -/
theorem map_digitValue_numeral (number : Nat) :
    (conversion.numeral number).map Lexer.digitValue =
      (Nat.toDigits conversion.base number).map Lexer.digitValue := by
  unfold numeral
  split
  · next same =>
      rw [same, List.map_map]
      refine List.map_congr_left ?_
      intro char listed
      obtain ⟨digit, below, rfl⟩ := Lexer.exists_of_mem_toDigits (show 1 < 16 by decide) listed
      have upper := (isDigitOf_digitChar digit below).2.2
      exact upper.trans (Lexer.digitValue_digitChar digit below).symm
  · rfl

theorem numberOf_padded_numeral (zeros number : Nat) :
    Lexer.numberOf conversion.base (List.replicate zeros '0' ++ conversion.numeral number) =
      number := by
  rw [Lexer.numberOf_eq, List.map_append, conversion.map_digitValue_numeral, ← List.map_append,
    ← Lexer.numberOf_eq]
  exact Lexer.numberOf_padded conversion.base_large conversion.base_small zeros number

theorem numeral_eq_zero_iff : conversion.numeral number = ['0'] ↔ number = 0 := by
  constructor
  · intro same
    have value := conversion.numberOf_padded_numeral 0 number
    rw [same] at value
    cases conversion <;> exact value.symm
  · rintro rfl
    cases conversion <;> rfl

end IntegerConversion

/-- The digits that are shown: none for a zero with precision zero, and else zeros and the digits of
the number. -/
theorem withPrecision_numeral (spec : Spec) (conversion : IntegerConversion) (number : Nat) :
    withPrecision spec (conversion.numeral number) =
      if number = 0 ∧ spec.precision = some 0 then []
      else List.replicate (spec.precision.getD 0 - (conversion.numeral number).length) '0' ++
        conversion.numeral number := by
  unfold withPrecision
  cases spec.precision with
  | none =>
      rw [if_neg (fun both => nomatch both.2), Option.getD_none, Nat.zero_sub]
      rfl
  | some precision =>
      have same : ((precision = 0 && conversion.numeral number = ['0']) = true) ↔
          number = 0 ∧ some precision = some 0 := by
        rw [Bool.and_eq_true, decide_eq_true_eq, decide_eq_true_eq, conversion.numeral_eq_zero_iff,
          Option.some_inj, and_comm]
      simp only [same, Option.getD_some]

end MiniC.Format
