import MiniC.Proofs.Format.Stages

/-!
Directives for integers.

A directive is put together from flags, a width, a precision, length modifiers and a
conversion, each of them as it is written. What it says is given by these parts, and
it is what is read of its text.
-/

namespace MiniC.Format

inductive Extent where
  | digits (text : List Char) (areDigits : ∀ char ∈ text, isDigit char = true)
  | argument (arg : Value)

namespace Extent

def text : Extent → List Char
  | digits text _ => text
  | argument _ => ['*']

def args : Extent → List Value
  | digits _ _ => []
  | argument arg => [arg]

def number : Extent → Int
  | digits text _ => Nat.ofDigitChars 10 text 0
  | argument arg => arg.toI64.toInt

end Extent

inductive IntegerConversion where
  | d
  | i
  | u
  | o
  | x
  | X
deriving DecidableEq

namespace IntegerConversion

def letter : IntegerConversion → Char
  | d => 'd'
  | i => 'i'
  | u => 'u'
  | o => 'o'
  | x => 'x'
  | X => 'X'

def isSigned (conversion : IntegerConversion) : Bool := conversion = d || conversion = i

def base : IntegerConversion → Nat
  | o => 8
  | x | X => 16
  | d | i | u => 10

def mark : IntegerConversion → List Char
  | o => ['0']
  | x => ['0', 'x']
  | X => ['0', 'X']
  | d | i | u => []

end IntegerConversion

structure IntegerDirective where
  flags : List Char
  areFlags : ∀ char ∈ flags, isFlag char = true
  width : Extent
  /-- A zero in front of a width is a flag. -/
  noFlag : width.text.head? ≠ some '0'
  precision? : Option Extent
  modifiers : List Char
  areModifiers : ∀ char ∈ modifiers, isModifier char = true
  conversion : IntegerConversion

namespace IntegerDirective

variable (directive : IntegerDirective)

def precisionText : List Char :=
  match directive.precision? with
  | none => []
  | some extent => '.' :: extent.text

def inside : List Char :=
  directive.flags ++ (directive.width.text ++ (directive.precisionText ++
    (directive.modifiers ++ [directive.conversion.letter])))

def text : String := String.ofList ('%' :: directive.inside)

def args : List Value :=
  directive.width.args ++ (directive.precision?.map Extent.args).getD []

/-- What the directive says. A negative width is one on the left; a negative precision is none. -/
def spec : Spec where
  left := directive.flags.contains '-' || directive.width.number < 0
  plus := directive.flags.contains '+'
  space := directive.flags.contains ' '
  zero := directive.flags.contains '0'
  alternate := directive.flags.contains '#'
  width := min maxField directive.width.number.natAbs
  precision := directive.precision?.bind fun extent =>
    if extent.number < 0 then none else some (min maxField extent.number.toNat)
  long := directive.modifiers.any isLongModifier

end IntegerDirective

variable {char : Char} {text rest : List Char} {args : List Value}

private theorem isFlag_cases (flag : isFlag char = true) :
    char = '-' ∨ char = '+' ∨ char = ' ' ∨ char = '0' ∨ char = '#' := by
  simpa [isFlag, or_assoc] using flag

private theorem readFlags_written {flags : List Char}
    (areFlags : ∀ char ∈ flags, isFlag char = true)
    (noFlag : ∀ char, rest.head? = some char → isFlag char = false) (spec : Spec) :
    readFlags spec (flags ++ rest) =
      ({ spec with
          left := spec.left || flags.contains '-'
          plus := spec.plus || flags.contains '+'
          space := spec.space || flags.contains ' '
          zero := spec.zero || flags.contains '0'
          alternate := spec.alternate || flags.contains '#' }, rest) := by
  induction flags generalizing spec with
  | nil =>
      simp only [List.nil_append, List.contains_nil, Bool.or_false]
      cases rest with
      | nil => rfl
      | cons char rest =>
          have unset := isSome_flag? spec char
          rw [noFlag char rfl, Option.isSome_eq_false_iff, Option.isNone_iff_eq_none] at unset
          rw [readFlags, unset]
  | cons flag flags ih =>
      rw [List.forall_mem_cons] at areFlags
      rcases isFlag_cases areFlags.1 with rfl | rfl | rfl | rfl | rfl <;>
        simp only [List.cons_append, readFlags, Spec.flag?, ih areFlags.2, List.contains_cons] <;>
        simp

private theorem readField_written (areDigits : ∀ char ∈ text, isDigit char = true)
    (noDigit : ∀ char, rest.head? = some char → isDigit char = false) :
    readField (text ++ rest) = (min maxField (Nat.ofDigitChars 10 text 0), rest) := by
  have stop : rest.takeWhile isDigit = [] ∧ rest.dropWhile isDigit = rest := by
    cases rest with
    | nil => exact ⟨rfl, rfl⟩
    | cons char rest =>
        have fails := noDigit char rfl
        rw [List.takeWhile_cons, List.dropWhile_cons, fails]
        exact ⟨rfl, rfl⟩
  have number : fieldOf text = min maxField (Nat.ofDigitChars 10 text 0) := by
    simp only [fieldOf, Nat.ofDigitChars, Nat.mul_comm]
  rw [readField, List.takeWhile_append_of_pos areDigits, List.dropWhile_append_of_pos areDigits,
    stop.1, stop.2, List.append_nil, number]

structure Last (char : Char) : Prop where
  noFlag : isFlag char = false
  noDigit : isDigit char = false
  noPoint : char ≠ '.'
  noStar : char ≠ '*'

private theorem last_of_isModifier (modifier : isModifier char = true) : Last char := by
  have listed : char = 'l' ∨ char = 'L' ∨ char = 'j' ∨ char = 'q' ∨ char = 'h' ∨ char = 'z' ∨
      char = 't' := by
    simpa [isModifier, isLongModifier, or_assoc] using modifier
  rcases listed with rfl | rfl | rfl | rfl | rfl | rfl | rfl <;>
    exact ⟨rfl, rfl, by decide, by decide⟩

private theorem not_isFlag_of_isDigit (digit : isDigit char = true) (noZero : char ≠ '0') :
    isFlag char = false := by
  rw [Bool.eq_false_iff]
  intro flag
  rcases isFlag_cases flag with rfl | rfl | rfl | rfl | rfl
  case inr.inr.inr.inl => exact noZero rfl
  all_goals exact absurd digit (by decide)

private theorem last_letter (conversion : IntegerConversion) : Last conversion.letter := by
  cases conversion <;> exact ⟨rfl, rfl, by decide, by decide⟩

private theorem letter_not_isModifier (conversion : IntegerConversion) :
    isModifier conversion.letter = false := by
  cases conversion <;> rfl

theorem head?_append_cases {first : List Char} (begins : (first ++ rest).head? = some char) :
    first.head? = some char ∨ rest.head? = some char := by
  cases first with
  | nil => exact .inr begins
  | cons other first => exact .inl begins

namespace IntegerDirective

variable (directive : IntegerDirective) (behind : List Char)

/-- What is written behind the precision. -/
def ending : List Char := directive.modifiers ++ directive.conversion.letter :: behind

variable {directive behind}

private theorem last_of_ending (begins : (directive.ending behind).head? = some char) :
    Last char := by
  rcases head?_append_cases begins with modifier | letter
  · exact last_of_isModifier (directive.areModifiers char (List.mem_of_head? modifier))
  · cases letter
    exact last_letter directive.conversion

private theorem last_or_point
    (begins : (directive.precisionText ++ directive.ending behind).head? = some char) :
    char = '.' ∨ Last char := by
  rcases head?_append_cases begins with point | ends
  · unfold precisionText at point
    split at point
    · cases point
    · cases point
      exact .inl rfl
  · exact .inr (last_of_ending ends)

private theorem no_digit_behind_width
    (begins : (directive.precisionText ++ directive.ending behind).head? = some char) :
    isDigit char = false ∧ char ≠ '*' := by
  rcases last_or_point begins with rfl | last
  · exact ⟨rfl, by decide⟩
  · exact ⟨last.noDigit, last.noStar⟩

private theorem no_flag_behind_flags
    (begins : (directive.width.text ++ (directive.precisionText ++ directive.ending behind)).head? =
      some char) : isFlag char = false := by
  rcases head?_append_cases begins with first | later
  · have noZero := directive.noFlag
    rw [first] at noZero
    cases same : directive.width with
    | argument arg =>
        rw [same] at first
        cases first
        rfl
    | digits text areDigits =>
        rw [same] at first
        have digit := areDigits char (List.mem_of_head? first)
        exact not_isFlag_of_isDigit digit fun zero => noZero (congrArg some zero)
  · rcases last_or_point later with rfl | last
    · rfl
    · exact last.noFlag

end IntegerDirective

/-! ### What is read -/

private theorem no_star_of_digits (areDigits : ∀ char ∈ text, isDigit char = true)
    (noStar : ∀ char, rest.head? = some char → char ≠ '*') : (text ++ rest).head? ≠ some '*' := by
  intro star
  rcases head?_append_cases star with digit | later
  · exact absurd (areDigits '*' (List.mem_of_head? digit)) (by decide)
  · exact noStar '*' later rfl

private theorem Extent.digits_not_neg (areDigits : ∀ char ∈ text, isDigit char = true) :
    ¬ (Extent.digits text areDigits).number < 0 :=
  Int.not_lt.mpr (Int.natCast_nonneg _)

private theorem readWidth_written (extent : Extent)
    (noDigit : ∀ char, rest.head? = some char → isDigit char = false ∧ char ≠ '*')
    (spec : Spec) (args : List Value) :
    readWidth spec (extent.text ++ rest) (extent.args ++ args) =
      ({ spec with
          left := spec.left || extent.number < 0
          width := min maxField extent.number.natAbs }, rest, args) := by
  cases extent with
  | argument arg => rfl
  | digits text areDigits =>
      have plain := no_star_of_digits areDigits fun char first => (noDigit char first).2
      refine (readWidth_digits plain spec args).trans ?_
      rw [readField_written areDigits fun char first => (noDigit char first).1,
        decide_eq_false (Extent.digits_not_neg areDigits), Bool.or_false]
      rfl

namespace IntegerDirective

variable {directive : IntegerDirective} {behind : List Char}

private theorem readPrecision_written {spec : Spec} (unset : spec.precision = none)
    (args : List Value) :
    readPrecision spec (directive.precisionText ++ directive.ending behind)
        ((directive.precision?.map Extent.args).getD [] ++ args) =
      ({ spec with precision := directive.spec.precision }, directive.ending behind, args) := by
  unfold precisionText IntegerDirective.spec
  cases directive.precision? with
  | none =>
      have plain : (directive.ending behind).head? ≠ some '.' := fun point =>
        (last_of_ending point).noPoint rfl
      refine (readPrecision_none plain spec args).trans ?_
      rw [Option.bind_none, ← unset]
  | some extent =>
      cases extent with
      | argument arg => rfl
      | digits text areDigits =>
          have plain := no_star_of_digits areDigits fun char first =>
            (@last_of_ending _ directive behind first).noStar
          refine (readPrecision_digits plain spec args).trans ?_
          rw [readField_written areDigits fun char first => (last_of_ending first).noDigit,
            Option.bind_some, if_neg (Extent.digits_not_neg areDigits), Extent.number,
            Int.toNat_natCast]

private theorem readLength_written {spec : Spec} :
    readLength spec (directive.ending behind) =
      ({ spec with long := directive.spec.long }, directive.conversion.letter :: behind) := by
  have stop := letter_not_isModifier directive.conversion
  rw [readLength, ending, List.takeWhile_append_of_pos directive.areModifiers,
    List.dropWhile_append_of_pos directive.areModifiers, List.takeWhile_cons, List.dropWhile_cons,
    stop]
  simp only [Bool.false_eq_true, if_false, List.append_nil]
  rfl

/-- What is read of a directive is what it says, and its arguments are taken. -/
theorem readSpec_written (directive : IntegerDirective) (behind : List Char) (args : List Value) :
    readSpec (directive.flags ++ (directive.width.text ++
        (directive.precisionText ++ directive.ending behind))) (directive.args ++ args) =
      (directive.spec, directive.conversion.letter :: behind, args) := by
  simp only [readSpec, IntegerDirective.args, List.append_assoc,
    readFlags_written directive.areFlags fun char => no_flag_behind_flags,
    readWidth_written directive.width fun char => no_digit_behind_width]
  rw [readPrecision_written rfl]
  simp only [readLength_written, Spec.plain, Bool.false_or]
  rfl

end IntegerDirective
end MiniC.Format
