import MiniC.Value
import MiniC.Decimal.Fixed

/-!
Formatted text in the manner of `printf`.

A format is read from left to right. A directive takes flags, a width, a
precision, length modifiers and a conversion; each `*` and most conversions take
one argument. Missing arguments read as zero or as the empty text. Width and
precision never exceed `maxField`.
-/

namespace MiniC.Format

def maxField : Nat := 4096

structure Spec where
  left : Bool
  plus : Bool
  space : Bool
  zero : Bool
  alternate : Bool
  width : Nat
  precision : Option Nat
  long : Bool

def Spec.plain : Spec := ⟨false, false, false, false, false, 0, none, false⟩

def Spec.flag? (spec : Spec) (char : Char) : Option Spec :=
  match char with
  | '-' => some { spec with left := true }
  | '+' => some { spec with plus := true }
  | ' ' => some { spec with space := true }
  | '0' => some { spec with zero := true }
  | '#' => some { spec with alternate := true }
  | _ => none

def readFlags (spec : Spec) : List Char → Spec × List Char
  | [] => (spec, [])
  | char :: rest =>
      match spec.flag? char with
      | some spec => readFlags spec rest
      | none => (spec, char :: rest)

def isDigit (char : Char) : Bool := '0' ≤ char && char ≤ '9'

def fieldOf (digits : List Char) : Nat :=
  min maxField (digits.foldl (fun number digit => number * 10 + (digit.toNat - '0'.toNat)) 0)

def readField (text : List Char) : Nat × List Char :=
  (fieldOf (text.takeWhile isDigit), text.dropWhile isDigit)

def nextInt (args : List Value) : Int × List Value :=
  match args with
  | [] => (0, [])
  | arg :: rest => (arg.toI64.toInt, rest)

def readWidth (spec : Spec) (text : List Char) (args : List Value) :
    Spec × List Char × List Value :=
  match text with
  | '*' :: rest =>
      let (width, args) := nextInt args
      ({ spec with left := spec.left || width < 0, width := min maxField width.natAbs }, rest, args)
  | _ =>
      let (width, rest) := readField text
      ({ spec with width }, rest, args)

def readPrecision (spec : Spec) (text : List Char) (args : List Value) :
    Spec × List Char × List Value :=
  match text with
  | '.' :: '*' :: rest =>
      let (precision, args) := nextInt args
      let field := if precision < 0 then none else some (min maxField precision.toNat)
      ({ spec with precision := field }, rest, args)
  | '.' :: rest =>
      let (precision, rest) := readField rest
      ({ spec with precision := some precision }, rest, args)
  | _ => (spec, text, args)

def isLongModifier (char : Char) : Bool :=
  char = 'l' || char = 'L' || char = 'j' || char = 'q'

def isModifier (char : Char) : Bool :=
  isLongModifier char || char = 'h' || char = 'z' || char = 't'

def readLength (spec : Spec) (text : List Char) : Spec × List Char :=
  ({ spec with long := (text.takeWhile isModifier).any isLongModifier }, text.dropWhile isModifier)

def readSpec (text : List Char) (args : List Value) : Spec × List Char × List Value :=
  let (spec, text) := readFlags .plain text
  let (spec, text, args) := readWidth spec text args
  let (spec, text, args) := readPrecision spec text args
  let (spec, text) := readLength spec text
  (spec, text, args)

private theorem readFlags_length_le (spec : Spec) (text : List Char) :
    (readFlags spec text).2.length ≤ text.length := by
  induction text generalizing spec with
  | nil => exact Nat.le_refl _
  | cons char rest ih =>
      simp only [readFlags]
      split
      · exact Nat.le_succ_of_le (ih _)
      · exact Nat.le_refl _

theorem readField_length_le (text : List Char) : (readField text).2.length ≤ text.length :=
  (List.dropWhile_sublist isDigit).length_le

theorem readWidth_length_le (spec : Spec) (text : List Char) (args : List Value) :
    (readWidth spec text args).2.1.length ≤ text.length := by
  unfold readWidth
  split
  · exact Nat.le_succ _
  · exact readField_length_le text

theorem readPrecision_length_le (spec : Spec) (text : List Char) (args : List Value) :
    (readPrecision spec text args).2.1.length ≤ text.length := by
  unfold readPrecision
  split
  · exact Nat.le_succ_of_le (Nat.le_succ _)
  · exact Nat.le_succ_of_le (readField_length_le _)
  · exact Nat.le_refl _

theorem readLength_length_le (spec : Spec) (text : List Char) :
    (readLength spec text).2.length ≤ text.length :=
  (List.dropWhile_sublist isModifier).length_le

theorem readSpec_length_le (text : List Char) (args : List Value) :
    (readSpec text args).2.1.length ≤ text.length := by
  have flags := readFlags_length_le .plain text
  have width := readWidth_length_le (readFlags .plain text).1 (readFlags .plain text).2 args
  simp only [readSpec]
  generalize readWidth _ _ _ = afterWidth at *
  have precision := readPrecision_length_le afterWidth.1 afterWidth.2.1 afterWidth.2.2
  generalize readPrecision _ _ _ = afterPrecision at *
  have length := readLength_length_le afterPrecision.1 afterPrecision.2.1
  exact Nat.le_trans length (Nat.le_trans precision (Nat.le_trans width flags))

def padText (spec : Spec) (text : List Char) : List Char :=
  let fill := List.replicate (spec.width - text.length) ' '
  if spec.left then text ++ fill else fill ++ text

/-- A number in a field; `zeros` tells whether zeros may fill it between sign and digits. -/
def padNumber (spec : Spec) (sign base body : List Char) (zeros : Bool) : List Char :=
  let fill := spec.width - (sign.length + base.length + body.length)
  if spec.left then sign ++ base ++ body ++ List.replicate fill ' '
  else if spec.zero && zeros then sign ++ base ++ List.replicate fill '0' ++ body
  else List.replicate fill ' ' ++ sign ++ base ++ body

def signOf (spec : Spec) (negative : Bool) : List Char :=
  if negative then ['-'] else if spec.plus then ['+'] else if spec.space then [' '] else []

/-- Digits with zeros in front up to the precision; a zero with precision zero has none. -/
def withPrecision (spec : Spec) (digits : List Char) : List Char :=
  match spec.precision with
  | none => digits
  | some precision =>
      if precision = 0 && digits = ['0'] then []
      else List.replicate (precision - digits.length) '0' ++ digits

/-! ### Conversions -/

/-- The signed value of an argument: 64 bits when it has them or the directive asks for them. -/
def signedValue (long : Bool) (arg : Value) : Int :=
  match arg with
  | .i64 _ | .u64 _ => arg.toI64.toInt
  | _ => if long then arg.toI64.toInt else arg.toI32.toInt

def unsignedValue (long : Bool) (arg : Value) : Nat :=
  match arg with
  | .i64 _ | .u64 _ => arg.toU64.toNat
  | _ => if long then arg.toU64.toNat else arg.toU32.toNat

def formatSigned (spec : Spec) (arg : Value) : List Char :=
  let value := signedValue spec.long arg
  let digits := withPrecision spec (Nat.toDigits 10 value.natAbs)
  padNumber spec (signOf spec (value < 0)) [] digits spec.precision.isNone

structure Radix where
  base : Nat
  mark : List Char
  upper : Bool

def formatUnsigned (spec : Spec) (radix : Radix) (arg : Value) : List Char :=
  let value := unsignedValue spec.long arg
  let plain := Nat.toDigits radix.base value
  let digits := if radix.upper then plain.map Char.toUpper else plain
  let mark := if spec.alternate && value != 0 then radix.mark else []
  padNumber spec [] mark (withPrecision spec digits) spec.precision.isNone

def charOf (code : UInt32) : Char :=
  if code.toNat.isValidChar then Char.ofNat code.toNat else '\ufffd'

def formatText (spec : Spec) (arg? : Option Value) : List Char :=
  let text :=
    match arg? with
    | some (.str text) => text.toList
    | some other => (toString other.toI64.toInt).toList
    | none => []
  padText spec (match spec.precision with
    | some precision => text.take precision
    | none => text)

def stripZeros (text : List Char) : List Char :=
  if text.contains '.' then
    ((text.reverse.dropWhile (· = '0')).dropWhile (· = '.')).reverse
  else text

def exponentText (upper : Bool) (exponent : Int) : List Char :=
  (if upper then 'E' else 'e') :: (if exponent < 0 then '-' else '+') ::
    Decimal.paddedDigits 2 exponent.natAbs

def scientificText (scaled : Decimal.Scaled) (places : Nat) (upper : Bool) : List Char :=
  let number := scaled.scientific places
  number.mantissa ++ exponentText upper number.exponent

/-- The shorter of plain and scientific notation for a number of significant digits: plain from
`1e-4` on, as long as the digits reach to the point. -/
def generalText (scaled : Decimal.Scaled) (precision : Nat) (alternate upper : Bool) : List Char :=
  let significant := max precision 1
  let number := scaled.scientific (significant - 1)
  let strip (text : List Char) : List Char := if alternate then text else stripZeros text
  if -4 ≤ number.exponent ∧ number.exponent < significant then
    strip (scaled.fixed (significant - 1 - number.exponent).toNat)
  else strip number.mantissa ++ exponentText upper number.exponent

inductive Style where
  | fixed
  | scientific
  | general

def formatFloat (spec : Spec) (style : Style) (upper : Bool) (arg : Float) : List Char :=
  let precision := spec.precision.getD 6
  let name (text : String) : List Char := (if upper then text.toUpper else text).toList
  match Decimal.magnitude arg with
  | .nan => padNumber spec (signOf spec false) [] (name "nan") false
  | .infinite => padNumber spec (signOf spec (Decimal.signBit arg)) [] (name "inf") false
  | .finite scaled =>
      let body :=
        match style with
        | .fixed => scaled.fixed precision
        | .scientific => scientificText scaled precision upper
        | .general => generalText scaled precision spec.alternate upper
      padNumber spec (signOf spec (Decimal.signBit arg)) [] body true

/-- A conversion that takes one argument; the argument is absent when the list has run out. -/
def conversion? (spec : Spec) (char : Char) : Option (Option Value → List Char) :=
  let orZero (arg? : Option Value) : Value := arg?.getD (.i32 0)
  match char with
  | 'd' | 'i' => some fun arg? => formatSigned spec (orZero arg?)
  | 'u' => some fun arg? => formatUnsigned spec ⟨10, [], false⟩ (orZero arg?)
  | 'x' => some fun arg? => formatUnsigned spec ⟨16, ['0', 'x'], false⟩ (orZero arg?)
  | 'X' => some fun arg? => formatUnsigned spec ⟨16, ['0', 'X'], true⟩ (orZero arg?)
  | 'o' => some fun arg? => formatUnsigned spec ⟨8, ['0'], false⟩ (orZero arg?)
  | 'c' => some fun arg? => padText spec [charOf (orZero arg?).toU32]
  | 's' => some (formatText spec)
  | 'f' => some fun arg? => formatFloat spec .fixed false (arg?.elim 0.0 Value.toF64).toFloat
  | 'F' => some fun arg? => formatFloat spec .fixed true (arg?.elim 0.0 Value.toF64).toFloat
  | 'e' => some fun arg? => formatFloat spec .scientific false (arg?.elim 0.0 Value.toF64).toFloat
  | 'E' => some fun arg? => formatFloat spec .scientific true (arg?.elim 0.0 Value.toF64).toFloat
  | 'g' => some fun arg? => formatFloat spec .general false (arg?.elim 0.0 Value.toF64).toFloat
  | 'G' => some fun arg? => formatFloat spec .general true (arg?.elim 0.0 Value.toF64).toFloat
  | _ => none

/-- The text of a directive with a given conversion, and the arguments that are left. An unknown
conversion stands for itself behind a percent sign. -/
def applyConversion (spec : Spec) (char : Char) (args : List Value) : List Char × List Value :=
  match conversion? spec char with
  | some convert => (convert args.head?, args.tail)
  | none => if char = '%' then (['%'], args) else (['%', char], args)

/-- The formatted text. A format that ends inside a directive ends with a percent sign. -/
def formatChars (text : List Char) (args : List Value) : List Char :=
  match text with
  | [] => []
  | char :: rest =>
      if char = '%' then
        match read : readSpec rest args with
        | (_, [], _) => ['%']
        | (spec, conversion :: behind, given) =>
            have : behind.length < rest.length + 1 := by
              have bound := readSpec_length_le rest args
              rw [read] at bound
              exact Nat.lt_succ_of_le (Nat.le_trans (Nat.le_succ _) bound)
            let (shown, left) := applyConversion spec conversion given
            shown ++ formatChars behind left
      else char :: formatChars rest args
termination_by text.length

end MiniC.Format

namespace MiniC

def format (text : String) (args : List Value) : String :=
  String.ofList (Format.formatChars text.toList args)

end MiniC
