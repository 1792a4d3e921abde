import MiniC.Token.Piece
import MiniC.Token.Spelling
import MiniC.Decimal.Double

/-!
Number literals.

A leading zero makes an integer octal, and `0x` makes it hexadecimal. A point or
an exponent makes a floating-point number, which is the double nearest to the
decimal as written.
-/

namespace MiniC.Lexer

open Text (Cursor)

def isUnsignedSuffix (char : Char) : Bool := char = 'u' || char = 'U'

def isLongSuffix (char : Char) : Bool := char = 'l' || char = 'L'

/-- The end of an integer literal: its suffix, and a check that no word character follows. -/
def finishInteger (start : Nat) (spelling : List Char) (value? : Option Nat) (based : Bool)
    (here : Cursor) : Piece :=
  let (suffix, afterSuffix) :=
    here.takeWhile fun char => isUnsignedSuffix char || isLongSuffix char
  let (tail, after) := afterSuffix.takeWhile isWordChar
  if !tail.isEmpty then
    .failed s!"Invalid number: {String.ofList (spelling ++ suffix ++ tail)}" start after
  else
    match value? with
    | some value =>
        .found
          (.int
            { value := UInt64.ofNat value
              unsigned := suffix.any isUnsignedSuffix
              long := suffix.any isLongSuffix
              based := based })
          after
    | none =>
        .failed s!"Integer literal out of range: {String.ofList (spelling ++ suffix)}" start after

private theorem finishInteger_length_le (start : Nat) (spelling : List Char) (value? : Option Nat)
    (based : Bool) (here : Cursor) :
    (finishInteger start spelling value? based here).after.rest.length ≤ here.rest.length := by
  have bound := Nat.le_trans
    (Cursor.takeWhile_length_le isWordChar
      (here.takeWhile fun char => isUnsignedSuffix char || isLongSuffix char).2)
    (Cursor.takeWhile_length_le (fun char => isUnsignedSuffix char || isLongSuffix char) here)
  simp only [finishInteger]
  split
  · exact bound
  · split <;> exact bound

structure Mantissa where
  whole : List Char
  fraction : List Char
  point : Bool
  after : Cursor

def readMantissa (first : Char) (tail : Cursor) : Mantissa :=
  if first = '.' then
    let (fraction, after) := tail.takeWhile isDigit
    ⟨[], fraction, true, after⟩
  else
    let (digits, afterWhole) := tail.takeWhile isDigit
    if afterWhole.nextIs (· = '.') then
      let (fraction, after) := afterWhole.advance.takeWhile isDigit
      ⟨first :: digits, fraction, true, after⟩
    else ⟨first :: digits, [], false, afterWhole⟩

def readSign (here : Cursor) : Bool × Cursor :=
  if here.nextIs (· = '-') then (true, here.advance)
  else if here.nextIs (· = '+') then (false, here.advance)
  else (false, here)

def readExponent? (here : Cursor) : Option (Int × Cursor) :=
  if here.nextIs (fun char => char = 'e' || char = 'E') then
    let (negative, afterSign) := readSign here.advance
    let (digits, after) := afterSign.takeWhile isDigit
    if digits.isEmpty then none
    else
      let size : Int := numberOf 10 digits
      some (if negative then -size else size, after)
  else none

def readFloatSuffix (here : Cursor) : Bool × Cursor :=
  if here.nextIs (fun char => char = 'f' || char = 'F') then (true, here.advance)
  else if here.nextIs isLongSuffix then (false, here.advance)
  else (false, here)

private theorem readMantissa_length_le (first : Char) (tail : Cursor) :
    (readMantissa first tail).after.rest.length ≤ tail.rest.length := by
  have digits := Cursor.takeWhile_length_le isDigit tail
  simp only [readMantissa]
  split
  · exact digits
  · split
    · exact Nat.le_trans (Cursor.takeWhile_length_le isDigit _)
        (Nat.le_trans (Cursor.advance_length_le _) digits)
    · exact digits

private theorem readSign_length_le (here : Cursor) :
    (readSign here).2.rest.length ≤ here.rest.length := by
  unfold readSign
  split
  · exact Cursor.advance_length_le _
  · split
    · exact Cursor.advance_length_le _
    · exact Nat.le_refl _

private theorem readExponent?_length_le {here after : Cursor} {exponent : Int}
    (found : readExponent? here = some (exponent, after)) :
    after.rest.length ≤ here.rest.length := by
  simp only [readExponent?] at found
  split at found
  · split at found
    · cases found
    · cases found
      exact Nat.le_trans (Cursor.takeWhile_length_le isDigit _)
        (Nat.le_trans (readSign_length_le _) (Cursor.advance_length_le _))
  · cases found

private theorem readFloatSuffix_length_le (here : Cursor) :
    (readFloatSuffix here).2.rest.length ≤ here.rest.length := by
  unfold readFloatSuffix
  split
  · exact Cursor.advance_length_le _
  · split
    · exact Cursor.advance_length_le _
    · exact Nat.le_refl _

def readDecimal (start : Nat) (first : Char) (tail : Cursor) : Piece :=
  let mantissa := readMantissa first tail
  let exponent? := readExponent? mantissa.after
  if mantissa.point || exponent?.isSome then
    let (exponent, afterExponent) := exponent?.getD (0, mantissa.after)
    let (single, after) := readFloatSuffix afterExponent
    let digits := numberOf 10 (mantissa.whole ++ mantissa.fraction)
    .found
      (.float (Decimal.nearestDecimal digits (exponent - mantissa.fraction.length)) single) after
  else
    let octal := first = '0' && 1 < mantissa.whole.length
    let value? :=
      if octal then readNumber? 8 (Nat.pow 2 64) mantissa.whole.tail
      else readNumber? 10 (Nat.pow 2 64) mantissa.whole
    finishInteger start mantissa.whole value? octal mantissa.after

def readNumber (start : Nat) (first : Char) (tail : Cursor) : Piece :=
  if first = '0' && tail.nextIs (fun char => char = 'x' || char = 'X') then
    let (digits, after) := tail.advance.takeWhile isHexDigit
    let spelling := first :: (tail.rest.take 1 ++ digits)
    finishInteger start spelling (readNumber? 16 (Nat.pow 2 64) digits) true after
  else readDecimal start first tail

private theorem readDecimal_length_le (start : Nat) (first : Char) (tail : Cursor) :
    (readDecimal start first tail).after.rest.length ≤ tail.rest.length := by
  have mantissa := readMantissa_length_le first tail
  simp only [readDecimal]
  split
  · refine Nat.le_trans (readFloatSuffix_length_le _) (Nat.le_trans ?_ mantissa)
    cases found : readExponent? (readMantissa first tail).after with
    | none => exact Nat.le_refl _
    | some pair => exact readExponent?_length_le found
  · exact Nat.le_trans (finishInteger_length_le _ _ _ _ _) mantissa

theorem readNumber_length_le (start : Nat) (first : Char) (tail : Cursor) :
    (readNumber start first tail).after.rest.length ≤ tail.rest.length := by
  unfold readNumber
  split
  · exact Nat.le_trans (finishInteger_length_le _ _ _ _ _)
      (Nat.le_trans (Cursor.takeWhile_length_le isHexDigit _) (Cursor.advance_length_le _))
  · exact readDecimal_length_le start first tail

end MiniC.Lexer
