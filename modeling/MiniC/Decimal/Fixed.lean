import MiniC.Decimal.Double

/-!
Decimals with a given number of places.

The exact value of a double is rounded to the wanted number of digits, a half
going to the even digit: behind the point in plain notation, behind the first
digit in scientific notation.
-/

namespace MiniC.Decimal

def paddedDigits (count number : Nat) : List Char :=
  let digits := Nat.toDigits 10 number
  List.replicate (count - digits.length) '0' ++ digits

def Scaled.timesTen (scaled : Scaled) (power : Int) : Nat :=
  let (twoUp, twoDown) := powerOfTwo scaled.exponent
  let (tenUp, tenDown) := powerOfTen power
  roundQuotient (scaled.mantissa * twoUp * tenUp) (twoDown * tenDown)

def Scaled.fixed (scaled : Scaled) (places : Nat) : List Char :=
  let number := scaled.timesTen places
  let whole := Nat.toDigits 10 (number / Nat.pow 10 places)
  if places = 0 then whole else whole ++ '.' :: paddedDigits places (number % Nat.pow 10 places)

def Scaled.reaches (scaled : Scaled) (power : Int) : Bool :=
  let (twoUp, twoDown) := powerOfTwo scaled.exponent
  let (tenUp, tenDown) := powerOfTen power
  tenUp * twoDown ≤ scaled.mantissa * twoUp * tenDown

/-- The greatest power of ten that is at most the number, among the `count` ones from `power`
downward. -/
def Scaled.leadingPower (scaled : Scaled) : Nat → Int → Int
  | 0, power => power
  | count + 1, power =>
      if scaled.reaches power then power else scaled.leadingPower count (power - 1)

/-- A number in scientific notation: its digits, the first of which stands before the point, and
the exponent. -/
structure Scientific where
  digits : List Char
  exponent : Int

def Scaled.scientific (scaled : Scaled) (places : Nat) : Scientific :=
  if scaled.mantissa = 0 then ⟨List.replicate (places + 1) '0', 0⟩
  else
    let power := scaled.leadingPower 8 scaled.decimalBound
    let number := scaled.timesTen (places - power)
    if number = Nat.pow 10 (places + 1) then ⟨Nat.toDigits 10 (Nat.pow 10 places), power + 1⟩
    else ⟨Nat.toDigits 10 number, power⟩

def Scientific.mantissa (number : Scientific) : List Char :=
  match number.digits with
  | first :: second :: rest => first :: '.' :: second :: rest
  | digits => digits

end MiniC.Decimal
