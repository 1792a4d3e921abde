import MiniC.Decimal.Double

/-!
The shortest decimal that reads back as a given double.

The reals that round to a double form an interval around it. Going from coarse
to fine powers of ten, the first grid with a point in that interval fixes the
number of digits, and of the points of that grid the nearest one is taken. A
double halfway between two points takes the upper one.
-/

namespace MiniC.Decimal

structure Digits where
  digits : Nat
  exponent : Int
deriving DecidableEq, Repr

/-- The interval of reals that round to a double, all four numbers over one denominator. -/
structure RoundingInterval where
  below : Nat
  value : Nat
  above : Nat
  denominator : Nat
  /-- Whether the ends of the interval belong to it. -/
  closed : Bool

/-- The lower neighbour of a power of two is half as far away as the upper one. -/
def Scaled.roundingInterval (scaled : Scaled) : RoundingInterval :=
  let (up, down) := powerOfTwo scaled.exponent
  let lower := if scaled.mantissa = Nat.pow 2 52 ∧ leastExponent < scaled.exponent then 1 else 2
  { below := (4 * scaled.mantissa - lower) * up
    value := 4 * scaled.mantissa * up
    above := (4 * scaled.mantissa + 2) * up
    denominator := 4 * down
    closed := scaled.mantissa % 2 = 0 }

namespace RoundingInterval

def onGrid (interval : RoundingInterval) (exponent : Int) : RoundingInterval :=
  let (up, down) := powerOfTen exponent
  { interval with
    below := interval.below * down
    value := interval.value * down
    above := interval.above * down
    denominator := interval.denominator * up }

/-- Whether a positive integer lies in the interval. -/
def holds (interval : RoundingInterval) (point : Nat) : Bool :=
  let scaled := point * interval.denominator
  if point = 0 then false
  else if interval.closed then interval.below ≤ scaled && scaled ≤ interval.above
  else interval.below < scaled && scaled < interval.above

/-- The integer of the interval that is nearest to its value, if it has one; of two that are
equally near, the upper one. -/
def nearestPoint? (interval : RoundingInterval) : Option Nat :=
  let floor := interval.value / interval.denominator
  let lowerNearer := 2 * (interval.value % interval.denominator) < interval.denominator
  match interval.holds floor, interval.holds (floor + 1) with
  | true, true => some (if lowerNearer then floor else floor + 1)
  | true, false => some floor
  | false, true => some (floor + 1)
  | false, false => none

def search (interval : RoundingInterval) : Nat → Int → Option Digits
  | 0, _ => none
  | grids + 1, exponent =>
      match (interval.onGrid exponent).nearestPoint? with
      | some point => some ⟨point, exponent⟩
      | none => search interval grids (exponent - 1)

end RoundingInterval

def Scaled.shortest (scaled : Scaled) : Digits :=
  (scaled.roundingInterval.search 20 scaled.decimalBound).getD ⟨0, 0⟩

def stripZeros : Nat → Digits → Digits
  | 0, number => number
  | fuel + 1, number =>
      if number.digits % 10 = 0 ∧ number.digits ≠ 0 then
        stripZeros fuel ⟨number.digits / 10, number.exponent + 1⟩
      else number

namespace Digits

def text (number : Digits) : List Char :=
  Nat.toDigits 10 number.digits

def leading (number : Digits) : Int :=
  number.exponent + number.text.length - 1

/-- Plain notation with at least one digit on each side of the point. -/
def positional (number : Digits) : String :=
  let text := number.text
  let whole := number.exponent + text.length
  if whole ≤ 0 then
    "0." ++ String.ofList (List.replicate (-whole).toNat '0' ++ text)
  else if 0 ≤ number.exponent then
    String.ofList (text ++ List.replicate number.exponent.toNat '0') ++ ".0"
  else String.ofList (text.take whole.toNat) ++ "." ++ String.ofList (text.drop whole.toNat)

def scientific (number : Digits) : String :=
  let exponent := "e" ++ toString number.leading
  match number.text with
  | [] => "0" ++ exponent
  | first :: [] => first.toString ++ exponent
  | first :: rest => first.toString ++ "." ++ String.ofList rest ++ exponent

end Digits

/-- The shortest text that reads back as the double: plain from `1e-4` up to `1e16`, scientific
outside. -/
def shortestText (number : Float) : String :=
  let sign := if signBit number then "-" else ""
  match magnitude number with
  | .nan => "NaN"
  | .infinite => sign ++ "inf"
  | .finite scaled =>
      if scaled.mantissa = 0 then sign ++ "0.0"
      else
        let shortest := stripZeros 400 scaled.shortest
        if -4 ≤ shortest.leading ∧ shortest.leading < 16 then sign ++ shortest.positional
        else sign ++ shortest.scientific

end MiniC.Decimal
