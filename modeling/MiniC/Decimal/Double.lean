import MiniC.Decimal.Rounding

/-!
Double-precision numbers as scaled integers.

The magnitude of a finite double is a natural number times a power of two. The
conversions here go through the 64 bits of a double, so every operation on
magnitudes is exact integer arithmetic: nearest double of a quotient, remainder
of a division.
-/

namespace MiniC.Decimal

structure Scaled where
  mantissa : Nat
  exponent : Int
deriving DecidableEq, Repr

def Scaled.decimalBound (scaled : Scaled) : Int :=
  ((scaled.mantissa.log2 + 1 : Int) + scaled.exponent) * 30103 / 100000 + 1

inductive Magnitude where
  | nan
  | infinite
  | finite (scaled : Scaled)

def leastExponent : Int := -1074

def signBit (number : Float) : Bool :=
  Nat.pow 2 63 ≤ number.toBits.toNat

def magnitude (number : Float) : Magnitude :=
  let bits : Nat := number.toBits.toNat
  let field : Nat := bits / Nat.pow 2 52 % Nat.pow 2 11
  let fraction : Nat := bits % Nat.pow 2 52
  if field = 2047 then (if fraction = 0 then .infinite else .nan)
  else if field = 0 then .finite ⟨fraction, leastExponent⟩
  else .finite ⟨Nat.pow 2 52 + fraction, (field : Int) - 1075⟩

/-- The double with the given sign bit and the magnitude `mantissa * 2 ^ exponent`, for a mantissa
of at most 53 bits and an exponent of at least `leastExponent`; infinity when it is too large. -/
def ofScaled (negative : Bool) (scaled : Scaled) : Float :=
  let room := 52 - scaled.mantissa.log2
  let shift := min room (scaled.exponent - leastExponent).toNat
  let mantissa := scaled.mantissa * Nat.pow 2 shift
  let exponent := scaled.exponent - shift
  let field := (exponent + 1075).toNat
  let magnitudeBits :=
    if mantissa < Nat.pow 2 52 then mantissa
    else if 2047 ≤ field then 2047 * Nat.pow 2 52
    else field * Nat.pow 2 52 + (mantissa - Nat.pow 2 52)
  Float.ofBits (UInt64.ofNat (magnitudeBits + if negative then Nat.pow 2 63 else 0))

def mantissaExponent (numerator denominator : Nat) : Int :=
  let log : Int := (numerator.log2 : Int) - denominator.log2
  let (up, down) := powerOfTwo log
  let exponent := if numerator * down < denominator * up then log - 53 else log - 52
  max exponent leastExponent

/-- The double nearest to a quotient, a half going to the even mantissa. -/
def nearestDouble (negative : Bool) (numerator denominator : Nat) : Float :=
  if numerator = 0 then ofScaled negative ⟨0, leastExponent⟩
  else
    let exponent := mantissaExponent numerator denominator
    let (up, down) := powerOfTwo exponent
    let mantissa := roundQuotient (numerator * down) (denominator * up)
    if mantissa = Nat.pow 2 53 then ofScaled negative ⟨Nat.pow 2 52, exponent + 1⟩
    else ofScaled negative ⟨mantissa, exponent⟩

/-- The double nearest to `digits * 10 ^ exponent`. A value far outside the range of doubles needs
no arithmetic. -/
def nearestDecimal (digits : Nat) (exponent : Int) : Float :=
  let places : Int := (Nat.toDigits 10 digits).length
  if digits = 0 ∨ places + exponent < -400 then ofScaled false ⟨0, leastExponent⟩
  else if 400 < places + exponent then ofScaled false ⟨Nat.pow 2 52, 1000⟩
  else
    let (up, down) := powerOfTen exponent
    nearestDouble false (digits * up) down

def remainder (dividend divisor : Float) : Float :=
  match magnitude dividend, magnitude divisor with
  | .finite _, .infinite => dividend
  | .finite top, .finite bottom =>
      if bottom.mantissa = 0 then 0.0 / 0.0
      else
        let exponent := min top.exponent bottom.exponent
        let left := top.mantissa * Nat.pow 2 (top.exponent - exponent).toNat
        let right := bottom.mantissa * Nat.pow 2 (bottom.exponent - exponent).toNat
        ofScaled (signBit dividend) ⟨left % right, exponent⟩
  | _, _ => 0.0 / 0.0

end MiniC.Decimal
