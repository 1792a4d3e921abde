import MiniC.Builtin.Invoke
import MiniC.Proofs.Value.Integers

/-!
The greatest common divisor of two 64-bit integers.

The loop runs on magnitudes, and every round keeps their greatest common divisor.
Only the way back to a signed number can lose it: the least integer has the
magnitude `2 ^ 63`, and so has its divisor with itself or with zero. There, and
nowhere else, the answer is negative.
-/

namespace MiniC.Builtin

private theorem toNat_magnitude (number : Int64) :
    (magnitude number).toNat = number.toInt.natAbs := by
  have low := number.le_toInt
  have high := number.toInt_lt
  have word (other : Int64) : other.toInt % 2 ^ 64 = other.toUInt64.toNat % 2 ^ 64 :=
    signed_modEq other.toBitVec
  unfold magnitude absolute
  split
  case isTrue negative =>
    have negative : number.toInt < 0 := Int64.lt_iff_toInt_lt.mp negative
    have opposite : (-number).toInt % 2 ^ 64 = -number.toInt % 2 ^ 64 := by
      rw [Int64.toInt_neg]
      exact_mod_cast Int.bmod_emod
    have same := word (-number)
    have bound := (-number).toUInt64.toNat_lt
    omega
  case isFalse positive =>
    have positive : 0 ≤ number.toInt := Int64.le_iff_toInt_le.mp (Int64.not_lt.mp positive)
    have same := word number
    have bound := number.toUInt64.toNat_lt
    omega

private theorem toNat_magnitude_le (number : Int64) : (magnitude number).toNat ≤ 2 ^ 63 := by
  have low := number.le_toInt
  have high := number.toInt_lt
  rw [toNat_magnitude]
  omega

/-- What a round leaves has the divisors of what it found. -/
theorem toNat_euclid (left right : UInt64) :
    (euclid left right).toNat = Nat.gcd left.toNat right.toNat := by
  fun_induction euclid left right with
  | case1 left => simp
  | case2 left right _ ih => rw [ih, UInt64.toNat_mod, Nat.gcd_comm, ← Nat.gcd_rec, Nat.gcd_comm]

private theorem toInt_gcdOf (left right : Int64) :
    (gcdOf left right).toInt = (Int.gcd left.toInt right.toInt : Int).bmod (2 ^ 64) := by
  have word : (gcdOf left right).toInt =
      ((euclid (magnitude left) (magnitude right)).toNat : Int).bmod (2 ^ 64) :=
    BitVec.toInt_eq_toNat_bmod _
  rw [word, toNat_euclid, toNat_magnitude, toNat_magnitude]
  rfl

/-- One of the numbers is the least integer, and the other one is it too or is zero. -/
def OnlyLeast (left right : Int64) : Prop :=
  (left = 0 ∨ left = Int64.minValue) ∧ (right = 0 ∨ right = Int64.minValue) ∧
    (left = Int64.minValue ∨ right = Int64.minValue)

/-- A magnitude that `2 ^ 63` divides is zero or that of the least integer. -/
theorem eq_of_dvd {number : Int64} (divides : 2 ^ 63 ∣ number.toInt.natAbs) :
    number = 0 ∨ number = Int64.minValue := by
  have low := number.le_toInt
  have high := number.toInt_lt
  rw [← Int64.toInt_inj, ← Int64.toInt_inj, Int64.toInt_zero, Int64.toInt_minValue]
  omega

private theorem gcd_eq_iff_onlyLeast (left right : Int64) :
    Int.gcd left.toInt right.toInt = 2 ^ 63 ↔ OnlyLeast left right := by
  constructor
  · intro reached
    have ofLeft : left = 0 ∨ left = Int64.minValue :=
      eq_of_dvd (reached ▸ Int.gcd_dvd_natAbs_left _ _)
    have ofRight : right = 0 ∨ right = Int64.minValue :=
      eq_of_dvd (reached ▸ Int.gcd_dvd_natAbs_right _ _)
    refine ⟨ofLeft, ofRight, ?_⟩
    rcases ofLeft with rfl | least
    · rcases ofRight with rfl | least
      · exact absurd reached (by decide)
      · exact Or.inr least
    · exact Or.inl least
  · rintro ⟨rfl | rfl, rfl | rfl, least | least⟩
    all_goals first | rfl | exact absurd least (by decide)

private theorem gcd_le (left right : Int64) : Int.gcd left.toInt right.toInt ≤ 2 ^ 63 := by
  have ofLeft := toNat_magnitude_le left
  have ofRight := toNat_magnitude_le right
  rw [toNat_magnitude] at ofLeft ofRight
  rcases Nat.eq_zero_or_pos left.toInt.natAbs with zero | positive
  · rw [Int.gcd, zero, Nat.gcd_zero_left]
    exact ofRight
  · exact (Nat.gcd_le_left _ positive).trans ofLeft

/-- The answer is the greatest common divisor, except where that is no 64-bit number: there it is
the least integer. -/
theorem invoke_gcd (left right : Int64) (world : World) :
    ∃ divisor : Int64,
      invoke .gcd [.i64 left, .i64 right] world = .ok (.i64 divisor) world ∧
        (0 ≤ divisor.toInt ∧ divisor.toInt = Int.gcd left.toInt right.toInt ↔
          ¬OnlyLeast left right) ∧
        (OnlyLeast left right → divisor = Int64.minValue) := by
  refine ⟨gcdOf left right, rfl, ?_⟩
  have word := toInt_gcdOf left right
  have bound := gcd_le left right
  rw [← gcd_eq_iff_onlyLeast, ← Int64.toInt_inj, Int64.toInt_minValue, word]
  rcases Nat.lt_or_eq_of_le bound with below | reached
  · have kept : (Int.gcd left.toInt right.toInt : Int).bmod (2 ^ 64) =
        Int.gcd left.toInt right.toInt := Int.bmod_eq_of_le (by omega) (by omega)
    omega
  · rw [reached]
    decide

theorem least_gcd_is_negative :
    ¬∀ (left right : Int64) (world : World), ∃ divisor : Int64,
      invoke .gcd [.i64 left, .i64 right] world = .ok (.i64 divisor) world ∧
        0 ≤ divisor.toInt ∧ divisor.toInt = Int.gcd left.toInt right.toInt := by
  intro always
  obtain ⟨divisor, answer, positive, -⟩ := always Int64.minValue 0 ⟨#[], .unlimited, none⟩
  have same : gcdOf Int64.minValue 0 = divisor := by
    injection answer with answer
    injection answer with answer
    injection answer
  rw [← same, toInt_gcdOf] at positive
  exact absurd positive (by decide)

end MiniC.Builtin
