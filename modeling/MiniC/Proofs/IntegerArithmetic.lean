import MiniC.Operator.Arithmetic
import MiniC.Proofs.Value.Integers

/-!
Integer arithmetic against the integers.

For each of the four integer kinds the operators are compared with the integers
that their operands stand for: sums, differences, products and negations hold
modulo the size of the kind, division truncates toward zero, the remainder
belongs to it, and a shift multiplies or divides by a power of two, the latter
toward minus infinity. A shift count is the integer that the count operand stands
for, modulo the width, however the operand is stored.
-/

namespace MiniC

private theorem add_modEq {width : Nat} (left right : BitVec width) :
    (left + right).toNat ≡ left.toNat + right.toNat [ZMOD 2 ^ width] := by
  rw [BitVec.toNat_add]
  push_cast
  exact Int.mod_modEq _ _

private theorem mul_modEq {width : Nat} (left right : BitVec width) :
    (left * right).toNat ≡ left.toNat * right.toNat [ZMOD 2 ^ width] := by
  rw [BitVec.toNat_mul]
  push_cast
  exact Int.mod_modEq _ _

private theorem neg_modEq {width : Nat} (word : BitVec width) :
    (-word).toNat ≡ -word.toNat [ZMOD 2 ^ width] := by
  have cancels := add_modEq word (-word)
  rw [← BitVec.sub_eq_add_neg, BitVec.sub_self] at cancels
  have moved := (cancels.symm.add_left (-(word.toNat : Int)))
  simpa using moved

private theorem shiftLeft_modEq {width : Nat} (word : BitVec width) (count : Nat) :
    (word <<< count).toNat ≡ word.toNat * 2 ^ count [ZMOD 2 ^ width] := by
  rw [BitVec.toNat_shiftLeft, Nat.shiftLeft_eq]
  push_cast
  exact Int.mod_modEq _ _

private theorem toNat_smod {width : Nat} (count : BitVec width) {modulus : BitVec width}
    (positive : modulus.msb = false) (below : count.toNat < modulus.toNat) :
    (count.smod modulus).toNat = count.toNat := by
  have double := BitVec.msb_eq_false_iff_two_mul_lt.mp positive
  have countPositive : count.msb = false := BitVec.msb_eq_false_iff_two_mul_lt.mpr (by omega)
  rw [BitVec.smod_eq, positive, countPositive]
  simp only [BitVec.umod_eq, BitVec.toNat_umod]
  exact Nat.mod_eq_of_lt below

/-- A count is read as 32 bits first, which its residue modulo the width does not notice. -/
theorem count_eq {count : Value} {number : Int} (stands : count.integer? = some number)
    {width : Nat} (divides : (width : Int) ∣ 2 ^ 32) :
    count.toU32.toNat % width = (number % width).toNat := by
  have same : (count.toU32.toNat : Int) % width = number % width :=
    (Value.toU32_modEq stands).of_dvd divides
  omega

/-! ### Operators -/

namespace Kind

variable {kind : Kind}

def operand (kind : Kind) (value : Value) : Int := kind.reading (value.word kind)

private theorem operand_modEq (kind : Kind) (value : Value) :
    (value.word kind).toNat ≡ kind.operand value [ZMOD 2 ^ kind.bits] :=
  (kind.reading_modEq _).symm

theorem operand_eq (isInteger : kind.isInteger = true) {value : Value} {number : Int}
    (stands : value.integer? = some number) : kind.operand value = kind.wrap number := by
  have shows := Value.shows_convert isInteger stands
  rw [Value.convert_eq_ofWord isInteger] at shows
  exact Option.some.inj ((shows_ofWord isInteger _).2.symm.trans shows.2)

theorem shows_negate (isInteger : kind.isInteger = true) (value : Value) :
    kind.Shows ((UnaryFn.negate kind).apply value) (kind.wrap (-kind.operand value)) := by
  have bits : (UnaryFn.negate kind).apply value = Value.ofWord kind (-value.word kind) := by
    cases kind <;> first | rfl | cases isInteger
  rw [bits]
  apply shows_of_modEq isInteger
  exact (neg_modEq _).trans (kind.operand_modEq value).neg

theorem shows_add (isInteger : kind.isInteger = true) (left right : Value) :
    kind.Shows (ArithOp.add.apply kind left right)
      (kind.wrap (kind.operand left + kind.operand right)) := by
  have bits : ArithOp.add.apply kind left right =
      Value.ofWord kind (left.word kind + right.word kind) := by
    cases kind <;> first | rfl | cases isInteger
  rw [bits]
  apply shows_of_modEq isInteger
  exact (add_modEq _ _).trans ((kind.operand_modEq left).add (kind.operand_modEq right))

theorem shows_sub (isInteger : kind.isInteger = true) (left right : Value) :
    kind.Shows (ArithOp.sub.apply kind left right)
      (kind.wrap (kind.operand left - kind.operand right)) := by
  have bits : ArithOp.sub.apply kind left right =
      Value.ofWord kind (left.word kind - right.word kind) := by
    cases kind <;> first | rfl | cases isInteger
  rw [bits]
  apply shows_of_modEq isInteger
  rw [BitVec.sub_eq_add_neg, sub_eq_add_neg]
  exact (add_modEq _ _).trans
    ((kind.operand_modEq left).add ((neg_modEq _).trans (kind.operand_modEq right).neg))

theorem shows_mul (isInteger : kind.isInteger = true) (left right : Value) :
    kind.Shows (ArithOp.mul.apply kind left right)
      (kind.wrap (kind.operand left * kind.operand right)) := by
  have bits : ArithOp.mul.apply kind left right =
      Value.ofWord kind (left.word kind * right.word kind) := by
    cases kind <;> first | rfl | cases isInteger
  rw [bits]
  apply shows_of_modEq isInteger
  exact (mul_modEq _ _).trans ((kind.operand_modEq left).mul (kind.operand_modEq right))

def quotient (kind : Kind) (left right : BitVec kind.bits) : BitVec kind.bits :=
  if kind.isUnsigned then left / right else left.sdiv right

def remainder (kind : Kind) (left right : BitVec kind.bits) : BitVec kind.bits :=
  if kind.isUnsigned then left % right else left.srem right

theorem divided_by_zero (isInteger : kind.isInteger = true) (left : Value) {right : Value}
    (zero : right.word kind = 0) :
    ArithOp.div.apply kind left right = Value.ofWord kind 0 ∧
      ArithOp.rem.apply kind left right = Value.ofWord kind 0 := by
  cases kind with
  | i32 =>
    have zero : right.toI32 = 0 := Int32.toBitVec.inj zero
    exact ⟨congrArg Value.i32 (if_pos zero), congrArg Value.i32 (if_pos zero)⟩
  | u32 =>
    have zero : right.toU32 = 0 := UInt32.toBitVec_inj.mp zero
    exact ⟨congrArg Value.u32 (if_pos zero), congrArg Value.u32 (if_pos zero)⟩
  | i64 =>
    have zero : right.toI64 = 0 := Int64.toBitVec.inj zero
    exact ⟨congrArg Value.i64 (if_pos zero), congrArg Value.i64 (if_pos zero)⟩
  | u64 =>
    have zero : right.toU64 = 0 := UInt64.toBitVec_inj.mp zero
    exact ⟨congrArg Value.u64 (if_pos zero), congrArg Value.u64 (if_pos zero)⟩
  | f32 => cases isInteger
  | f64 => cases isInteger

private theorem divided (isInteger : kind.isInteger = true) (left : Value) {right : Value}
    (nonzero : right.word kind ≠ 0) :
    ArithOp.div.apply kind left right =
        Value.ofWord kind (kind.quotient (left.word kind) (right.word kind)) ∧
      ArithOp.rem.apply kind left right =
        Value.ofWord kind (kind.remainder (left.word kind) (right.word kind)) := by
  cases kind with
  | i32 =>
    have nonzero : right.toI32 ≠ 0 := fun zero => nonzero (congrArg Int32.toBitVec zero)
    exact ⟨congrArg Value.i32 (if_neg nonzero), congrArg Value.i32 (if_neg nonzero)⟩
  | u32 =>
    have nonzero : right.toU32 ≠ 0 := fun zero => nonzero (congrArg UInt32.toBitVec zero)
    exact ⟨congrArg Value.u32 (if_neg nonzero), congrArg Value.u32 (if_neg nonzero)⟩
  | i64 =>
    have nonzero : right.toI64 ≠ 0 := fun zero => nonzero (congrArg Int64.toBitVec zero)
    exact ⟨congrArg Value.i64 (if_neg nonzero), congrArg Value.i64 (if_neg nonzero)⟩
  | u64 =>
    have nonzero : right.toU64 ≠ 0 := fun zero => nonzero (congrArg UInt64.toBitVec zero)
    exact ⟨congrArg Value.u64 (if_neg nonzero), congrArg Value.u64 (if_neg nonzero)⟩
  | f32 => cases isInteger
  | f64 => cases isInteger

private theorem reading_quotient (kind : Kind) (left right : BitVec kind.bits) :
    kind.reading (kind.quotient left right) ≡
      (kind.reading left).tdiv (kind.reading right) [ZMOD 2 ^ kind.bits] := by
  unfold reading quotient
  split
  · rw [BitVec.toNat_udiv]
    exact Int.ModEq.refl _
  · rw [BitVec.toInt_sdiv]
    exact_mod_cast Int.bmod_emod

private theorem reading_remainder (kind : Kind) (left right : BitVec kind.bits) :
    kind.reading (kind.remainder left right) =
      (kind.reading left).tmod (kind.reading right) := by
  unfold reading remainder
  split
  · rw [BitVec.toNat_umod]
    rfl
  · exact BitVec.toInt_srem _ _

private theorem word_eq_zero_of_operand {value : Value} (zero : kind.operand value = 0) :
    value.word kind = 0 := by
  unfold operand reading at zero
  split at zero
  · exact BitVec.eq_of_toNat_eq (by simpa using zero)
  · exact BitVec.eq_of_toInt_eq (by simpa using zero)

theorem operand_of_word_eq_zero {value : Value} (zero : value.word kind = 0) :
    kind.operand value = 0 := by
  rw [operand, zero]
  unfold reading
  split <;> simp

theorem shows_div (isInteger : kind.isInteger = true) (left right : Value) :
    kind.Shows (ArithOp.div.apply kind left right)
      (kind.wrap ((kind.operand left).tdiv (kind.operand right))) := by
  by_cases zero : right.word kind = 0
  · rw [(divided_by_zero isInteger left zero).1, operand_of_word_eq_zero zero, Int.tdiv_zero]
    apply shows_of_modEq isInteger
    simp
  · rw [(divided isInteger left zero).1]
    exact (shows_ofWord isInteger _).of_modEq (kind.reading_quotient _ _)

theorem shows_rem (isInteger : kind.isInteger = true) (left : Value) {right : Value}
    (nonzero : kind.operand right ≠ 0) :
    kind.Shows (ArithOp.rem.apply kind left right)
      ((kind.operand left).tmod (kind.operand right)) := by
  have nonzero : right.word kind ≠ 0 := fun zero => nonzero (operand_of_word_eq_zero zero)
  rw [(divided isInteger left nonzero).2, operand, operand, ← reading_remainder]
  exact shows_ofWord isInteger _

theorem shows_of_zero (isInteger : kind.isInteger = true) (left : Value) {right : Value}
    (zero : kind.operand right = 0) :
    kind.Shows (ArithOp.div.apply kind left right) 0 ∧
      kind.Shows (ArithOp.rem.apply kind left right) 0 := by
  have shows : kind.Shows (Value.ofWord kind 0) 0 := by
    cases kind <;> first | exact ⟨rfl, rfl⟩ | cases isInteger
  rw [(divided_by_zero isInteger left (word_eq_zero_of_operand zero)).1,
    (divided_by_zero isInteger left (word_eq_zero_of_operand zero)).2]
  exact ⟨shows, shows⟩

def shiftRight (kind : Kind) (word : BitVec kind.bits) (count : Nat) : BitVec kind.bits :=
  if kind.isUnsigned then word >>> count else word.sshiftRight count

theorem shifted (isInteger : kind.isInteger = true) (left right : Value) :
    ArithOp.shl.apply kind left right =
        Value.ofWord kind (left.word kind <<< (right.toU32.toNat % kind.bits)) ∧
      ArithOp.shr.apply kind left right =
        Value.ofWord kind (kind.shiftRight (left.word kind) (right.toU32.toNat % kind.bits)) := by
  have below (width : Nat) (positive : 0 < width) : right.toU32.toNat % width < width :=
    Nat.mod_lt _ positive
  -- the count goes through the width twice, and through a signed word where the kind is signed
  cases kind with
  | i32 =>
    have count : ((right.toU32 % 32).toInt32.toBitVec.smod 32).toNat = right.toU32.toNat % 32 :=
      toNat_smod _ rfl (below 32 (by decide))
    exact ⟨congrArg (fun count => Value.ofWord .i32 (left.word .i32 <<< count)) count,
      congrArg (fun count => Value.ofWord .i32 ((left.word .i32).sshiftRight count)) count⟩
  | i64 =>
    have count : ((right.toU32 % 64).toUInt64.toInt64.toBitVec.smod 64).toNat =
        right.toU32.toNat % 64 := toNat_smod _ rfl (below 64 (by decide))
    exact ⟨congrArg (fun count => Value.ofWord .i64 (left.word .i64 <<< count)) count,
      congrArg (fun count => Value.ofWord .i64 ((left.word .i64).sshiftRight count)) count⟩
  | u32 =>
    have count := Nat.mod_mod right.toU32.toNat 32
    exact ⟨congrArg (fun count => Value.ofWord .u32 (left.word .u32 <<< count)) count,
      congrArg (fun count => Value.ofWord .u32 (left.word .u32 >>> count)) count⟩
  | u64 =>
    have count := Nat.mod_mod right.toU32.toNat 64
    exact ⟨congrArg (fun count => Value.ofWord .u64 (left.word .u64 <<< count)) count,
      congrArg (fun count => Value.ofWord .u64 (left.word .u64 >>> count)) count⟩
  | f32 => cases isInteger
  | f64 => cases isInteger

private theorem reading_shiftRight (kind : Kind) (word : BitVec kind.bits) (count : Nat) :
    kind.reading (kind.shiftRight word count) = (kind.reading word).fdiv (2 ^ count) := by
  rw [Int.fdiv_eq_ediv_of_nonneg _ (Int.pow_nonneg (by decide))]
  unfold reading shiftRight
  split
  · rw [BitVec.toNat_ushiftRight, Nat.shiftRight_eq_div_pow]
    push_cast
    rfl
  · rw [BitVec.toInt_sshiftRight, Int.shiftRight_eq_div_pow]
    push_cast
    rfl

theorem shows_shl (isInteger : kind.isInteger = true) (left right : Value) :
    kind.Shows (ArithOp.shl.apply kind left right)
      (kind.wrap (kind.operand left * 2 ^ (right.toU32.toNat % kind.bits))) := by
  rw [(shifted isInteger left right).1]
  apply shows_of_modEq isInteger
  exact (shiftLeft_modEq _ _).trans ((kind.operand_modEq left).mul_right _)

theorem shows_shr (isInteger : kind.isInteger = true) (left right : Value) :
    kind.Shows (ArithOp.shr.apply kind left right)
      ((kind.operand left).fdiv (2 ^ (right.toU32.toNat % kind.bits))) := by
  rw [(shifted isInteger left right).2, operand, ← reading_shiftRight]
  exact shows_ofWord isInteger _

private theorem operand_of_shows (isInteger : kind.isInteger = true) {value : Value} {number : Int}
    (shows : kind.Shows value number) : kind.operand value = number :=
  (operand_eq isInteger shows.2).trans shows.wrap_eq

/-- Quotient and remainder make up the number again, also where the quotient itself wraps: the least
integer divided by minus one. -/
theorem quotient_times_divisor (isInteger : kind.isInteger = true) (left : Value) {right : Value}
    (nonzero : kind.operand right ≠ 0) :
    ArithOp.add.apply kind (ArithOp.mul.apply kind (ArithOp.div.apply kind left right) right)
      (ArithOp.rem.apply kind left right) = left.convert kind := by
  have quotient := shows_div isInteger left right
  have remainder := shows_rem isInteger left nonzero
  have product := shows_mul isInteger (ArithOp.div.apply kind left right) right
  have sum := shows_add isInteger
    (ArithOp.mul.apply kind (ArithOp.div.apply kind left right) right)
    (ArithOp.rem.apply kind left right)
  rw [operand_of_shows isInteger quotient] at product
  rw [operand_of_shows isInteger product, operand_of_shows isInteger remainder] at sum
  rw [Value.convert_eq_ofWord isInteger]
  apply sum.unique (shows_ofWord isInteger _)
  change _ ≡ kind.operand left [ZMOD 2 ^ kind.bits]
  calc
    _ ≡ kind.wrap (kind.wrap ((kind.operand left).tdiv (kind.operand right)) *
          kind.operand right) + (kind.operand left).tmod (kind.operand right)
          [ZMOD 2 ^ kind.bits] := kind.wrap_modEq _
    _ ≡ (kind.operand left).tdiv (kind.operand right) * kind.operand right +
          (kind.operand left).tmod (kind.operand right) [ZMOD 2 ^ kind.bits] :=
      ((kind.wrap_modEq _).trans ((kind.wrap_modEq _).mul_right _)).add_right _
    _ = kind.operand left := Int.tdiv_mul_add_tmod _ _

/-- What an integer kind makes of two operands, told by the integers that these stand for. Each
operand is read in the kind first; only the count of a shift is not. -/
structure Computes (kind : Kind) (left right : Value) (first second : Int) : Prop where
  converted : kind.Shows (left.convert kind) (kind.wrap first)
  congruent : kind.wrap first ≡ first [ZMOD 2 ^ kind.bits]
  unique : ∀ value number, kind.Shows value number → number ≡ first [ZMOD 2 ^ kind.bits] →
    value = left.convert kind
  detour : ∀ wide : Kind, wide.isInteger = true → kind.bits ≤ wide.bits →
    (left.convert wide).convert kind = left.convert kind
  sum : kind.Shows (ArithOp.add.apply kind left right)
    (kind.wrap (kind.wrap first + kind.wrap second))
  difference : kind.Shows (ArithOp.sub.apply kind left right)
    (kind.wrap (kind.wrap first - kind.wrap second))
  product : kind.Shows (ArithOp.mul.apply kind left right)
    (kind.wrap (kind.wrap first * kind.wrap second))
  negation : kind.Shows ((UnaryFn.negate kind).apply left) (kind.wrap (-kind.wrap first))
  quotient : kind.Shows (ArithOp.div.apply kind left right)
    (kind.wrap ((kind.wrap first).tdiv (kind.wrap second)))
  remainder : kind.wrap second ≠ 0 → kind.Shows (ArithOp.rem.apply kind left right)
    ((kind.wrap first).tmod (kind.wrap second))
  byZero : kind.wrap second = 0 → kind.Shows (ArithOp.div.apply kind left right) 0 ∧
    kind.Shows (ArithOp.rem.apply kind left right) 0
  reassembled : kind.wrap second ≠ 0 →
    ArithOp.add.apply kind (ArithOp.mul.apply kind (ArithOp.div.apply kind left right) right)
      (ArithOp.rem.apply kind left right) = left.convert kind
  shiftedLeft : kind.Shows (ArithOp.shl.apply kind left right)
    (kind.wrap (kind.wrap first * 2 ^ (second % kind.bits).toNat))
  shiftedRight : kind.Shows (ArithOp.shr.apply kind left right)
    ((kind.wrap first).fdiv (2 ^ (second % kind.bits).toNat))
  /-- The kind has every operator, and none of them is left without a result. -/
  total : ∀ op, BinaryFn.arith? op kind = some (.arith op kind) ∧
    ∃ number, kind.Shows ((BinaryFn.arith op kind).apply left right) number

end Kind

theorem integer_arithmetic (kind : Kind) (isInteger : kind.isInteger = true)
    (left right : Value) (first second : Int)
    (ofLeft : left.integer? = some first) (ofRight : right.integer? = some second) :
    kind.Computes left right first second := by
  have readLeft := Kind.operand_eq isInteger ofLeft
  have readRight := Kind.operand_eq isInteger ofRight
  have divides : (kind.bits : Int) ∣ 2 ^ 32 := by cases kind <;> decide
  have count := count_eq ofRight divides
  have converted := Value.shows_convert isInteger ofLeft
  constructor
  case converted => exact converted
  case congruent => exact kind.wrap_modEq first
  case unique =>
    intro value number shows same
    exact shows.unique converted (same.trans (kind.wrap_modEq first).symm)
  case detour =>
    intro wide wideInteger fits
    exact Value.convert_convert isInteger wideInteger fits ofLeft
  case sum =>
    rw [← readLeft, ← readRight]
    exact Kind.shows_add isInteger left right
  case difference =>
    rw [← readLeft, ← readRight]
    exact Kind.shows_sub isInteger left right
  case product =>
    rw [← readLeft, ← readRight]
    exact Kind.shows_mul isInteger left right
  case negation =>
    rw [← readLeft]
    exact Kind.shows_negate isInteger left
  case quotient =>
    rw [← readLeft, ← readRight]
    exact Kind.shows_div isInteger left right
  case remainder =>
    rw [← readLeft, ← readRight]
    exact Kind.shows_rem isInteger left
  case byZero =>
    rw [← readRight]
    exact Kind.shows_of_zero isInteger left
  case reassembled =>
    rw [← readRight]
    exact Kind.quotient_times_divisor isInteger left
  case shiftedLeft =>
    rw [← readLeft, ← count]
    exact Kind.shows_shl isInteger left right
  case shiftedRight =>
    rw [← readLeft, ← count]
    exact Kind.shows_shr isInteger left right
  case total =>
    intro op
    cases kind <;> first | exact ⟨rfl, _, rfl, rfl⟩ | cases isInteger

/-- The least 64-bit integer, with minus one as a 32-bit word: the quotient wraps around, and the
count of a shift is 63. -/
theorem least_by_minus_one :
    Kind.Computes .i64 (.i64 Int64.minValue) (.i32 (-1)) (-2 ^ 63) (-1) :=
  integer_arithmetic .i64 rfl _ _ _ _ rfl rfl

end MiniC
