import Mathlib.Tactic.Ring
import MiniC.Digest.Md5

/-!
Numbers as bytes.

Writing a number in a fixed count of bytes and reading them again gives the
number modulo a power of 256. A text of such numbers is cut into pieces of one
width and read piece by piece. Read with the highest byte first, texts of one
length are ordered as their numbers are.
-/

namespace MiniC.Word

open Md5 (pieces)

@[simp]
theorem length_lowBytes (count number : Nat) : (lowBytes count number).length = count := by
  induction count generalizing number with
  | zero => rfl
  | succ count ih => rw [lowBytes, List.length_cons, ih]

private theorem ofLowBytes_lowBytes (count number : Nat) :
    ofLowBytes (lowBytes count number) = number % 256 ^ count := by
  induction count generalizing number with
  | zero => rw [lowBytes, ofLowBytes, pow_zero, Nat.mod_one]
  | succ count ih =>
      have byte : (UInt8.ofNat (number % 256)).toNat = number % 256 :=
        UInt8.toNat_ofNat_of_lt (Nat.mod_lt number (by decide))
      rw [lowBytes, ofLowBytes, ih, byte, pow_succ', Nat.mod_mul]

private theorem ofLowBytes_lt (bytes : List UInt8) : ofLowBytes bytes < 256 ^ bytes.length := by
  induction bytes with
  | nil => exact Nat.one_pos
  | cons byte rest ih =>
      have small := byte.toNat_lt
      rw [ofLowBytes, List.length_cons, pow_succ]
      omega

private theorem ofLowBytes_concat (bytes : List UInt8) (last : UInt8) :
    ofLowBytes (bytes ++ [last]) = ofLowBytes bytes + last.toNat * 256 ^ bytes.length := by
  induction bytes with
  | nil => simp only [List.nil_append, ofLowBytes, List.length_nil, pow_zero]; omega
  | cons byte rest ih =>
      rw [List.cons_append, ofLowBytes, ofLowBytes, ih, List.length_cons, pow_succ]
      ring

/-- The number that a list of bytes spells, highest first. -/
def ofHighBytes (bytes : List UInt8) : Nat := ofLowBytes bytes.reverse

theorem ofHighBytes_cons (byte : UInt8) (rest : List UInt8) :
    ofHighBytes (byte :: rest) = byte.toNat * 256 ^ rest.length + ofHighBytes rest := by
  rw [ofHighBytes, List.reverse_cons, ofLowBytes_concat, List.length_reverse, Nat.add_comm]
  rfl

theorem ofHighBytes_lt (bytes : List UInt8) : ofHighBytes bytes < 256 ^ bytes.length := by
  rw [← List.length_reverse]
  exact ofLowBytes_lt bytes.reverse

private theorem pieces_flatMap {α : Type} {encode : α → List UInt8} {width : Nat}
    (sized : ∀ item, (encode item).length = width) (items : List α) :
    pieces width items.length (items.flatMap encode) = items.map encode := by
  induction items with
  | nil => rfl
  | cons item rest ih =>
      rw [List.flatMap_cons, List.length_cons, pieces, List.take_left' (sized item),
        List.drop_left' (sized item), ih, List.map_cons]

/-- Numbers written in one width are read back, modulo what the width can hold. -/
theorem ofLowBytes_pieces {α : Type} (width : Nat) (number : α → Nat) (items : List α) :
    (pieces width items.length (items.flatMap fun item => lowBytes width (number item))).map
        ofLowBytes =
      items.map fun item => number item % 256 ^ width := by
  rw [pieces_flatMap fun item => length_lowBytes width (number item), List.map_map]
  exact List.map_congr_left fun item _ => ofLowBytes_lowBytes width (number item)

theorem length_flatMap_lowBytes {α : Type} (width : Nat) (number : α → Nat) (items : List α) :
    (items.flatMap fun item => lowBytes width (number item)).length = items.length * width := by
  induction items with
  | nil => rw [List.flatMap_nil, List.length_nil, List.length_nil, Nat.zero_mul]
  | cons item rest ih =>
      rw [List.flatMap_cons, List.length_append, length_lowBytes, ih, List.length_cons,
        Nat.succ_mul, Nat.add_comm]

end MiniC.Word
