import Mathlib.Data.Int.ModEq
import MiniC.Builtin.Invoke
import MiniC.Proofs.Word.Bytes
import MiniC.Proofs.Value.Integers

/-!
What a check of proof of work decides.

The message that is hashed tells the four words and eight integers apart from all
others, the hash is the digest with each of its words turned around, and the
answer compares it with the target as numbers of sixteen bytes. None of this
depends on the digest.
-/

namespace MiniC.ProofOfWork

open Md5 (pieces)
open Word

/-- The twelve integers that are hashed. -/
def mixed (words : Vector Int32 4) (personalInts : PersonalInts) : List Int32 :=
  words.toList ++ personalInts.toList.take 8

private theorem length_mixed (words : Vector Int32 4) (personalInts : PersonalInts) :
    (mixed words personalInts).length = 12 := by
  rw [mixed, List.length_append, List.length_take, Vector.length_toList, Vector.length_toList]
  rfl

/-- Two's complement in thirty-two bits. -/
theorem toNat_toUInt32 (number : Int32) :
    number.toUInt32.toNat = (number.toInt % 2 ^ 32).toNat := by
  have same : number.toInt % 2 ^ 32 = (number.toUInt32.toNat : Int) % 2 ^ 32 :=
    signed_modEq number.toBitVec
  have bound := number.toUInt32.toNat_lt
  omega

private theorem eq_of_toUInt32 {left right : Int32}
    (same : left.toUInt32.toNat = right.toUInt32.toNat) : left = right :=
  Int32.toBitVec_inj.mp (BitVec.eq_of_toNat_eq same)

private theorem ofLowBytes_input (words : Vector Int32 4) (personalInts : PersonalInts) :
    (pieces 4 12 (input words personalInts)).map ofLowBytes =
      (mixed words personalInts).map fun number => number.toUInt32.toNat := by
  have read := ofLowBytes_pieces 4 (fun number : Int32 => number.toUInt32.toNat)
    (mixed words personalInts)
  rw [length_mixed] at read
  refine read.trans (List.map_congr_left fun number _ => ?_)
  exact Nat.mod_eq_of_lt number.toUInt32.toNat_lt

private theorem length_input (words : Vector Int32 4) (personalInts : PersonalInts) :
    (input words personalInts).length = 48 := by
  have counted := length_flatMap_lowBytes 4 (fun number : Int32 => number.toUInt32.toNat)
    (mixed words personalInts)
  rw [length_mixed] at counted
  exact counted

theorem input_eq_iff {words others : Vector Int32 4} {personalInts otherInts : PersonalInts} :
    input words personalInts = input others otherInts ↔
      mixed words personalInts = mixed others otherInts := by
  constructor
  · intro same
    have read := ofLowBytes_input words personalInts
    rw [same, ofLowBytes_input] at read
    exact ((List.map_inj_right fun _ _ => eq_of_toUInt32).mp read).symm
  · intro same
    change (mixed words personalInts).flatMap intBytes = (mixed others otherInts).flatMap intBytes
    rw [same]

private theorem toList_hash (message : List UInt8) (digest : List UInt8 → Vector UInt8 16) :
    (hash message digest).toList = (pieces 4 4 (digest message).toList).flatMap List.reverse := by
  unfold hash
  obtain ⟨⟨bytes⟩, size⟩ := digest message
  -- sixteen bytes, each of which goes to a place of its own
  match bytes, size with
  | [_, _, _, _, _, _, _, _, _, _, _, _, _, _, _, _], rfl =>
      rw [Vector.toList_ofFn]
      simp only [List.ofFn_succ, List.ofFn_zero]
      rfl

/-- A higher first digit outweighs everything behind it. -/
theorem weighted_lt {first second low high weight : Nat} (below : first < second)
    (small : low < weight) : first * weight + low < second * weight + high := by
  have whole := Nat.mul_le_mul_right weight (Nat.succ_le_of_lt below)
  rw [Nat.succ_mul] at whole
  omega

private theorem precedes_iff_lt {left right : List UInt8} (same : left.length = right.length) :
    precedes left right = true ↔ ofHighBytes left < ofHighBytes right := by
  induction left generalizing right with
  | nil =>
      cases List.length_eq_zero_iff.mp same.symm
      simp [precedes]
  | cons first lefts ih =>
      cases right with
      | nil => cases same
      | cons second rights =>
          have same : lefts.length = rights.length := Nat.succ.inj same
          have low := ofHighBytes_lt lefts
          have high := ofHighBytes_lt rights
          rw [← same] at high
          rw [precedes, ofHighBytes_cons, ofHighBytes_cons, ← same]
          by_cases equal : first = second
          · rw [if_pos equal, ih same, equal]
            omega
          · rw [if_neg equal, decide_eq_true_iff, UInt8.lt_iff_toNat_lt]
            constructor
            · exact fun below => weighted_lt below low
            · intro below
              by_contra notBelow
              have above : second.toNat < first.toNat :=
                lt_of_le_of_ne (Nat.le_of_not_lt notBelow)
                  fun reached => equal (UInt8.toNat_inj.mp reached.symm)
              exact Nat.lt_asymm below (weighted_lt above high)

theorem belowTarget_iff (candidate target : Hash) :
    belowTarget candidate target = true ↔
      ofHighBytes candidate.toList < ofHighBytes target.toList :=
  precedes_iff_lt (by rw [Vector.length_toList, Vector.length_toList])

private theorem words_of_args (words : Vector Int32 4) :
    let word (index : Nat) := (Builtin.argAt (words.toList.map .i32) index).toI32
    #v[word 0, word 1, word 2, word 3] = words := by
  obtain ⟨⟨numbers⟩, size⟩ := words
  match numbers, size with
  | [_, _, _, _], rfl => rfl

private theorem invoke_checkPow (words : Vector Int32 4) (world : World) :
    Builtin.invoke .checkPow (words.toList.map .i32) world =
      .ok (.i32 (check words world.record?).1)
        { world with record? := (check words world.record?).2 } := by
  change Builtin.runCheckPow _ _ = _
  rw [Builtin.runCheckPow]
  dsimp only
  rw [words_of_args]

/-- Whatever the digest is: the message has the twelve integers, each lowest byte first, and no
others; the hash is the digest with each word turned around; the answer is one exactly if the hash
is less than the target, and of the record nothing but the hash changes. A script that checks its
words does just this. -/
theorem check_decides (digest : List UInt8 → Vector UInt8 16) (words : Vector Int32 4)
    (record : WorkRecord) :
    (input words record.personalInts).length = 48 ∧
      (pieces 4 12 (input words record.personalInts)).map ofLowBytes =
        (mixed words record.personalInts).map (fun number => (number.toInt % 2 ^ 32).toNat) ∧
      (∀ others otherInts, input others otherInts = input words record.personalInts ↔
        mixed others otherInts = mixed words record.personalInts) ∧
      (∃ found : Hash,
        found.toList =
          (pieces 4 4 (digest (input words record.personalInts)).toList).flatMap List.reverse ∧
        check words (some record) digest =
          (if ofHighBytes found.toList < ofHighBytes record.target.toList then 1 else 0,
            some { record with powHash := found })) ∧
      ∀ heap sink,
        Builtin.invoke .checkPow (words.toList.map .i32) ⟨heap, sink, some record⟩ =
          .ok (.i32 (check words (some record)).1) ⟨heap, sink, (check words (some record)).2⟩ := by
  refine ⟨length_input _ _, ?_, fun others otherInts => input_eq_iff, ?_, ?_⟩
  · rw [ofLowBytes_input]
    exact List.map_congr_left fun number _ => toNat_toUInt32 number
  · refine ⟨hash (input words record.personalInts) digest, toList_hash _ _, ?_⟩
    simp only [check, Option.getD_some, Option.map_some, belowTarget_iff]
  · exact fun heap sink => invoke_checkPow words ⟨heap, sink, some record⟩

end MiniC.ProofOfWork
