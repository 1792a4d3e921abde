import MiniC.WorkRecord
import MiniC.Digest.Md5

/-!
Proof of work.

Four words of a script and the first eight personal integers are hashed; the
hash counts when it is below the target of the record, both read as numbers with
the highest byte first.
-/

namespace MiniC.ProofOfWork

def mixedInts : Nat := 8

def intBytes (number : Int32) : List UInt8 := Word.lowBytes 4 number.toUInt32.toNat

def input (words : Vector Int32 4) (personalInts : PersonalInts) : List UInt8 :=
  (words.toList ++ personalInts.toList.take mixedInts).flatMap intBytes

/-- The digest with the bytes of each of its four words reversed. -/
def hash (message : List UInt8) (digest : List UInt8 → Vector UInt8 16 := Md5.digest) : Hash :=
  let bytes := digest message
  Vector.ofFn fun position => bytes.toArray.getD (4 * (position.val / 4) + (3 - position.val % 4)) 0

def precedes : List UInt8 → List UInt8 → Bool
  | left :: lefts, right :: rights =>
      if left = right then precedes lefts rights else left < right
  | _, _ => false

def belowTarget (candidate target : Hash) : Bool := precedes candidate.toList target.toList

/-- Hashes the words, notes the hash in the record, and answers one when it is below the target and
zero otherwise. Without a record, integers and target count as zero. -/
def check (words : Vector Int32 4) (record? : Option WorkRecord)
    (digest : List UInt8 → Vector UInt8 16 := Md5.digest) : Int32 × Option WorkRecord :=
  let record := record?.getD .blank
  let found := hash (input words record.personalInts) digest
  let answer : Int32 := if belowTarget found record.target then 1 else 0
  (answer, record?.map fun record => { record with powHash := found })

end MiniC.ProofOfWork
