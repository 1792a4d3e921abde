/-!
Machine words: byte order and rotation.
-/

namespace MiniC.Word

def lowBytes : Nat → Nat → List UInt8
  | 0, _ => []
  | count + 1, number => UInt8.ofNat (number % 256) :: lowBytes count (number / 256)

/-- The number that a list of bytes spells, lowest first. -/
def ofLowBytes : List UInt8 → Nat
  | [] => 0
  | byte :: rest => byte.toNat + 256 * ofLowBytes rest

def rotateLeft32 (word count : UInt32) : UInt32 :=
  (word <<< (count % 32)) ||| (word >>> (32 - count % 32))

def rotateRight32 (word count : UInt32) : UInt32 :=
  (word >>> (count % 32)) ||| (word <<< (32 - count % 32))

def rotateLeft64 (word count : UInt64) : UInt64 :=
  (word <<< (count % 64)) ||| (word >>> (64 - count % 64))

def rotateRight64 (word count : UInt64) : UInt64 :=
  (word >>> (count % 64)) ||| (word <<< (64 - count % 64))

end MiniC.Word
