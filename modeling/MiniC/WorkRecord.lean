/-!
The record that a host and a script exchange.

The host fills in the target, the storage and the personal integers before a
run; the script sets the two flags and the hash.
-/

namespace MiniC

abbrev Hash := Vector UInt8 16

abbrev PersonalInts := Vector Int32 12

structure WorkRecord where
  isPow : Bool
  isBounty : Bool
  powHash : Hash
  target : Hash
  storage : List Int32
  personalInts : PersonalInts
deriving DecidableEq, Repr

namespace WorkRecord

def zeroHash : Hash := Vector.replicate 16 0

def zeroInts : PersonalInts := Vector.replicate 12 0

def blank : WorkRecord :=
  ⟨false, false, zeroHash, zeroHash, [], zeroInts⟩

def new (target : Hash) (personalInts : PersonalInts) (storage : List Int32) : WorkRecord :=
  { blank with target, personalInts, storage }

end WorkRecord

instance : Inhabited WorkRecord := ⟨.blank⟩

end MiniC
