import MiniC.Builtin
import MiniC.Decimal.Double
import MiniC.Failure
import MiniC.Format
import MiniC.ProofOfWork
import MiniC.World

/-!
What the builtin functions do.

An argument that is missing reads as the empty value. Only output can fail; what
was written before the failure stays written.
-/

namespace MiniC.Builtin

structure Outcome where
  result : Except RuntimeError Value
  world : World

def Outcome.ok (value : Value) (world : World) : Outcome := ⟨.ok value, world⟩

/-- Writes bytes, then goes on in the new world; a refused write ends the call. -/
def writeThen (world : World) (bytes : ByteArray) (next : World → Outcome) : Outcome :=
  let ⟨heap, sink, record?⟩ := world
  match sink.write bytes with
  | (sink, none) => next ⟨heap, sink, record?⟩
  | (sink, some reason) => ⟨.error (.output reason), ⟨heap, sink, record?⟩⟩

def argAt (args : List Value) (index : Nat) : Value := (args[index]?).getD .void

def absolute (number : Int64) : Int64 := if number < 0 then -number else number

def magnitude (number : Int64) : UInt64 := (absolute number).toUInt64

/-- Puts the remainder of the first by the second in place of the first, until it is zero. -/
def euclid (left right : UInt64) : UInt64 :=
  if right = 0 then left else euclid right (left % right)
termination_by right.toNat
decreasing_by exact UInt64.lt_iff_toNat_lt.mp (UInt64.mod_lt left (UInt64.pos_iff_ne_zero.mpr ‹_›))

def gcdOf (left right : Int64) : Int64 := (euclid (magnitude left) (magnitude right)).toInt64

def byteCount (size : Nat) : Int32 := Int32.ofNat (min size (Nat.pow 2 31 - 1))

def runPrintf (args : List Value) (world : World) : Outcome :=
  let text :=
    match args with
    | .str text :: rest => format text rest
    | _ => ""
  writeThen world text.toUTF8 (.ok (.i32 (byteCount text.utf8ByteSize)))

def runPuts (args : List Value) (world : World) : Outcome :=
  let text :=
    match args with
    | .str text :: _ => text
    | _ => ""
  writeThen world text.toUTF8 fun world => writeThen world "\n".toUTF8 (.ok (.i32 1))

def runPutc (args : List Value) (world : World) : Outcome :=
  let char := (argAt args 0).toI32
  let byte := char.toUInt32.toUInt8
  writeThen world (ByteArray.empty.push byte) (.ok (.i32 (Int32.ofNat byte.toNat)))

/-- The bits of an element: two's complement for integers, IEEE bits for floats. -/
def elementBits : Value → UInt64
  | .f32 number => number.toBits.toUInt64
  | .f64 number => number.toBits
  | other => other.toU64

def elementBytes (size count : Nat) (elements : Array Value) : ByteArray :=
  (elements.toList.take count).foldl (fun bytes element =>
    (Word.lowBytes size (elementBits element).toNat).foldl ByteArray.push bytes) .empty

def runFwrite (args : List Value) (world : World) : Outcome :=
  let size := min 8 (argAt args 1).toI64.toInt.toNat
  let count := (argAt args 2).toI64.toInt.toNat
  match argAt args 0 with
  | .array address =>
      match world.heap[address]? with
      | some (.array _ elements) =>
          if size = 0 then .ok (.i64 0) world
          else
            writeThen world (elementBytes size count elements)
              (.ok (.i64 (Int64.ofNat (min count elements.size))))
      | _ => .ok (.i64 0) world
  | _ => .ok (.i64 0) world

def runCheckPow (args : List Value) (world : World) : Outcome :=
  let word (index : Nat) : Int32 := (argAt args index).toI32
  let (answer, record?) := ProofOfWork.check #v[word 0, word 1, word 2, word 3] world.record?
  .ok (.i32 answer) { world with record? }

def flagsOf? (object : Object) : Option (Bool × Bool) :=
  match object with
  | .struct _ _ _ => do
      let pow ← object.field? "isPow"
      let bounty ← object.field? "isBounty"
      return (pow.truth, bounty.truth)
  | .array _ elements => do
      let pow ← elements[0]?
      let bounty ← elements[1]?
      return (pow.truth, bounty.truth)

def objectOf? (heap : Heap) : Value → Option Object
  | .array address => heap[address]?
  | .struct address => heap[address]?
  | _ => none

def runSyncR (args : List Value) (world : World) : Outcome :=
  let flags? := (args.head?.bind (objectOf? world.heap)).bind flagsOf?
  match flags? with
  | some (isPow, isBounty) =>
      .ok .void
        { world with record? := world.record?.map fun record => { record with isPow, isBounty } }
  | none => .ok .void world

/-- The array with its first elements replaced by integers converted to its kind. -/
def overwrite (numbers : List Int32) : Object → Object
  | .array kind elements =>
      let fresh := (numbers.take elements.size).map fun number => (Value.i32 number).convert kind
      .array kind (fresh.toArray ++ elements.extract numbers.length elements.size)
  | other => other

def arrayLength? (heap : Heap) (address : Address) : Option Nat :=
  match heap[address]? with
  | some (.array _ elements) => some elements.size
  | _ => none

/-- Copies the personal integers and the storage into two arrays of just the right lengths;
otherwise copies nothing. -/
def runPullTheRest (args : List Value) (world : World) : Outcome :=
  match argAt args 0, argAt args 1, world.record? with
  | .array ints, .array storage, some record =>
      let fits :=
        arrayLength? world.heap ints = some 12 &&
          arrayLength? world.heap storage = some record.storage.length
      if fits then
        let heap := world.heap.modify ints (overwrite record.personalInts.toList)
        .ok .void { world with heap := heap.modify storage (overwrite record.storage) }
      else .ok .void world
  | _, _, _ => .ok .void world

def invoke (builtin : Builtin) (args : List Value) (world : World) : Outcome :=
  let real (function : Float → Float) : Outcome :=
    let operand := (argAt args 0).toF64
    .ok (.f64 (.computed [operand] (function operand.toFloat))) world
  let real2 (function : Float → Float → Float) : Outcome :=
    let left := (argAt args 0).toF64
    let right := (argAt args 1).toF64
    .ok (.f64 (.computed [left, right] (function left.toFloat right.toFloat))) world
  match builtin with
  | sin => real Float.sin
  | cos => real Float.cos
  | tan => real Float.tan
  | exp => real Float.exp
  | exp2 => real Float.exp2
  | log => real Float.log
  | log2 => real Float.log2
  | log10 => real Float.log10
  | sqrt => real Float.sqrt
  | floor => real Float.floor
  | ceil => real Float.ceil
  | fabs => .ok (.f64 (argAt args 0).toF64.abs) world
  | atan => real Float.atan
  | sinh => real Float.sinh
  | cosh => real Float.cosh
  | tanh => real Float.tanh
  | acos => real Float.acos
  | pow => real2 Float.pow
  | fmod => real2 Decimal.remainder
  | atan2 => real2 Float.atan2
  | abs => .ok (.i64 (absolute (argAt args 0).toI64)) world
  | gcd => .ok (.i64 (gcdOf (argAt args 0).toI64 (argAt args 1).toI64)) world
  | rotl32 => .ok (.u32 (Word.rotateLeft32 (argAt args 0).toU32 (argAt args 1).toU32)) world
  | rotr32 => .ok (.u32 (Word.rotateRight32 (argAt args 0).toU32 (argAt args 1).toU32)) world
  | rotl64 =>
      .ok (.u64 (Word.rotateLeft64 (argAt args 0).toU64 (argAt args 1).toU32.toUInt64)) world
  | rotr64 =>
      .ok (.u64 (Word.rotateRight64 (argAt args 0).toU64 (argAt args 1).toU32.toUInt64)) world
  | printf => runPrintf args world
  | puts => runPuts args world
  | putc => runPutc args world
  | fwrite => runFwrite args world
  | checkPow => runCheckPow args world
  | syncR => runSyncR args world
  | pullTheRest => runPullTheRest args world

end MiniC.Builtin
