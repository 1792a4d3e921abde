/-!
Floating-point numbers as their bits.

A script can copy a NaN, turn its sign and write it out, so a number is carried in
its IEEE form: what only moves keeps every bit. Arithmetic is done on what the
bits stand for. Which NaN it gives, if it gives one, is left open by the language;
here it is the first operand that is one, made quiet, or else the NaN of an
invalid operation, as processors of the x86-64 family have it.
-/

namespace MiniC

structure Binary32 where
  ofBits ::
  toBits : UInt32
deriving Repr

structure Binary64 where
  ofBits ::
  toBits : UInt64
deriving Repr

namespace Binary32

def ofFloat (number : Float32) : Binary32 := ⟨number.toBits⟩

def toFloat (number : Binary32) : Float32 := Float32.ofBits number.toBits

instance : Coe Float32 Binary32 := ⟨ofFloat⟩

instance : OfScientific Binary32 :=
  ⟨fun mantissa negative exponent => ofFloat (.ofScientific mantissa negative exponent)⟩

def isNaN (number : Binary32) : Bool := 0x7f800000 < number.toBits &&& 0x7fffffff

def quiet (number : Binary32) : Binary32 := ⟨number.toBits ||| 0x00400000⟩

/-- What an invalid operation gives. -/
def invalid : Binary32 := ⟨0xffc00000⟩

/-- The result of a computation with some operands. -/
def computed (operands : List Binary32) (result : Float32) : Binary32 :=
  if result.isNaN then ((operands.find? isNaN).map quiet).getD invalid else ofFloat result

instance : Neg Binary32 := ⟨fun number => ⟨number.toBits ^^^ 0x80000000⟩⟩

instance : Add Binary32 :=
  ⟨fun left right => computed [left, right] (left.toFloat + right.toFloat)⟩

instance : Sub Binary32 :=
  ⟨fun left right => computed [left, right] (left.toFloat - right.toFloat)⟩

instance : Mul Binary32 :=
  ⟨fun left right => computed [left, right] (left.toFloat * right.toFloat)⟩

instance : Div Binary32 :=
  ⟨fun left right => computed [left, right] (left.toFloat / right.toFloat)⟩

end Binary32

namespace Binary64

def ofFloat (number : Float) : Binary64 := ⟨number.toBits⟩

def toFloat (number : Binary64) : Float := Float.ofBits number.toBits

instance : Coe Float Binary64 := ⟨ofFloat⟩

instance : OfScientific Binary64 :=
  ⟨fun mantissa negative exponent => ofFloat (.ofScientific mantissa negative exponent)⟩

def isNaN (number : Binary64) : Bool :=
  0x7ff0000000000000 < number.toBits &&& 0x7fffffffffffffff

def quiet (number : Binary64) : Binary64 := ⟨number.toBits ||| 0x0008000000000000⟩

/-- What an invalid operation gives. -/
def invalid : Binary64 := ⟨0xfff8000000000000⟩

/-- The result of a computation with some operands. -/
def computed (operands : List Binary64) (result : Float) : Binary64 :=
  if result.isNaN then ((operands.find? isNaN).map quiet).getD invalid else ofFloat result

instance : Neg Binary64 := ⟨fun number => ⟨number.toBits ^^^ 0x8000000000000000⟩⟩

def abs (number : Binary64) : Binary64 := ⟨number.toBits &&& 0x7fffffffffffffff⟩

instance : Add Binary64 :=
  ⟨fun left right => computed [left, right] (left.toFloat + right.toFloat)⟩

instance : Sub Binary64 :=
  ⟨fun left right => computed [left, right] (left.toFloat - right.toFloat)⟩

instance : Mul Binary64 :=
  ⟨fun left right => computed [left, right] (left.toFloat * right.toFloat)⟩

instance : Div Binary64 :=
  ⟨fun left right => computed [left, right] (left.toFloat / right.toFloat)⟩

/-- The number in 32 bits; a NaN keeps its sign and the front of its payload. -/
def narrow (number : Binary64) : Binary32 :=
  if number.isNaN then
    let sign := number.toBits >>> 63 <<< 31
    let payload := number.toBits >>> 29 &&& 0x003fffff
    ⟨(sign ||| payload ||| 0x7fc00000).toUInt32⟩
  else .ofFloat number.toFloat.toFloat32

end Binary64

/-- The number in 64 bits; a NaN keeps its sign and its payload. -/
def Binary32.widen (number : Binary32) : Binary64 :=
  if number.isNaN then
    let bits := number.toBits.toUInt64
    let sign := bits >>> 31 <<< 63
    let payload := (bits &&& 0x003fffff) <<< 29
    ⟨sign ||| payload ||| 0x7ff8000000000000⟩
  else .ofFloat number.toFloat.toFloat

end MiniC
