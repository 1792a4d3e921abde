import MiniC.Floating
import MiniC.Ty

/-!
Run-time values and their conversions.

Arrays and structs are references into a heap; all else is held directly. Every
value has a reading in every numeric kind: integers wrap, a float becomes the
nearest integer toward zero that the kind can hold, and what is not a number
reads as zero.
-/

namespace MiniC

abbrev Address := Nat

inductive Value where
  | i32 (number : Int32)
  | u32 (number : UInt32)
  | i64 (number : Int64)
  | u64 (number : UInt64)
  | f32 (number : Binary32)
  | f64 (number : Binary64)
  | bool (truth : Bool)
  | str (text : String)
  | array (address : Address)
  | struct (address : Address)
  | void
deriving Inhabited

namespace Value

def toI32 : Value → Int32
  | i32 number => number
  | u32 number => number.toInt32
  | i64 number => number.toInt32
  | u64 number => number.toUInt32.toInt32
  | f32 number => number.toFloat.toInt32
  | f64 number => number.toFloat.toInt32
  | bool truth => if truth then 1 else 0
  | _ => 0

def toU32 : Value → UInt32
  | i32 number => number.toUInt32
  | u32 number => number
  | i64 number => number.toUInt64.toUInt32
  | u64 number => number.toUInt32
  | f32 number => number.toFloat.toUInt32
  | f64 number => number.toFloat.toUInt32
  | bool truth => if truth then 1 else 0
  | _ => 0

def toI64 : Value → Int64
  | i32 number => number.toInt64
  | u32 number => number.toUInt64.toInt64
  | i64 number => number
  | u64 number => number.toInt64
  | f32 number => number.toFloat.toInt64
  | f64 number => number.toFloat.toInt64
  | bool truth => if truth then 1 else 0
  | _ => 0

def toU64 : Value → UInt64
  | i32 number => number.toInt64.toUInt64
  | u32 number => number.toUInt64
  | i64 number => number.toUInt64
  | u64 number => number
  | f32 number => number.toFloat.toUInt64
  | f64 number => number.toFloat.toUInt64
  | bool truth => if truth then 1 else 0
  | _ => 0

def toF32 : Value → Binary32
  | i32 number => number.toFloat32
  | u32 number => number.toFloat32
  | i64 number => number.toFloat32
  | u64 number => number.toFloat32
  | f32 number => number
  | f64 number => number.narrow
  | bool truth => if truth then 1.0 else 0.0
  | _ => 0.0

def toF64 : Value → Binary64
  | i32 number => number.toFloat
  | u32 number => number.toFloat
  | i64 number => number.toFloat
  | u64 number => number.toFloat
  | f32 number => number.widen
  | f64 number => number
  | bool truth => if truth then 1.0 else 0.0
  | _ => 0.0

def truth : Value → Bool
  | bool truth => truth
  | f32 number => number.toFloat != 0.0
  | f64 number => number.toFloat != 0.0
  | other => other.toU64 != 0

def convert (kind : Kind) (value : Value) : Value :=
  match kind with
  | .i32 => i32 value.toI32
  | .u32 => u32 value.toU32
  | .i64 => i64 value.toI64
  | .u64 => u64 value.toU64
  | .f32 => f32 value.toF32
  | .f64 => f64 value.toF64

def zero : Kind → Value
  | .i32 => i32 0
  | .u32 => u32 0
  | .i64 => i64 0
  | .u64 => u64 0
  | .f32 => f32 0.0
  | .f64 => f64 0.0

/-- The value that a scalar variable of the type starts with. -/
def initial : Ty → Value
  | .num kind => zero kind
  | .bool => bool false
  | .str => str ""
  | _ => void

def exitCode? : Value → Option Int64
  | str _ | array _ | struct _ | void => none
  | number => some number.toI64

end Value
end MiniC
