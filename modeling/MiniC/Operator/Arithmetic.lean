import MiniC.Operator
import MiniC.Value

/-!
What the operators compute.

An operator works in one numeric kind and reads both operands in that kind.
Integer arithmetic wraps around, integer division truncates toward zero and by
zero gives zero, and a shift count is taken modulo the width. Remainder, shifts
and bit operators do not exist for floats.
-/

namespace MiniC

inductive ArithOp where
  | add
  | sub
  | mul
  | div
  | rem
  | shl
  | shr
  | bitAnd
  | bitOr
  | bitXor
deriving DecidableEq, Repr

inductive CompareOp where
  | lt
  | le
  | gt
  | ge
  | eq
  | ne
deriving DecidableEq, Repr

inductive Family where
  | arithmetic (op : ArithOp)
  | bitwise (op : ArithOp)
  | relational (op : CompareOp)
  | logical (isAnd : Bool)
deriving DecidableEq, Repr

def BinaryOp.family : BinaryOp → Family
  | .add => .arithmetic .add
  | .sub => .arithmetic .sub
  | .mul => .arithmetic .mul
  | .div => .arithmetic .div
  | .rem => .arithmetic .rem
  | .shl => .bitwise .shl
  | .shr => .bitwise .shr
  | .bitAnd => .bitwise .bitAnd
  | .bitOr => .bitwise .bitOr
  | .bitXor => .bitwise .bitXor
  | .lt => .relational .lt
  | .le => .relational .le
  | .gt => .relational .gt
  | .ge => .relational .ge
  | .eq => .relational .eq
  | .ne => .relational .ne
  | .and => .logical true
  | .or => .logical false

namespace ArithOp

def onFloats : ArithOp → Bool
  | add | sub | mul | div => true
  | _ => false

/-- The count operand is read as 32 bits. -/
def applyI32 (op : ArithOp) (left right : Int32) (count : UInt32) : Int32 :=
  match op with
  | add => left + right
  | sub => left - right
  | mul => left * right
  | div => if right = 0 then 0 else left / right
  | rem => if right = 0 then 0 else left % right
  | shl => left <<< (count % 32).toInt32
  | shr => left >>> (count % 32).toInt32
  | bitAnd => left &&& right
  | bitOr => left ||| right
  | bitXor => left ^^^ right

def applyU32 (op : ArithOp) (left right : UInt32) (count : UInt32) : UInt32 :=
  match op with
  | add => left + right
  | sub => left - right
  | mul => left * right
  | div => if right = 0 then 0 else left / right
  | rem => if right = 0 then 0 else left % right
  | shl => left <<< (count % 32)
  | shr => left >>> (count % 32)
  | bitAnd => left &&& right
  | bitOr => left ||| right
  | bitXor => left ^^^ right

def applyI64 (op : ArithOp) (left right : Int64) (count : UInt32) : Int64 :=
  match op with
  | add => left + right
  | sub => left - right
  | mul => left * right
  | div => if right = 0 then 0 else left / right
  | rem => if right = 0 then 0 else left % right
  | shl => left <<< (count % 64).toUInt64.toInt64
  | shr => left >>> (count % 64).toUInt64.toInt64
  | bitAnd => left &&& right
  | bitOr => left ||| right
  | bitXor => left ^^^ right

def applyU64 (op : ArithOp) (left right : UInt64) (count : UInt32) : UInt64 :=
  match op with
  | add => left + right
  | sub => left - right
  | mul => left * right
  | div => if right = 0 then 0 else left / right
  | rem => if right = 0 then 0 else left % right
  | shl => left <<< (count % 64).toUInt64
  | shr => left >>> (count % 64).toUInt64
  | bitAnd => left &&& right
  | bitOr => left ||| right
  | bitXor => left ^^^ right

def applyF32? (op : ArithOp) (left right : Binary32) : Option Binary32 :=
  match op with
  | add => some (left + right)
  | sub => some (left - right)
  | mul => some (left * right)
  | div => some (left / right)
  | _ => none

def applyF64? (op : ArithOp) (left right : Binary64) : Option Binary64 :=
  match op with
  | add => some (left + right)
  | sub => some (left - right)
  | mul => some (left * right)
  | div => some (left / right)
  | _ => none

def apply (op : ArithOp) (kind : Kind) (left right : Value) : Value :=
  match kind with
  | .i32 => .i32 (op.applyI32 left.toI32 right.toI32 right.toU32)
  | .u32 => .u32 (op.applyU32 left.toU32 right.toU32 right.toU32)
  | .i64 => .i64 (op.applyI64 left.toI64 right.toI64 right.toU32)
  | .u64 => .u64 (op.applyU64 left.toU64 right.toU64 right.toU32)
  | .f32 =>
      match op.applyF32? left.toF32 right.toF32 with
      | some number => .f32 number
      | none => .void
  | .f64 =>
      match op.applyF64? left.toF64 right.toF64 with
      | some number => .f64 number
      | none => .void

end ArithOp

namespace CompareOp

def decideI32 (op : CompareOp) (left right : Int32) : Bool :=
  match op with
  | lt => left < right
  | le => left ≤ right
  | gt => right < left
  | ge => right ≤ left
  | eq => left == right
  | ne => left != right

def decideU32 (op : CompareOp) (left right : UInt32) : Bool :=
  match op with
  | lt => left < right
  | le => left ≤ right
  | gt => right < left
  | ge => right ≤ left
  | eq => left == right
  | ne => left != right

def decideI64 (op : CompareOp) (left right : Int64) : Bool :=
  match op with
  | lt => left < right
  | le => left ≤ right
  | gt => right < left
  | ge => right ≤ left
  | eq => left == right
  | ne => left != right

def decideU64 (op : CompareOp) (left right : UInt64) : Bool :=
  match op with
  | lt => left < right
  | le => left ≤ right
  | gt => right < left
  | ge => right ≤ left
  | eq => left == right
  | ne => left != right

def decideF32 (op : CompareOp) (left right : Float32) : Bool :=
  match op with
  | lt => left < right
  | le => left ≤ right
  | gt => right < left
  | ge => right ≤ left
  | eq => left == right
  | ne => left != right

def decideF64 (op : CompareOp) (left right : Float) : Bool :=
  match op with
  | lt => left < right
  | le => left ≤ right
  | gt => right < left
  | ge => right ≤ left
  | eq => left == right
  | ne => left != right

def apply (op : CompareOp) (kind : Kind) (left right : Value) : Bool :=
  match kind with
  | .i32 => op.decideI32 left.toI32 right.toI32
  | .u32 => op.decideU32 left.toU32 right.toU32
  | .i64 => op.decideI64 left.toI64 right.toI64
  | .u64 => op.decideU64 left.toU64 right.toU64
  | .f32 => op.decideF32 left.toF32.toFloat right.toF32.toFloat
  | .f64 => op.decideF64 left.toF64.toFloat right.toF64.toFloat

end CompareOp

inductive BinaryFn where
  | arith (op : ArithOp) (kind : Kind)
  | compare (op : CompareOp) (kind : Kind)
  /-- Equality of two truth values, or their difference. -/
  | compareBool (equal : Bool)
deriving DecidableEq, Repr

namespace BinaryFn

def arith? (op : ArithOp) (kind : Kind) : Option BinaryFn :=
  if kind.isInteger || op.onFloats then some (arith op kind) else none

def compareBool? : CompareOp → Option BinaryFn
  | .eq => some (compareBool true)
  | .ne => some (compareBool false)
  | _ => none

def apply (fn : BinaryFn) (left right : Value) : Value :=
  match fn with
  | arith op kind => op.apply kind left right
  | compare op kind => .bool (op.apply kind left right)
  | compareBool equal => .bool ((left.truth == right.truth) == equal)

end BinaryFn

inductive UnaryFn where
  | negate (kind : Kind)
  | bitNot (kind : Kind)
  | not
deriving DecidableEq, Repr

namespace UnaryFn

def bitNot? (kind : Kind) : Option UnaryFn :=
  if kind.isInteger then some (bitNot kind) else none

def apply (fn : UnaryFn) (value : Value) : Value :=
  match fn with
  | negate .i32 => .i32 (-value.toI32)
  | negate .u32 => .u32 (-value.toU32)
  | negate .i64 => .i64 (-value.toI64)
  | negate .u64 => .u64 (-value.toU64)
  | negate .f32 => .f32 (-value.toF32)
  | negate .f64 => .f64 (-value.toF64)
  | bitNot .i32 => .i32 (~~~value.toI32)
  | bitNot .u32 => .u32 (~~~value.toU32)
  | bitNot .i64 => .i64 (~~~value.toI64)
  | bitNot .u64 => .u64 (~~~value.toU64)
  | bitNot _ => .void
  | not => .bool (!value.truth)

end UnaryFn
end MiniC
