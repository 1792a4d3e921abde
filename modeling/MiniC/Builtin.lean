import MiniC.Ty

/-!
The functions every script can call without declaring them.

Each has a signature: its name, its parameters, whether more arguments may
follow, its return type, and a category and description for listings.
-/

namespace MiniC

inductive Builtin where
  | sin
  | cos
  | tan
  | exp
  | exp2
  | log
  | log2
  | log10
  | sqrt
  | floor
  | ceil
  | fabs
  | atan
  | sinh
  | cosh
  | tanh
  | acos
  | pow
  | fmod
  | atan2
  | abs
  | gcd
  | rotl32
  | rotr32
  | rotl64
  | rotr64
  | printf
  | puts
  | putc
  | fwrite
  | checkPow
  | syncR
  | pullTheRest
deriving DecidableEq, Repr

inductive ParamKind where
  /-- Any number or truth value, converted to the kind. -/
  | num (kind : Kind)
  | str
  /-- A numeric array, by reference. -/
  | array
deriving DecidableEq, Repr

def ParamKind.text : ParamKind → String
  | .num kind => kind.name
  | .str => "string"
  | .array => "array"

structure Signature where
  name : String
  params : List (String × ParamKind)
  /-- Further arguments are accepted behind the parameters. -/
  variadic : Bool
  ret : Ty
  category : String
  description : String

namespace Signature

def text (signature : Signature) : String :=
  let params := signature.params.map fun (name, kind) => kind.text ++ " " ++ name
  let all := if signature.variadic then params ++ ["..."] else params
  let list := ", ".intercalate all
  s!"{signature.ret.text} {signature.name}({list})"

def real (name description : String) : Signature :=
  ⟨name, [("x", .num .f64)], false, .num .f64, "math", description⟩

def real2 (name first second description : String) : Signature :=
  ⟨name, [(first, .num .f64), (second, .num .f64)], false, .num .f64, "math", description⟩

def rotation (name : String) (kind : Kind) (description : String) : Signature :=
  ⟨name, [("x", .num kind), ("n", .num .i32)], false, .num kind, "integer", description⟩

end Signature

namespace Builtin

def all : List Builtin :=
  [sin, cos, tan, exp, exp2, log, log2, log10, sqrt, floor, ceil, fabs, atan, sinh, cosh, tanh, acos,
    pow, fmod, atan2, abs, gcd, rotl32, rotr32, rotl64, rotr64, printf, puts, putc, fwrite,
    checkPow, syncR, pullTheRest]

def signature : Builtin → Signature
  | sin => .real "sin" "Sine"
  | cos => .real "cos" "Cosine"
  | tan => .real "tan" "Tangent"
  | exp => .real "exp" "e^x"
  | exp2 => .real "exp2" "2^x"
  | log => .real "log" "Natural logarithm"
  | log2 => .real "log2" "Base-2 logarithm"
  | log10 => .real "log10" "Base-10 logarithm"
  | sqrt => .real "sqrt" "Square root"
  | floor => .real "floor" "Round down"
  | ceil => .real "ceil" "Round up"
  | fabs => .real "fabs" "Absolute value of a float"
  | atan => .real "atan" "Arctangent"
  | sinh => .real "sinh" "Hyperbolic sine"
  | cosh => .real "cosh" "Hyperbolic cosine"
  | tanh => .real "tanh" "Hyperbolic tangent"
  | acos => .real "acos" "Arccosine"
  | pow => .real2 "pow" "base" "exp" "Power"
  | fmod => .real2 "fmod" "a" "b" "Float remainder with the sign of a"
  | atan2 => .real2 "atan2" "y" "x" "Arctangent of y/x"
  | abs =>
      ⟨"abs", [("x", .num .i64)], false, .num .i64, "integer",
        "Absolute value (wraps at i64::MIN)"⟩
  | gcd =>
      ⟨"gcd", [("a", .num .i64), ("b", .num .i64)], false, .num .i64, "integer",
        "Greatest common divisor, never negative"⟩
  | rotl32 => .rotation "rotl32" .u32 "Rotate 32 bits left"
  | rotr32 => .rotation "rotr32" .u32 "Rotate 32 bits right"
  | rotl64 => .rotation "rotl64" .u64 "Rotate 64 bits left"
  | rotr64 => .rotation "rotr64" .u64 "Rotate 64 bits right"
  | printf =>
      ⟨"printf", [("format", .str)], true, .num .i32, "io",
        "Formatted output. Returns bytes written"⟩
  | puts => ⟨"puts", [("s", .str)], false, .num .i32, "io", "Write a string and a newline"⟩
  | putc =>
      ⟨"putc", [("ch", .num .i32), ("stream", .num .i32)], false, .num .i32, "io",
        "Write one byte. Returns the byte"⟩
  | fwrite =>
      ⟨"fwrite", [("buf", .array), ("size", .num .i64), ("count", .num .i64),
        ("stream", .num .i32)], false, .num .i64, "io",
        "Write the low `size` bytes of `count` elements, little-endian"⟩
  | checkPow =>
      ⟨"check_pow", [("a", .num .i32), ("b", .num .i32), ("c", .num .i32), ("d", .num .i32)], false,
        .num .i32, "result", "Hash the nonce, store the hash, 1 if it beats the target"⟩
  | syncR =>
      ⟨"sync_r", [], false, .void, "result",
        "Copy isPow/isBounty from the variable `r` into the result"⟩
  | pullTheRest =>
      ⟨"pull_the_rest", [("m", .array), ("s", .array)], false, .void, "result",
        "Copy personalized ints into m and storage into s"⟩

def find? (name : String) : Option Builtin :=
  all.find? fun builtin => builtin.signature.name = name

def streams : List (String × Int32) := [("stdout", 1), ("stderr", 2)]

end Builtin
end MiniC
