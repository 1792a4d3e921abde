import MiniC.Word

/-!
The MD5 digest.

A message is padded to whole blocks of sixteen words; each block is mixed into a
state of four words in sixty-four steps.
-/

namespace MiniC.Md5

/-- The sixty-four additive constants: the integer parts of `2 ^ 32 * |sin (step + 1)|`. -/
def sineTable : Array UInt32 :=
  #[0xd76aa478, 0xe8c7b756, 0x242070db, 0xc1bdceee, 0xf57c0faf, 0x4787c62a,
    0xa8304613, 0xfd469501, 0x698098d8, 0x8b44f7af, 0xffff5bb1, 0x895cd7be,
    0x6b901122, 0xfd987193, 0xa679438e, 0x49b40821, 0xf61e2562, 0xc040b340,
    0x265e5a51, 0xe9b6c7aa, 0xd62f105d, 0x02441453, 0xd8a1e681, 0xe7d3fbc8,
    0x21e1cde6, 0xc33707d6, 0xf4d50d87, 0x455a14ed, 0xa9e3e905, 0xfcefa3f8,
    0x676f02d9, 0x8d2a4c8a, 0xfffa3942, 0x8771f681, 0x6d9d6122, 0xfde5380c,
    0xa4beea44, 0x4bdecfa9, 0xf6bb4b60, 0xbebfbc70, 0x289b7ec6, 0xeaa127fa,
    0xd4ef3085, 0x04881d05, 0xd9d4d039, 0xe6db99e5, 0x1fa27cf8, 0xc4ac5665,
    0xf4292244, 0x432aff97, 0xab9423a7, 0xfc93a039, 0x655b59c3, 0x8f0ccc92,
    0xffeff47d, 0x85845dd1, 0x6fa87e4f, 0xfe2ce6e0, 0xa3014314, 0x4e0811a1,
    0xf7537e82, 0xbd3af235, 0x2ad7d2bb, 0xeb86d391]

def rotations : Array UInt32 :=
  #[7, 12, 17, 22, 5, 9, 14, 20, 4, 11, 16, 23, 6, 10, 15, 21]

structure State where
  a : UInt32
  b : UInt32
  c : UInt32
  d : UInt32

def State.initial : State := ⟨0x67452301, 0xefcdab89, 0x98badcfe, 0x10325476⟩

def mix (state : State) (step : Nat) : UInt32 × Nat :=
  let ⟨_, b, c, d⟩ := state
  match step / 16 with
  | 0 => ((b &&& c) ||| (~~~b &&& d), step)
  | 1 => ((d &&& b) ||| (~~~d &&& c), (5 * step + 1) % 16)
  | 2 => (b ^^^ c ^^^ d, (3 * step + 5) % 16)
  | _ => (c ^^^ (b ||| ~~~d), (7 * step) % 16)

def step (words : Array UInt32) (state : State) (index : Nat) : State :=
  let (mixed, word) := mix state index
  let sum := state.a + mixed + sineTable.getD index 0 + words.getD word 0
  let amount := rotations.getD (4 * (index / 16) + index % 4) 0
  ⟨state.d, state.b + Word.rotateLeft32 sum amount, state.b, state.c⟩

def absorb (state : State) (words : Array UInt32) : State :=
  let mixed := (List.range 64).foldl (step words) state
  ⟨state.a + mixed.a, state.b + mixed.b, state.c + mixed.c, state.d + mixed.d⟩

/-- What is appended to a message of the given length: a one bit, zeros, and the length in bits. -/
def padding (length : Nat) : List UInt8 :=
  0x80 :: (List.replicate ((119 - length % 64) % 64) 0 ++ Word.lowBytes 8 (8 * length))

def pieces (size : Nat) : Nat → List UInt8 → List (List UInt8)
  | 0, _ => []
  | count + 1, bytes => bytes.take size :: pieces size count (bytes.drop size)

def blockWords (block : List UInt8) : Array UInt32 :=
  ((pieces 4 16 block).map fun bytes => UInt32.ofNat (Word.ofLowBytes bytes)).toArray

def finalState (message : List UInt8) : State :=
  let padded := message ++ padding message.length
  (pieces 64 (padded.length / 64) padded).foldl (fun state block => absorb state (blockWords block))
    State.initial

def State.byte (state : State) (position : Nat) : UInt8 :=
  let word :=
    match position / 4 with
    | 0 => state.a
    | 1 => state.b
    | 2 => state.c
    | _ => state.d
  UInt8.ofNat (word.toNat / Nat.pow 256 (position % 4) % 256)

def digest (message : List UInt8) : Vector UInt8 16 :=
  let state := finalState message
  Vector.ofFn fun position => state.byte position.val

end MiniC.Md5
