import MiniC.Proofs.Builtin.Writes
import MiniC.Proofs.Value.Integers
import MiniC.Proofs.Word.Bytes

/-!
What writing an array leaves in the sink.

The bytes decode to the elements: cut into pieces of the width that was asked
for, each piece is the low end of the bits of one element. Width and count are
brought into their ranges first, whatever numbers a script passes.
-/

namespace MiniC

/-- The bits of a number in sixty-four: two's complement for an integer, the IEEE form that a float
is carried in. -/
def Value.bits : Value → Nat
  | .f32 number => number.toBits.toNat
  | .f64 number => number.toBits.toNat
  | other => (other.integer?.getD 0 % 2 ^ 64).toNat

namespace Builtin

open Word

private theorem toNat_of_modEq {word : UInt64} {number : Int}
    (same : word.toNat ≡ number [ZMOD 2 ^ 64]) : word.toNat = (number % 2 ^ 64).toNat := by
  have residue : (word.toNat : Int) % 2 ^ 64 = number % 2 ^ 64 := same
  have bound := word.toNat_lt
  omega

private theorem toNat_elementBits (element : Value) :
    (elementBits element).toNat = element.bits := by
  cases element with
  | i32 number => exact toNat_of_modEq (@Value.toU64_modEq (.i32 number) _ rfl)
  | u32 number => exact toNat_of_modEq (@Value.toU64_modEq (.u32 number) _ rfl)
  | i64 number => exact toNat_of_modEq (@Value.toU64_modEq (.i64 number) _ rfl)
  | u64 number => exact toNat_of_modEq (@Value.toU64_modEq (.u64 number) _ rfl)
  | bool truth => exact toNat_of_modEq (@Value.toU64_modEq (.bool truth) _ rfl)
  | f32 number => exact UInt32.toNat_toUInt64 number.toBits
  | f64 number => rfl
  | str text => rfl
  | array address => rfl
  | struct address => rfl
  | void => rfl

private theorem toList_foldl_push (bytes : List UInt8) (buffer : ByteArray) :
    (bytes.foldl ByteArray.push buffer).data.toList = buffer.data.toList ++ bytes := by
  induction bytes generalizing buffer with
  | nil => rw [List.foldl_nil, List.append_nil]
  | cons byte rest ih =>
      rw [List.foldl_cons, ih, ByteArray.data_push, Array.toList_push, List.append_assoc,
        List.singleton_append]

private theorem toList_elementBytes (width count : Nat) (elements : Array Value) :
    (elementBytes width count elements).data.toList =
      (elements.toList.take count).flatMap fun element => lowBytes width element.bits := by
  have collected (items : List Value) (buffer : ByteArray) :
      (items.foldl (fun bytes element =>
        (lowBytes width (elementBits element).toNat).foldl ByteArray.push bytes)
          buffer).data.toList =
        buffer.data.toList ++ items.flatMap fun element => lowBytes width element.bits := by
    induction items generalizing buffer with
    | nil => rw [List.foldl_nil, List.flatMap_nil, List.append_nil]
    | cons element rest ih =>
        rw [List.foldl_cons, ih, toList_foldl_push, toNat_elementBits, List.flatMap_cons,
          List.append_assoc]
  exact collected _ _

private theorem size_elementBytes (width count : Nat) (elements : Array Value) :
    (elementBytes width count elements).size = min count elements.size * width := by
  rw [ByteArray.size, ← Array.length_toList, toList_elementBytes, length_flatMap_lowBytes,
    List.length_take, Array.length_toList]

private theorem ofLowBytes_elementBytes (width count : Nat) (elements : Array Value) :
    (Md5.pieces width (min count elements.size)
        (elementBytes width count elements).data.toList).map ofLowBytes =
      (elements.toList.take count).map fun element => element.bits % 256 ^ width := by
  have decoded := ofLowBytes_pieces width Value.bits (elements.toList.take count)
  rw [List.length_take, Array.length_toList] at decoded
  rw [toList_elementBytes, decoded]

/-! ### The call -/

private theorem writeThen_of_taken {world : World} {bytes : ByteArray} {next : World → Outcome}
    (taken : (world.sink.write bytes).2 = none) :
    writeThen world bytes next = next { world with sink := (world.sink.write bytes).1 } := by
  obtain ⟨heap, sink, record?⟩ := world
  simp only [writeThen] at taken ⊢
  generalize sink.write bytes = answer at taken ⊢
  obtain ⟨after, reason?⟩ := answer
  subst taken
  rfl

private theorem toInt_ofNat_min (count : Int64) (size : Nat) :
    (Int64.ofNat (min count.toInt.toNat size)).toInt = min count.toInt.toNat size := by
  have high := count.toInt_lt
  exact Int64.toInt_ofNat_of_lt (by omega)

private theorem invoke_fwrite {world : World} {address : Address} {kind : Kind}
    {elements : Array Value}
    (stored : world.heap[address]? = some (.array kind elements)) (size count : Int64)
    (stream : Int32) :
    invoke .fwrite [.array address, .i64 size, .i64 count, .i32 stream] world =
      if min 8 size.toInt.toNat = 0 then .ok (.i64 0) world
      else
        writeThen world (elementBytes (min 8 size.toInt.toNat) count.toInt.toNat elements)
          (.ok (.i64 (Int64.ofNat (min count.toInt.toNat elements.size)))) := by
  change runFwrite [.array address, .i64 size, .i64 count, .i32 stream] world = _
  simp only [runFwrite, argAt, List.getElem?_cons_zero, List.getElem?_cons_succ, Option.getD_some,
    Value.toI64, stored]
  rfl

/-- A sink that takes the bytes gets the first elements, each as many of its low bytes as the width
says, lowest byte first; the call answers with how many elements these are and changes nothing
else. -/
theorem fwrite_decodes {world : World} {address : Address} {kind : Kind} {elements : Array Value}
    (stored : world.heap[address]? = some (.array kind elements)) (size count : Int64)
    (stream : Int32) :
    let width := (min 8 (max 0 size.toInt)).toNat
    let taken := if 0 < width then min (max 0 count.toInt).toNat elements.size else 0
    ∃ (bytes : ByteArray) (answer : Int64),
      bytes.size = taken * width ∧
        (Md5.pieces width taken bytes.data.toList).map ofLowBytes =
          (elements.toList.take taken).map (fun element => element.bits % 256 ^ width) ∧
        answer.toInt = taken ∧
        ((world.sink.write bytes).2 = none →
          invoke .fwrite [.array address, .i64 size, .i64 count, .i32 stream] world =
              .ok (.i64 answer) { world with sink := (world.sink.write bytes).1 } ∧
            (world.sink.write bytes).1.written = world.sink.written ++ bytes) := by
  intro width taken
  have width_eq : width = min 8 size.toInt.toNat := by omega
  have count_eq : (max 0 count.toInt).toNat = count.toInt.toNat := by omega
  rw [invoke_fwrite stored, ← width_eq]
  by_cases unsized : width = 0
  · have none : taken = 0 := if_neg (by omega)
    refine ⟨.empty, 0, ?_, ?_, ?_, fun accepted => ⟨?_, Sink.written_write accepted⟩⟩
    · rw [none, Nat.zero_mul]
      rfl
    · rw [none]
      rfl
    · rw [none]
      rfl
    · rw [if_pos unsized, Sink.write_nothing rfl]
  · have several : taken = min count.toInt.toNat elements.size := by
      rw [← count_eq]
      exact if_pos (by omega)
    refine ⟨elementBytes width count.toInt.toNat elements,
      .ofNat (min count.toInt.toNat elements.size), ?_, ?_, ?_,
      fun accepted => ⟨?_, Sink.written_write accepted⟩⟩
    · rw [several, size_elementBytes]
    · rw [several, ofLowBytes_elementBytes, ← Array.length_toList, ← List.take_eq_take_min]
    · rw [several]
      exact toInt_ofNat_min count elements.size
    · rw [if_neg unsized, writeThen_of_taken accepted]

/-- Two integers, of which one is negative, in pieces of two bytes; and a NaN in front of its
negation, which differ in the sign alone. -/
theorem fwrite_of_integers_and_nans :
    let nan : Value := .f64 ⟨0x7ff8000000000001⟩
    let heap : Heap :=
      #[.array .i32 #[.i32 (-1), .i32 258], .array .f64 #[nan, (UnaryFn.negate .f64).apply nan]]
    let world : World := ⟨heap, .unlimited, none⟩
    (heap[0]? = some (.array .i32 #[.i32 (-1), .i32 258]) ∧
      ∃ (bytes : ByteArray) (answer : Int64),
        bytes.size = 4 ∧ (Md5.pieces 2 2 bytes.data.toList).map ofLowBytes = [65535, 258] ∧
          answer.toInt = 2 ∧
          invoke .fwrite [.array 0, .i64 2, .i64 5, .i32 1] world =
            .ok (.i64 answer) { world with sink := (world.sink.write bytes).1 }) ∧
    heap[1]? = some (.array .f64 #[nan, (UnaryFn.negate .f64).apply nan]) ∧
      ∃ (bytes : ByteArray) (answer : Int64),
        bytes.size = 16 ∧
          (Md5.pieces 8 2 bytes.data.toList).map ofLowBytes =
            [0x7ff8000000000001, 0xfff8000000000001] ∧
          answer.toInt = 2 ∧
          invoke .fwrite [.array 1, .i64 8, .i64 2, .i32 1] world =
            .ok (.i64 answer) { world with sink := (world.sink.write bytes).1 } := by
  intro nan heap world
  have integers : world.heap[0]? = some (.array .i32 #[.i32 (-1), .i32 258]) := rfl
  have nans : world.heap[1]? = some (.array .f64 #[nan, (UnaryFn.negate .f64).apply nan]) := rfl
  have accepted (bytes : ByteArray) : (world.sink.write bytes).2 = none :=
    Sink.write_of_unlimited rfl bytes
  obtain ⟨bytes, answer, size, decoded, taken, called⟩ := fwrite_decodes integers 2 5 1
  obtain ⟨others, second, long, floats, both, calledAgain⟩ := fwrite_decodes nans 8 2 1
  have bits : [nan, (UnaryFn.negate .f64).apply nan].map (fun element => element.bits % 256 ^ 8) =
      [0x7ff8000000000001, 0xfff8000000000001] := by
    decide +kernel
  exact ⟨⟨integers, bytes, answer, size, decoded, taken, (called (accepted bytes)).1⟩,
    nans, others, second, long, floats.trans bits, both, (calledAgain (accepted others)).1⟩

end Builtin
end MiniC
