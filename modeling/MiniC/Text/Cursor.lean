import MiniC.Text.Offset

/-!
A cursor: a byte offset together with the text that follows it.

Every movement adds to the offset exactly the bytes it takes from the text, so
the sum of the offset and the size of what is left never changes.
-/

namespace MiniC.Text

structure Cursor where
  offset : Nat
  rest : List Char

namespace Cursor

def start (text : List Char) : Cursor := ⟨0, text⟩

def advance (cursor : Cursor) : Cursor :=
  match cursor.rest with
  | [] => cursor
  | char :: rest => ⟨cursor.offset + char.utf8Size, rest⟩

def skip : Nat → Cursor → Cursor
  | 0, cursor => cursor
  | count + 1, cursor => skip count cursor.advance

def takeWhile (test : Char → Bool) (cursor : Cursor) : List Char × Cursor :=
  let taken := cursor.rest.takeWhile test
  (taken, ⟨cursor.offset + byteSize taken, cursor.rest.dropWhile test⟩)

def nextIs (test : Char → Bool) (cursor : Cursor) : Bool :=
  match cursor.rest with
  | [] => false
  | char :: _ => test char

theorem advance_length_le (cursor : Cursor) : cursor.advance.rest.length ≤ cursor.rest.length := by
  unfold advance
  split
  · exact Nat.le_refl _
  · next same => simp [same]

theorem advance_length_lt {cursor : Cursor} {char : Char} {rest : List Char}
    (same : cursor.rest = char :: rest) :
    cursor.advance.rest.length < cursor.rest.length := by
  simp [advance, same]

theorem skip_length_le (count : Nat) (cursor : Cursor) :
    (skip count cursor).rest.length ≤ cursor.rest.length := by
  induction count generalizing cursor with
  | zero => exact Nat.le_refl _
  | succ count ih => exact Nat.le_trans (ih cursor.advance) (advance_length_le cursor)

theorem takeWhile_length_le (test : Char → Bool) (cursor : Cursor) :
    (cursor.takeWhile test).2.rest.length ≤ cursor.rest.length :=
  (List.dropWhile_sublist test).length_le

end Cursor
end MiniC.Text
