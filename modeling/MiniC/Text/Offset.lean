/-!
Byte offsets into a text.

Positions in a source are counted in bytes of its UTF-8 form. This module
measures a text, cuts it at byte offsets, and names an offset by line and
column. A cut exists only at a character boundary.
-/

namespace MiniC.Text

def byteSize : List Char → Nat
  | [] => 0
  | char :: rest => char.utf8Size + byteSize rest

def dropBytes? : Nat → List Char → Option (List Char)
  | 0, text => some text
  | _ + 1, [] => none
  | offset + 1, char :: rest =>
      if char.utf8Size ≤ offset + 1 then dropBytes? (offset + 1 - char.utf8Size) rest else none
termination_by _ text => text.length

def takeBytes? : Nat → List Char → Option (List Char)
  | 0, _ => some []
  | _ + 1, [] => none
  | size + 1, char :: rest =>
      if char.utf8Size ≤ size + 1 then (takeBytes? (size + 1 - char.utf8Size) rest).map (char :: ·)
      else none
termination_by _ text => text.length

/-- The text between two byte offsets, when both are boundaries in the right order. -/
def slice? (start finish : Nat) (text : List Char) : Option (List Char) :=
  if start ≤ finish then (dropBytes? start text).bind (takeBytes? (finish - start)) else none

structure Position where
  line : Nat
  column : Nat
deriving DecidableEq, Repr

def Position.advance (here : Position) (budget : Nat) : List Char → Position
  | [] => here
  | char :: rest =>
      if budget = 0 then here
      else if char = '\n' then
        Position.advance ⟨here.line + 1, 1⟩ (budget - char.utf8Size) rest
      else Position.advance ⟨here.line, here.column + 1⟩ (budget - char.utf8Size) rest

/-- Line and column of a byte offset. Columns count characters; an offset past the end names the
end. -/
def positionAt (text : List Char) (offset : Nat) : Position :=
  Position.advance ⟨1, 1⟩ offset text

end MiniC.Text
