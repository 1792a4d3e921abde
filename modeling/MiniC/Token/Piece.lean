import MiniC.Token
import MiniC.Diagnostic
import MiniC.Text.Cursor

/-!
Pieces of a source: what one step of the lexer reads, and comments, which are
pieces without a token.
-/

namespace MiniC.Lexer

open Text (Cursor)

structure Piece where
  token? : Option Token
  faults : List Diagnostic
  after : Cursor

inductive Reading where
  | piece (piece : Piece)
  | aborted

def fault (message : String) (start finish : Nat) : Diagnostic :=
  ⟨.lexer, message, ⟨start, finish⟩⟩

def Piece.gap (after : Cursor) : Piece := ⟨none, [], after⟩

def Piece.found (token : Token) (after : Cursor) : Piece := ⟨some token, [], after⟩

/-- A fault whose span reaches from `start` to where the piece stops. -/
def Piece.failed (message : String) (start : Nat) (after : Cursor) : Piece :=
  ⟨none, [fault message start after.offset], after⟩

def closeComment? (offset : Nat) : List Char → Option Cursor
  | [] => none
  | char :: rest =>
      if char = '*' && rest.head? == some '/' then some ⟨offset + 2, rest.tail⟩
      else closeComment? (offset + char.utf8Size) rest

def readBlockComment (start : Nat) (body : Cursor) : Piece :=
  match closeComment? body.offset body.rest with
  | some after => .gap after
  | none =>
      .failed "Unterminated block comment" start ⟨body.offset + Text.byteSize body.rest, []⟩

private theorem closeComment?_length_le {text : List Char} {offset : Nat} {after : Cursor}
    (found : closeComment? offset text = some after) : after.rest.length ≤ text.length := by
  induction text generalizing offset with
  | nil => simp [closeComment?] at found
  | cons char rest ih =>
      simp only [closeComment?] at found
      split at found
      · cases found
        simp only [List.length_tail, List.length_cons]
        omega
      · exact Nat.le_succ_of_le (ih found)

theorem readBlockComment_length_le (start : Nat) (body : Cursor) :
    (readBlockComment start body).after.rest.length ≤ body.rest.length := by
  unfold readBlockComment
  split
  · next found => exact closeComment?_length_le found
  · exact Nat.zero_le _

end MiniC.Lexer
