import MiniC.Token.Literal
import MiniC.Token.Number

/-!
The lexer.

One step reads one piece of the source: a run of white space, a comment, a token
or a character that begins none. A step always takes at least one character, so
scanning ends. Faults are collected over the whole source, and tokens are handed
out only when there is none. An escape sequence whose second character is outside
ASCII breaks the scan off altogether.
-/

namespace MiniC.Lexer

open Text (Cursor)

def readMark (here tail : Cursor) (first : Char) : Piece :=
  match markAt? here.rest with
  | some (text, token) => .found token (Cursor.skip (text.length - 1) tail)
  | none =>
      if first = '#' then .failed "Preprocessor directive survived inclusion" here.offset tail
      else .failed s!"Unexpected character: '{first}'" here.offset tail

def readPiece (here : Cursor) (first : Char) : Reading :=
  let tail := here.advance
  if isSpace first then .piece (.gap (tail.takeWhile isSpace).2)
  else if first = '/' && tail.nextIs (· = '/') then .piece (.gap (tail.takeWhile (· != '\n')).2)
  else if first = '/' && tail.nextIs (· = '*') then
    .piece (readBlockComment here.offset tail.advance)
  else if isDigit first || (first = '.' && tail.nextIs isDigit) then
    .piece (readNumber here.offset first tail)
  else if isLetter first then
    let (more, after) := tail.takeWhile isWordChar
    .piece (.found (wordToken (first :: more)) after)
  else if first = '"' then readString here.offset tail
  else if first = '\'' then readChar here.offset tail
  else .piece (readMark here tail first)

private theorem readMark_length_le (here tail : Cursor) (first : Char) :
    (readMark here tail first).after.rest.length ≤ tail.rest.length := by
  unfold readMark
  split
  · exact Cursor.skip_length_le _ tail
  · split <;> exact Nat.le_refl _

private theorem readPiece_length_lt {here : Cursor} {first : Char} {rest : List Char}
    {piece : Piece}
    (same : here.rest = first :: rest) (found : readPiece here first = .piece piece) :
    piece.after.rest.length < here.rest.length := by
  have shorter := Cursor.advance_length_lt same
  refine Nat.lt_of_le_of_lt ?_ shorter
  simp only [readPiece] at found
  repeat' split at found
  · cases found; exact Cursor.takeWhile_length_le _ _
  · cases found; exact Cursor.takeWhile_length_le _ _
  · cases found
    exact Nat.le_trans (readBlockComment_length_le _ _) (Cursor.advance_length_le _)
  · cases found; exact readNumber_length_le _ _ _
  · cases found; exact Cursor.takeWhile_length_le _ _
  · exact readString_length_le found
  · exact readChar_length_le found
  · cases found; exact readMark_length_le _ _ _

structure Scan where
  lexemes : List Lexeme
  faults : List Diagnostic

def Scan.cons (offset : Nat) (piece : Piece) (scan : Scan) : Scan :=
  { lexemes :=
      match piece.token? with
      | some token => ⟨token, ⟨offset, piece.after.offset⟩⟩ :: scan.lexemes
      | none => scan.lexemes
    faults := piece.faults ++ scan.faults }

/-- All pieces from the cursor on; `none` when the scan breaks off. -/
def scan (here : Cursor) : Option Scan :=
  match same : here.rest with
  | [] => some ⟨[⟨.eof, ⟨here.offset, here.offset⟩⟩], []⟩
  | first :: _ =>
      match found : readPiece here first with
      | .aborted => none
      | .piece piece =>
          have := readPiece_length_lt same found
          (scan piece.after).map (Scan.cons here.offset piece)
termination_by here.rest.length

end MiniC.Lexer

namespace MiniC

inductive Lexed where
  /-- The tokens, closed by `Token.eof`. -/
  | tokens (lexemes : List Lexeme)
  | faults (diagnostics : List Diagnostic)
  /-- A backslash before a character outside ASCII broke the scan off. -/
  | aborted

def lex (source : String) : Lexed :=
  match Lexer.scan (Text.Cursor.start source.toList) with
  | none => .aborted
  | some scan => if scan.faults.isEmpty then .tokens scan.lexemes else .faults scan.faults

end MiniC
