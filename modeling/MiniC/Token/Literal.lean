import MiniC.Token.Piece
import MiniC.Token.Spelling

/-!
String and character literals.

A string ends at its quote, at a line end, or at the end of the source. Faults
inside a literal do not end it, except for an escape sequence whose second character is
outside ASCII: that breaks the scan off.
-/

namespace MiniC.Lexer

open Text (Cursor)

inductive LiteralChar where
  | found (code : UInt32) (faults : List Diagnostic) (after : Cursor)
  /-- The source ended first. -/
  | missing (after : Cursor)
  | aborted

def simpleEscape? (char : Char) : Option UInt32 :=
  match char with
  | 'n' => some 10
  | 't' => some 9
  | 'r' => some 13
  | '0' => some 0
  | 'a' => some 7
  | 'b' => some 8
  | 'f' => some 12
  | 'v' => some 11
  | '\\' => some 92
  | '\'' => some 39
  | '"' => some 34
  | _ => none

def readHexEscape (start : Nat) (digitsAt : Cursor) : LiteralChar :=
  let (digits, after) := digitsAt.takeWhile isHexDigit
  match readNumber? 16 (Nat.pow 2 32) digits with
  | some number => .found (UInt32.ofNat (number % 256)) [] after
  | none => .found 0 [fault "Invalid \\x escape" start after.offset] after

def readEscape (start : Nat) (here : Cursor) : LiteralChar :=
  match here.rest with
  | [] => .missing here
  | char :: _ =>
      let after := here.advance
      match simpleEscape? char with
      | some code => .found code [] after
      | none =>
          if char = 'x' then readHexEscape start after
          else if char.toNat < 128 then
            .found char.val
              [fault s!"Unknown escape sequence: '\\{char}'" (after.offset - 2) after.offset] after
          else .aborted

def readLiteralChar (start : Nat) (here : Cursor) : LiteralChar :=
  match here.rest with
  | [] => .missing here
  | char :: _ =>
      if char = '\\' then readEscape start here.advance else .found char.val [] here.advance

private theorem readHexEscape_length_le {start : Nat} {here after : Cursor} {code : UInt32}
    {faults : List Diagnostic} (found : readHexEscape start here = .found code faults after) :
    after.rest.length ≤ here.rest.length := by
  have bound := Cursor.takeWhile_length_le isHexDigit here
  simp only [readHexEscape] at found
  split at found <;> · cases found; exact bound

theorem readEscape_length_lt {start : Nat} {here after : Cursor} {code : UInt32}
    {faults : List Diagnostic} (found : readEscape start here = .found code faults after) :
    after.rest.length < here.rest.length := by
  unfold readEscape at found
  split at found
  · cases found
  · next same =>
      have shorter := Cursor.advance_length_lt same
      split at found
      · cases found; exact shorter
      · split at found
        · exact Nat.lt_of_le_of_lt (readHexEscape_length_le found) shorter
        · split at found
          · cases found; exact shorter
          · cases found

theorem readLiteralChar_length_lt {start : Nat} {here after : Cursor} {code : UInt32}
    {faults : List Diagnostic} (found : readLiteralChar start here = .found code faults after) :
    after.rest.length < here.rest.length := by
  unfold readLiteralChar at found
  split at found
  · cases found
  · next same =>
      have shorter := Cursor.advance_length_lt same
      split at found
      · exact Nat.lt_trans (readEscape_length_lt found) shorter
      · cases found; exact shorter

private theorem readLiteralChar_missing_length_le {start : Nat} {here after : Cursor}
    (missing : readLiteralChar start here = .missing after) :
    after.rest.length ≤ here.rest.length := by
  unfold readLiteralChar at missing
  split at missing
  · cases missing; exact Nat.le_refl _
  · split at missing
    · unfold readEscape at missing
      split at missing
      · cases missing; exact Cursor.advance_length_le here
      · split at missing
        · cases missing
        · split at missing
          · simp only [readHexEscape] at missing
            split at missing <;> cases missing
          · split at missing <;> cases missing
    · cases missing

/-- The characters of a string literal up to its closing quote, the faults met, and the cursor
behind. A line end or the end of the source closes the literal with a fault. -/
def readStringBody (start : Nat) (here : Cursor) : Option (List Char × List Diagnostic × Cursor) :=
  if here.nextIs (· = '"') then some ([], [], here.advance)
  else if here.nextIs (· = '\n') then
    some ([], [fault "Unterminated string literal" start here.offset], here)
  else
    match found : readLiteralChar start here with
    | .aborted => none
    | .missing after =>
        some ([], [fault "Unterminated string literal" start after.offset], after)
    | .found code faults after =>
        have := readLiteralChar_length_lt found
        (readStringBody start after).map fun (text, more, finish) =>
          (Char.ofNat code.toNat :: text, faults ++ more, finish)
termination_by here.rest.length

def readString (start : Nat) (body : Cursor) : Reading :=
  match readStringBody start body with
  | none => .aborted
  | some (text, faults, after) => .piece ⟨some (.string (String.ofList text)), faults, after⟩

private theorem readStringBody_length_le {start : Nat} {here after : Cursor} {text : List Char}
    {faults : List Diagnostic} (found : readStringBody start here = some (text, faults, after)) :
    after.rest.length ≤ here.rest.length := by
  fun_induction readStringBody start here generalizing text faults after with
  | case1 here _ => cases found; exact Cursor.advance_length_le here
  | case2 => cases found; exact Nat.le_refl _
  | case3 => cases found
  | case4 here _ _ behind missing =>
      cases found
      exact readLiteralChar_missing_length_le missing
  | case5 here _ _ code extra behind _ shorter ih =>
      obtain ⟨⟨innerText, innerFaults, innerAfter⟩, inner, same⟩ := Option.map_eq_some_iff.1 found
      cases same
      exact Nat.le_trans (ih inner) (Nat.le_of_lt shorter)

theorem readString_length_le {start : Nat} {body : Cursor} {piece : Piece}
    (found : readString start body = .piece piece) :
    piece.after.rest.length ≤ body.rest.length := by
  unfold readString at found
  split at found
  · cases found
  · next inner => cases found; exact readStringBody_length_le inner

def readChar (start : Nat) (body : Cursor) : Reading :=
  if body.nextIs (· = '\'') then .piece (.failed "Malformed character literal" start body)
  else
    match readLiteralChar start body with
    | .aborted => .aborted
    | .missing after => .piece (.failed "Malformed character literal" start after)
    | .found code faults after =>
        if after.nextIs (· = '\'') then .piece ⟨some (.char code), faults, after.advance⟩
        else
          .piece
            ⟨none, faults ++ [fault "Malformed character literal" start after.offset], after⟩

theorem readChar_length_le {start : Nat} {body : Cursor} {piece : Piece}
    (found : readChar start body = .piece piece) :
    piece.after.rest.length ≤ body.rest.length := by
  unfold readChar at found
  split at found
  · cases found; exact Nat.le_refl _
  · split at found
    · cases found
    · next after missing =>
        cases found
        exact readLiteralChar_missing_length_le missing
    · next inner =>
        have shorter := Nat.le_of_lt (readLiteralChar_length_lt inner)
        split at found
        · cases found; exact Nat.le_trans (Cursor.advance_length_le _) shorter
        · cases found; exact shorter

end MiniC.Lexer
