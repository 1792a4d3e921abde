import MiniC.Proofs.Token.Movement

/-!
Where the scan breaks off.

It breaks off at a backslash in a literal that has a character outside ASCII right
behind it, and nowhere else. Here such a literal is described by its characters, without
the values of its escape sequences and without the faults in it.
-/

namespace MiniC.Lexer

open Text (Cursor)

/-- Behind the opening quote of a string, a backslash right in front of a character outside ASCII
comes before the string ends. Behind any other backslash one character is passed over. -/
inductive WideInString : List Char → Prop where
  | here {char : Char} {rest : List Char} : 128 ≤ char.toNat → WideInString ('\\' :: char :: rest)
  | plain {char : Char} {rest : List Char} : char ≠ '"' → char ≠ '\\' → char ≠ '\n' →
      WideInString rest → WideInString (char :: rest)
  | escaped {char : Char} {rest : List Char} : char.toNat < 128 → WideInString rest →
      WideInString ('\\' :: char :: rest)

/-- A literal begins the text, and a backslash right in front of a character outside ASCII is met in
it. -/
inductive WideEscape : List Char → Prop where
  | char {char : Char} {rest : List Char} : 128 ≤ char.toNat →
      WideEscape ('\'' :: '\\' :: char :: rest)
  | string {rest : List Char} : WideInString rest → WideEscape ('"' :: rest)

theorem wideInString_escaped_iff {char : Char} {rest : List Char} (narrow : char.toNat < 128) :
    WideInString ('\\' :: char :: rest) ↔ WideInString rest := by
  constructor
  · intro meets
    cases meets with
    | here wide => exact absurd narrow (Nat.not_lt_of_le wide)
    | plain _ other => exact absurd rfl other
    | escaped _ later => exact later
  · exact .escaped narrow

theorem wideInString_plain_iff {char : Char} {rest : List Char} (quote : char ≠ '"')
    (slash : char ≠ '\\') (newline : char ≠ '\n') :
    WideInString (char :: rest) ↔ WideInString rest := by
  constructor
  · intro meets
    cases meets with
    | here => exact absurd rfl slash
    | plain _ _ _ later => exact later
    | escaped => exact absurd rfl slash
  · exact .plain quote slash newline

private theorem wideInString_hexDigits {digits rest : List Char}
    (all : ∀ char ∈ digits, isHexDigit char = true) :
    WideInString (digits ++ rest) ↔ WideInString rest := by
  induction digits with
  | nil => exact Iff.rfl
  | cons char digits ih =>
      obtain ⟨isDigit, others⟩ := List.forall_mem_cons.mp all
      have plain : ∀ other, isHexDigit other = false → char ≠ other := by
        rintro _ fails rfl
        rw [isDigit] at fails
        cases fails
      rw [List.cons_append, wideInString_plain_iff (plain _ rfl) (plain _ rfl) (plain _ rfl),
        ih others]

section Literals

variable {start : Nat} {here after : Cursor}

theorem simpleEscape?_narrow {char : Char} {code : UInt32} (simple : simpleEscape? char = some code) :
    char.toNat < 128 ∧ char ≠ 'x' := by
  unfold simpleEscape? at simple
  split at simple
  all_goals first | exact ⟨by decide, by decide⟩ | cases simple

private theorem exists_readHexEscape (start : Nat) (here : Cursor) :
    ∃ code faults, readHexEscape start here = .found code faults (here.takeWhile isHexDigit).2 := by
  simp only [readHexEscape]
  split
  · exact ⟨_, _, rfl⟩
  · exact ⟨_, _, rfl⟩

/-- What can stand at a character of a literal, and what is read there. -/
inductive LiteralRead (here : Cursor) : LiteralChar → Prop where
  | atEnd : here.rest = [] → LiteralRead here (.missing here)
  | slashAtEnd {after : Cursor} : here.rest = ['\\'] → LiteralRead here (.missing after)
  | wide {char : Char} {rest : List Char} : here.rest = '\\' :: char :: rest →
      128 ≤ char.toNat → LiteralRead here .aborted
  | plain {char : Char} {code : UInt32} {faults : List Diagnostic} {after : Cursor} :
      here.rest = char :: after.rest → char ≠ '\\' → LiteralRead here (.found code faults after)
  | escaped {char : Char} {code : UInt32} {faults : List Diagnostic} {after : Cursor} :
      here.rest = '\\' :: char :: after.rest → char.toNat < 128 →
      LiteralRead here (.found code faults after)
  | hexadecimal {digits : List Char} {code : UInt32} {faults : List Diagnostic} {after : Cursor} :
      here.rest = '\\' :: 'x' :: (digits ++ after.rest) →
      (∀ char ∈ digits, isHexDigit char = true) → LiteralRead here (.found code faults after)

private theorem readEscape_read (start : Nat) (slash : here.rest = '\\' :: here.advance.rest) :
    LiteralRead here (readEscape start here.advance) := by
  unfold readEscape
  split
  · rename_i atEnd
    rw [atEnd] at slash
    exact .slashAtEnd slash
  · rename_i char rest next
    have ahead : here.rest = '\\' :: char :: here.advance.advance.rest :=
      slash.trans (congrArg _ (Cursor.over_advance next).rest_eq)
    dsimp only
    split
    · rename_i simple
      exact .escaped ahead (simpleEscape?_narrow simple).1
    · split
      · rename_i hex
        cases hex
        obtain ⟨code, faults, found⟩ := exists_readHexEscape start here.advance.advance
        rw [(Cursor.over_takeWhile isHexDigit here.advance.advance).rest_eq] at ahead
        rw [found]
        exact .hexadecimal ahead (List.all_eq_true.mp List.all_takeWhile)
      · split
        · rename_i narrow
          exact .escaped ahead narrow
        · rename_i wide
          exact .wide ahead (Nat.le_of_not_lt wide)

private theorem readLiteralChar_read (start : Nat) (here : Cursor) :
    LiteralRead here (readLiteralChar start here) := by
  unfold readLiteralChar
  split
  · rename_i atEnd
    exact .atEnd atEnd
  · rename_i char rest next
    have ahead : here.rest = char :: here.advance.rest := (Cursor.over_advance next).rest_eq
    split
    · rename_i slash
      exact readEscape_read start (slash ▸ ahead)
    · rename_i plain
      exact .plain ahead plain

theorem readLiteralChar_aborted_iff :
    readLiteralChar start here = .aborted ↔
      ∃ char rest, 128 ≤ char.toNat ∧ here.rest = '\\' :: char :: rest := by
  have read := readLiteralChar_read start here
  generalize readLiteralChar start here = result at read
  constructor
  · rintro rfl
    cases read with
    | wide next wide => exact ⟨_, _, wide, next⟩
  · rintro ⟨char, rest, wide, same⟩
    cases read with
    | wide => rfl
    | atEnd next => cases next.symm.trans same
    | slashAtEnd next => cases next.symm.trans same
    | plain next plain => exact absurd (List.cons.inj (next.symm.trans same)).1 plain
    | escaped next narrow =>
        cases next.symm.trans same
        exact absurd narrow (Nat.not_lt_of_le wide)
    | hexadecimal next =>
        cases next.symm.trans same
        exact absurd wide (by decide)

/-- When a character of a string has been read, the question is left to what stands behind it. -/
theorem readLiteralChar_found {code : UInt32} {faults : List Diagnostic}
    (quote : here.nextIs (· = '"') = false) (newline : here.nextIs (· = '\n') = false)
    (found : readLiteralChar start here = .found code faults after) :
    WideInString here.rest ↔ WideInString after.rest := by
  have read := readLiteralChar_read start here
  rw [found] at read
  cases read with
  | plain next plain =>
      rw [Cursor.nextIs, next] at quote newline
      rw [next, wideInString_plain_iff (of_decide_eq_false quote) plain (of_decide_eq_false newline)]
  | escaped next narrow => rw [next, wideInString_escaped_iff narrow]
  | hexadecimal next digits =>
      rw [next, wideInString_escaped_iff (by decide), wideInString_hexDigits digits]

private theorem not_wideInString_of_missing
    (missing : readLiteralChar start here = .missing after) :
    ¬ WideInString here.rest := by
  have read := readLiteralChar_read start here
  rw [missing] at read
  cases read with
  | atEnd next =>
      rw [next]
      intro meets
      cases meets
  | slashAtEnd next =>
      rw [next]
      intro meets
      cases meets with
      | plain _ other => exact other rfl

/-- A string that goes on to a backslash of that kind has not ended before. -/
theorem WideInString.goesOn (meets : WideInString here.rest) :
    here.nextIs (· = '"') = false ∧ here.nextIs (· = '\n') = false := by
  rw [Cursor.nextIs, Cursor.nextIs]
  generalize here.rest = text at meets
  cases meets with
  | here => exact ⟨rfl, rfl⟩
  | plain quote _ newline => exact ⟨decide_eq_false quote, decide_eq_false newline⟩
  | escaped => exact ⟨rfl, rfl⟩

theorem readStringBody_none_iff : readStringBody start here = none ↔ WideInString here.rest := by
  fun_induction readStringBody start here with
  | case1 here closes =>
      refine iff_of_false (Option.some_ne_none _) fun meets => ?_
      rw [meets.goesOn.1] at closes
      cases closes
  | case2 here quote endsLine =>
      refine iff_of_false (Option.some_ne_none _) fun meets => ?_
      rw [meets.goesOn.2] at endsLine
      cases endsLine
  | case3 here quote newline aborted =>
      obtain ⟨char, rest, wide, same⟩ := readLiteralChar_aborted_iff.mp aborted
      rw [same]
      exact iff_of_true rfl (.here wide)
  | case4 here quote newline after missing =>
      exact iff_of_false (Option.some_ne_none _) (not_wideInString_of_missing missing)
  | case5 here quote newline code faults after found _ ih =>
      rw [Option.map_eq_none_iff, ih]
      exact (readLiteralChar_found (Bool.eq_false_iff.mpr quote) (Bool.eq_false_iff.mpr newline)
        found).symm

private theorem piece_ne_aborted {piece : Piece} : Reading.piece piece ≠ .aborted := by
  intro same
  cases same

theorem readString_aborted_iff : readString start here = .aborted ↔ WideInString here.rest := by
  have body : readStringBody start here = none ↔ WideInString here.rest := readStringBody_none_iff
  rw [← body, readString]
  split
  · rename_i none
    exact iff_of_true rfl none
  · rename_i found
    rw [found]
    exact iff_of_false piece_ne_aborted (Option.some_ne_none _)

theorem readChar_aborted_iff :
    readChar start here = .aborted ↔
      ∃ char rest, 128 ≤ char.toNat ∧ here.rest = '\\' :: char :: rest := by
  have literal : readLiteralChar start here = .aborted ↔ _ := readLiteralChar_aborted_iff
  rw [readChar]
  split
  · rename_i closes
    refine iff_of_false piece_ne_aborted ?_
    rintro ⟨char, rest, _, same⟩
    rw [Cursor.nextIs, same] at closes
    cases closes
  · rw [← literal]
    split
    · rename_i aborted
      exact iff_of_true rfl aborted
    · rename_i missing
      refine iff_of_false piece_ne_aborted fun aborted => ?_
      cases missing.symm.trans aborted
    · rename_i found
      have other : readLiteralChar start here ≠ .aborted := by
        intro aborted
        cases found.symm.trans aborted
      split
      · exact iff_of_false piece_ne_aborted other
      · exact iff_of_false piece_ne_aborted other

end Literals

/-! ### One step -/

section Steps

variable {here : Cursor} {first : Char} {rest : List Char}

private theorem wideEscape_of_aborted (next : here.rest = first :: rest)
    (aborted : readPiece here first = .aborted) : WideEscape here.rest := by
  have ahead : here.rest = first :: here.advance.rest := (Cursor.over_advance next).rest_eq
  simp only [readPiece] at aborted
  repeat' split at aborted
  · cases aborted
  · cases aborted
  · cases aborted
  · cases aborted
  · cases aborted
  · rename_i quote
    rw [ahead, quote]
    exact .string (readString_aborted_iff.mp aborted)
  · rename_i quote
    obtain ⟨char, more, wide, same⟩ := readChar_aborted_iff.mp aborted
    rw [ahead, quote, same]
    exact .char wide
  · cases aborted

private theorem aborted_of_wideEscape (next : here.rest = first :: rest)
    (meets : WideEscape here.rest) :
    readPiece here first = .aborted := by
  have ahead : here.rest = first :: here.advance.rest := (Cursor.over_advance next).rest_eq
  rw [ahead] at meets
  generalize behind : here.advance.rest = text at meets
  cases meets with
  | char wide =>
      change readChar here.offset here.advance = .aborted
      exact readChar_aborted_iff.mpr ⟨_, _, wide, behind⟩
  | string meets =>
      change readString here.offset here.advance = .aborted
      exact readString_aborted_iff.mpr (behind ▸ meets)

/-- A step breaks off just where a literal begins that meets such a backslash. -/
theorem readPiece_aborted_iff (next : here.rest = first :: rest) :
    readPiece here first = .aborted ↔ WideEscape here.rest :=
  ⟨wideEscape_of_aborted next, aborted_of_wideEscape next⟩

end Steps

end MiniC.Lexer
