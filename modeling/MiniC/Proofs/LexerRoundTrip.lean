import MiniC.Proofs.Token.Scanning

/-!
The lexer undoes the writing of tokens.

A scan that begins at a written token gives the token and goes on behind it. A
gap is not seen by the scan: a run of blank characters and a comment are steps of
their own that give nothing.
-/

namespace MiniC

namespace Lexer

open Text (Cursor)

def Scans (text : List Char) (tokens : List Token) : Prop :=
  ∀ offset, ∃ found, scan ⟨offset, text⟩ = some found ∧ found.faults = [] ∧
    found.lexemes.map Lexeme.token = tokens ++ [.eof]

theorem scan_of_piece {offset : Nat} {first : Char} {rest : List Char} {piece : Piece}
    (read : readPiece ⟨offset, first :: rest⟩ first = .piece piece) :
    scan ⟨offset, first :: rest⟩ = (scan piece.after).map (Scan.cons offset piece) := by
  rw [scan]
  split
  · rename_i other
    cases other
  · rename_i head tail same
    cases same
    split
    · rename_i aborted
      rw [read] at aborted
      cases aborted
    · rename_i other found
      rw [read] at found
      cases found
      rfl

theorem scans_nil : Scans [] [] := by
  intro offset
  refine ⟨⟨[⟨.eof, ⟨offset, offset⟩⟩], []⟩, ?_, rfl, rfl⟩
  rw [scan]

section Steps

variable {text rest : List Char} {tokens : List Token}

theorem Scans.found {first : Char} {token : Token} (scans : Scans rest tokens)
    (read : ∀ offset, ∃ finish,
      readPiece ⟨offset, first :: text⟩ first = .piece (.found token ⟨finish, rest⟩)) :
    Scans (first :: text) (token :: tokens) := by
  intro offset
  obtain ⟨finish, piece⟩ := read offset
  obtain ⟨behind, scanned, faultless, same⟩ := scans finish
  refine ⟨behind.cons offset (.found token ⟨finish, rest⟩), ?_, faultless, ?_⟩
  · rw [scan_of_piece piece]
    change (scan ⟨finish, rest⟩).map _ = _
    rw [scanned, Option.map_some]
  · change token :: behind.lexemes.map Lexeme.token = _
    rw [same, List.cons_append]

theorem Scans.gap {first : Char} (scans : Scans rest tokens)
    (read : ∀ offset, ∃ finish,
      readPiece ⟨offset, first :: text⟩ first = .piece (.gap ⟨finish, rest⟩)) :
    Scans (first :: text) tokens := by
  intro offset
  obtain ⟨finish, piece⟩ := read offset
  obtain ⟨behind, scanned, faultless, same⟩ := scans finish
  refine ⟨behind.cons offset (.gap ⟨finish, rest⟩), ?_, faultless, same⟩
  rw [scan_of_piece piece]
  change (scan ⟨finish, rest⟩).map _ = _
  rw [scanned, Option.map_some]

/-- Blank characters at the start make no difference. -/
theorem Scans.of_dropWhile (scans : Scans (text.dropWhile isSpace) tokens) : Scans text tokens := by
  cases text with
  | nil => exact scans
  | cons first text =>
      cases space : isSpace first with
      | false =>
          rw [List.dropWhile_cons_of_neg (Bool.eq_false_iff.mp space)] at scans
          exact scans
      | true =>
          rw [List.dropWhile_cons_of_pos space] at scans
          refine scans.gap ?_
          intro offset
          refine ⟨offset + first.utf8Size + Text.byteSize (text.takeWhile isSpace), ?_⟩
          rw [readPiece, if_pos space]
          rfl

private theorem Scans.lineComment {body : List Char} (oneLine : '\n' ∉ body)
    (scans : Scans ('\n' :: rest) tokens) :
    Scans ('/' :: '/' :: (body ++ '\n' :: rest)) tokens := by
  refine scans.gap ?_
  intro offset
  have inside : ∀ char ∈ '/' :: body, (char != '\n') = true := by
    refine List.forall_mem_cons.mpr ⟨rfl, ?_⟩
    intro char listed
    refine bne_iff_ne.mpr ?_
    rintro rfl
    exact oneLine listed
  have stops : Stops (· != '\n') ('\n' :: rest) := by
    intro char first
    cases first
    rfl
  have taken : Cursor.takeWhile (· != '\n')
      ⟨offset + '/'.utf8Size, ('/' :: body) ++ '\n' :: rest⟩ = _ := takeWhile_append inside stops
  refine ⟨offset + '/'.utf8Size + Text.byteSize ('/' :: body), ?_⟩
  exact congrArg (fun taken => Reading.piece (.gap taken.2)) taken

theorem closeComment?_append {body : List Char} (unclosed : ¬ ['*', '/'] <:+: body) (offset : Nat)
    (rest : List Char) :
    ∃ finish, closeComment? offset (body ++ '*' :: '/' :: rest) = some ⟨finish, rest⟩ := by
  induction body generalizing offset with
  | nil => exact ⟨offset + 2, rfl⟩
  | cons char body ih =>
      have closes : (char = '*' && (body ++ '*' :: '/' :: rest).head? == some '/') = false := by
        rw [Bool.and_eq_false_iff]
        by_cases star : char = '*'
        · refine Or.inr ?_
          cases body with
          | nil => rfl
          | cons next body =>
              refine beq_eq_false_iff_ne.mpr ?_
              intro slash
              cases slash
              rw [star] at unclosed
              exact unclosed ⟨[], body, rfl⟩
        · exact Or.inl (decide_eq_false star)
      obtain ⟨finish, found⟩ :=
        ih (fun earlier => unclosed (List.infix_cons earlier)) (offset + char.utf8Size)
      refine ⟨finish, ?_⟩
      rw [List.cons_append, closeComment?, closes]
      exact found

private theorem Scans.blockComment {body : List Char} (unclosed : ¬ ['*', '/'] <:+: body)
    (scans : Scans rest tokens) :
    Scans ('/' :: '*' :: (body ++ '*' :: '/' :: rest)) tokens := by
  refine scans.gap ?_
  intro offset
  obtain ⟨finish, closed⟩ :=
    closeComment?_append unclosed (offset + '/'.utf8Size + '*'.utf8Size) rest
  refine ⟨finish, ?_⟩
  change Reading.piece (readBlockComment offset
    ⟨offset + '/'.utf8Size + '*'.utf8Size, body ++ '*' :: '/' :: rest⟩) = _
  rw [readBlockComment, closed]

/-- A gap makes no difference, wherever the text behind it begins. -/
theorem Scans.behindGap {gap : List Char} (isGap : Gap gap)
    (scans : Scans (rest.dropWhile isSpace) tokens) :
    Scans ((gap ++ rest).dropWhile isSpace) tokens := by
  induction isGap with
  | nil => exact scans
  | blank listed _ ih =>
      rw [List.cons_append, List.dropWhile_cons_of_pos (isSpace_iff.mpr listed)]
      exact ih
  | @line body behind oneLine _ ih =>
      have newline : Scans ('\n' :: (behind ++ rest)) tokens := Scans.of_dropWhile ih
      have scanned := newline.lineComment oneLine
      rw [List.cons_append, List.cons_append, List.append_assoc, List.cons_append,
        List.dropWhile_cons_of_neg (by decide)]
      exact scanned
  | @block body behind unclosed _ ih =>
      have scanned := ih.of_dropWhile.blockComment unclosed
      rw [List.cons_append, List.cons_append, List.append_assoc, List.cons_append,
        List.cons_append, List.dropWhile_cons_of_neg (by decide)]
      exact scanned

/-! ### Tokens in a row -/

/-- A written token, and behind it the end of the text or a blank character. -/
theorem Scans.written {token : Token} (written : token.Written text) (ends : Ends rest)
    (scans : Scans rest tokens) :
    Scans ((text ++ rest).dropWhile isSpace) (token :: tokens) := by
  obtain ⟨first, more, rfl, solid, read⟩ := reads_of_written written
  rw [List.cons_append, List.dropWhile_cons_of_neg (Bool.eq_false_iff.mp solid)]
  exact scans.found fun offset => read rest offset ends

theorem scans_spelled (spelled : Spelled tokens text) :
    Scans (text.dropWhile isSpace) tokens := by
  induction spelled with
  | nil => exact scans_nil
  | @last token text written =>
      have ends : Ends [] := fun _ first => nomatch first
      have scanned := Scans.written written ends scans_nil
      rw [List.append_nil] at scanned
      exact scanned
  | @cons token tokens text gap rest written separator _ ih =>
      cases separator with
      | @mk char behind listed isGap =>
          have blank := isSpace_iff.mpr listed
          have ends : Ends (char :: behind ++ rest) := by
            intro other first
            cases first
            exact blank
          have gapScans := Scans.behindGap (.blank listed isGap) ih
          exact Scans.written written ends gapScans.of_dropWhile

end Steps

end Lexer

private theorem exists_charWritten (quote : Char) (escapes : (escapeLetter? quote).isSome = true)
    (char : Char) : ∃ spelled, CharWritten quote char spelled := by
  cases found : escapeLetter? char with
  | some letter => exact ⟨_, .escaped found⟩
  | none =>
      refine ⟨[char], .raw ?_ ?_ ?_⟩
      · rintro rfl
        rw [found] at escapes
        cases escapes
      · rintro rfl
        cases found
      · rintro rfl
        cases found

private theorem exists_textWritten (quote : Char) (escapes : (escapeLetter? quote).isSome = true)
    (text : List Char) : ∃ body, TextWritten quote text body := by
  induction text with
  | nil => exact ⟨[], .nil⟩
  | cons char text ih =>
      obtain ⟨spelled, first⟩ := exists_charWritten quote escapes char
      obtain ⟨body, others⟩ := ih
      exact ⟨spelled ++ body, .cons first others⟩

private theorem exists_isSuffix (unsigned long : Bool) :
    ∃ suffix, IsSuffix unsigned long suffix := by
  cases unsigned <;> cases long
  · exact ⟨[], by simp, by simp, by simp⟩
  · exact ⟨['l'], by simp, by simp, by simp⟩
  · exact ⟨['u'], by simp, by simp, by simp⟩
  · exact ⟨['u', 'l'], by simp, by simp, by simp⟩

private theorem exists_intWritten (literal : IntLiteral) :
    ∃ text, (Token.int literal).Written text := by
  obtain ⟨value, unsigned, long, based⟩ := literal
  obtain ⟨suffix, isSuffix⟩ := exists_isSuffix unsigned long
  cases based with
  | false => exact ⟨_, .decimal isSuffix⟩
  | true =>
      have lower : ∀ digit, digit < 16 → (Nat.digitChar digit).toLower = Nat.digitChar digit := by
        decide
      have spelled : (Nat.toDigits 16 value.toNat).map Char.toLower =
          Nat.toDigits 16 value.toNat := by
        rw [List.map_congr_left, List.map_id]
        intro char listed
        obtain ⟨digit, small, rfl⟩ := Lexer.exists_of_mem_toDigits (by decide) listed
        exact lower digit small
      exact ⟨_, .hexadecimal (Or.inl rfl) spelled isSuffix⟩

private theorem exists_written {token : Token} (writable : token.isWritable) :
    ∃ text, token.Written text := by
  cases token with
  | int literal => exact exists_intWritten literal
  | float value single => cases writable
  | char code =>
      obtain ⟨char, rfl⟩ := writable
      obtain ⟨spelled, written⟩ := exists_charWritten '\'' rfl char
      exact ⟨_, .char written⟩
  | string text =>
      obtain ⟨body, written⟩ := exists_textWritten '"' rfl text.toList
      exact ⟨_, .string written⟩
  | ident name => exact ⟨_, .ident writable.1 writable.2⟩
  | keyword word => cases word <;> exact ⟨_, .word List.mem_cons_self⟩
  | typeWord word => cases word <;> exact ⟨_, .word List.mem_cons_self⟩
  | punct mark => exact ⟨_, .mark List.mem_cons_self⟩
  | opAssign op =>
      obtain ⟨text, spelled⟩ := Option.isSome_iff_exists.mp writable
      exact ⟨_, .mark (Option.mem_toList.mpr spelled)⟩
  | eof => cases writable

/-- A token of these kinds can be written, and whatever tokens are written one after another with
separators between them, and perhaps a gap in front, the lexer gives back those tokens and the end
of the source. -/
theorem lex_spelled :
    (∀ token : Token, token.isWritable → ∃ text, token.Written text) ∧
    ∀ (lead text : List Char) (tokens : List Token), Gap lead → Spelled tokens text →
      ∃ lexemes, lex (String.ofList (lead ++ text)) = .tokens lexemes ∧
        lexemes.map Lexeme.token = tokens ++ [.eof] := by
  refine ⟨?_, ?_⟩
  · intro token writable
    exact exists_written writable
  · intro lead text tokens isGap spelled
    have scans := (Lexer.Scans.behindGap isGap (Lexer.scans_spelled spelled)).of_dropWhile
    obtain ⟨found, scanned, faultless, same⟩ := scans 0
    refine ⟨found.lexemes, ?_, same⟩
    have start : Text.Cursor.start (String.ofList (lead ++ text)).toList = ⟨0, lead ++ text⟩ := by
      rw [String.toList_ofList]
      rfl
    simp only [lex, start, scanned, faultless, List.isEmpty_nil, if_true]

theorem lex_shift_assignment :
    ∃ lexemes, lex "x <<=\t/* a*/0xfFuL // *\n\"\\\"\\n'\"" = .tokens lexemes ∧
      lexemes.map Lexeme.token =
        [.ident "x", .opAssign .shl, .int ⟨255, true, true, true⟩, .string "\"\n'", .eof] := by
  have free : ¬ isReserved "x" := by
    rintro ⟨token, listed⟩
    cases token with
    | keyword word => cases word <;> revert listed <;> decide
    | typeWord word => cases word <;> revert listed <;> decide
    | _ => cases listed
  have number : Token.Written (.int ⟨255, true, true, true⟩)
      ('0' :: 'x' :: (['f', 'F'] ++ ['u', 'L'])) :=
    .hexadecimal (Or.inl rfl) (by decide) ⟨by simp, by simp, by simp⟩
  have body : TextWritten '"' ['"', '\n', '\''] (['\\', '"'] ++ (['\\', 'n'] ++ (['\''] ++ []))) :=
    .cons (.escaped rfl) (.cons (.escaped rfl)
      (.cons (.raw (by decide) (by decide) (by decide)) .nil))
  have text : Token.Written (.string "\"\n'") _ := .string body
  have name : Token.Written (.ident "x") "x".toList := .ident (by decide) free
  have assignment : Token.Written (.opAssign .shl) "<<=".toList := .mark List.mem_cons_self
  have space : Separator [' '] := .mk (by decide) .nil
  have block : Separator ('\t' :: '/' :: '*' :: ([' ', 'a'] ++ '*' :: '/' :: [])) :=
    .mk (by decide) (.block (by decide) .nil)
  have line : Separator (' ' :: '/' :: '/' :: ([' ', '*'] ++ '\n' :: [])) :=
    .mk (by decide) (.line (by decide) .nil)
  exact lex_spelled.2 [] _ _ .nil
    (.cons name space (.cons assignment block (.cons number line (.last text))))

end MiniC
