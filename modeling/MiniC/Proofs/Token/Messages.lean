import MiniC.Proofs.Text.OneLine
import MiniC.Proofs.Token.Movement

/-!
What the lexer says of its faults.

Every message is on one line, and so is the name of every identifier. There is one exception: of a
backslash in front of a line feed the lexer says that the escape sequence is unknown, and shows the
line feed as it is.
-/

namespace MiniC

open Text (Cursor OneLine)

def Token.Tidy : Token → Prop
  | .ident name => OneLine name
  | _ => True

namespace Lexer

variable {here after : Cursor}

def lineEndEscape : String := "Unknown escape sequence: '\\\n'"

theorem not_oneLine_lineEndEscape : ¬ OneLine lineEndEscape := by
  intro oneLine
  exact oneLine (by decide)

/-- The fault is a backslash in front of a line feed, behind the cursor. -/
structure EscapesLineEnd (here : Cursor) (fault : Diagnostic) : Prop where
  message : fault.message = lineEndEscape
  place : ∃ slash after, here.Leads slash ∧ slash.Over ['\\', '\n'] after ∧
    fault.span = ⟨slash.offset, after.offset⟩

/-- Each message is on one line unless its fault is an escaped line end behind the cursor. -/
def Tells (here : Cursor) (faults : List Diagnostic) : Prop :=
  ∀ fault ∈ faults, OneLine fault.message ∨ EscapesLineEnd here fault

theorem Tells.none (here : Cursor) : Tells here [] := List.forall_mem_nil _

theorem Tells.one {fault : Diagnostic} (tells : OneLine fault.message ∨ EscapesLineEnd here fault) :
    Tells here [fault] := by
  intro other listed
  cases List.mem_singleton.mp listed
  exact tells

theorem Tells.append {first second : List Diagnostic} (before : Tells here first)
    (behind : Tells here second) : Tells here (first ++ second) := by
  intro fault listed
  exact (List.mem_append.mp listed).elim (before fault) (behind fault)

theorem Tells.behind {faults : List Diagnostic} (tells : Tells after faults)
    (leads : here.Leads after) : Tells here faults := by
  intro fault listed
  rcases tells fault listed with oneLine | ⟨message, slash, finish, ahead, apart, span⟩
  · exact .inl oneLine
  · exact .inr ⟨message, slash, finish, leads.trans ahead, apart, span⟩

structure Piece.Tidy (here : Cursor) (piece : Piece) : Prop where
  token : ∀ token, piece.token? = some token → token.Tidy
  faults : Tells here piece.faults

namespace Piece.Tidy

theorem gap : (Piece.gap after).Tidy here := by
  refine ⟨fun token same => ?_, .none here⟩
  cases same

theorem found {token : Token} (tidy : token.Tidy) : (Piece.found token after).Tidy here := by
  refine ⟨fun token same => ?_, .none here⟩
  cases same
  exact tidy

theorem failed {message : String} {start : Nat} (oneLine : OneLine message) :
    (Piece.failed message start after).Tidy here := by
  refine ⟨fun token same => ?_, .one (.inl oneLine)⟩
  cases same

end Piece.Tidy

private theorem not_mem_of_all {test : Char → Bool} {chars : List Char}
    (refuses : test '\n' = false)
    (all : ∀ char ∈ chars, test char = true) : '\n' ∉ chars := by
  intro inside
  exact absurd (all '\n' inside) (Bool.eq_false_iff.mp refuses)

private theorem not_mem_takeWhile (test : Char → Bool) (refuses : test '\n' = false)
    (here : Cursor) :
    '\n' ∉ (here.takeWhile test).1 :=
  not_mem_of_all refuses fun _ listed => List.all_eq_true.mp List.all_takeWhile _ listed

theorem not_mem_cons {first : Char} {rest : List Char} (head : first ≠ '\n') (tail : '\n' ∉ rest) :
    '\n' ∉ first :: rest := by
  rw [List.mem_cons]
  exact fun inside => inside.elim head.symm tail

/-- What stands at a cursor whose next character passes a test that refuses the line feed. -/
theorem not_mem_take_one {test : Char → Bool} (refuses : test '\n' = false)
    (next : here.nextIs test = true) : '\n' ∉ here.rest.take 1 := by
  obtain ⟨offset, rest⟩ := here
  cases rest with
  | nil => cases next
  | cons char rest =>
      refine not_mem_of_all refuses fun other listed => ?_
      cases List.mem_singleton.mp listed
      exact next

theorem not_mem_append {first second : List Char} (left : '\n' ∉ first) (right : '\n' ∉ second) :
    '\n' ∉ first ++ second := by
  rw [List.mem_append]
  exact fun inside => inside.elim left right

private theorem wordToken_tidy {text : List Char} (plain : '\n' ∉ text) :
    (wordToken text).Tidy := by
  have reserved : ∀ entry ∈ words, entry.2.Tidy := by
    simp only [words, List.forall_mem_cons, List.not_mem_nil, false_implies, implies_true,
      Token.Tidy, and_self]
  simp only [wordToken]
  cases found : words.lookup (String.ofList text) with
  | none => exact OneLine.ofChars plain
  | some token =>
      obtain ⟨before, behind, split, -⟩ := List.lookup_eq_some_iff.mp found
      refine reserved (String.ofList text, token) ?_
      rw [split]
      exact List.mem_append_right before List.mem_cons_self

private theorem readMark_tidy (here tail : Cursor) {first : Char} (solid : isSpace first = false) :
    (readMark here tail first).Tidy here := by
  have nameless : ∀ mark ∈ marks, mark.2.Tidy := by
    simp only [marks, List.forall_mem_cons, List.not_mem_nil, false_implies, implies_true,
      Token.Tidy, and_self]
  have plain : first ≠ '\n' := by
    rintro rfl
    exact absurd solid (by decide)
  unfold readMark
  split
  · rename_i found
    exact .found (nameless _ (List.mem_of_find?_eq_some found))
  · split
    · exact .failed (.literal rfl)
    · exact .failed (.between rfl (.character plain) rfl)

private theorem readBlockComment_tidy (start : Nat) (body : Cursor) :
    (readBlockComment start body).Tidy here := by
  unfold readBlockComment
  split
  · exact .gap
  · exact .failed (.literal rfl)

private theorem finishInteger_tidy (start : Nat) {spelling : List Char} (plain : '\n' ∉ spelling)
    (value? : Option Nat) (based : Bool) (tail : Cursor) :
    (finishInteger start spelling value? based tail).Tidy here := by
  have suffix := not_mem_append plain (not_mem_takeWhile
    (fun char => isUnsignedSuffix char || isLongSuffix char) rfl tail)
  simp only [finishInteger]
  split
  · exact .failed (.append (.literal rfl)
      (.ofChars (not_mem_append suffix (not_mem_takeWhile _ rfl _))))
  · split
    · exact .found trivial
    · exact .failed (.append (.literal rfl) (.ofChars suffix))

private theorem not_mem_whole {first : Char} (plain : first ≠ '\n') (tail : Cursor) :
    '\n' ∉ (readMantissa first tail).whole := by
  have digits := not_mem_cons plain (not_mem_takeWhile isDigit rfl tail)
  simp only [readMantissa]
  split
  · exact List.not_mem_nil
  · split <;> exact digits

private theorem readNumber_tidy (start : Nat) {first : Char} (plain : first ≠ '\n')
    (tail : Cursor) :
    (readNumber start first tail).Tidy here := by
  unfold readNumber
  split
  · rename_i marked
    have mark := not_mem_take_one rfl (Bool.and_eq_true_iff.mp marked).2
    exact finishInteger_tidy start
      (not_mem_cons plain (not_mem_append mark (not_mem_takeWhile _ rfl _))) _ _ _
  · simp only [readDecimal]
    split
    · exact .found trivial
    · exact finishInteger_tidy start (not_mem_whole plain tail) _ _ _

def LiteralChar.Tidy (here : Cursor) : LiteralChar → Prop
  | .found _ faults _ => Tells here faults
  | .missing _ => True
  | .aborted => True

private theorem readHexEscape_tidy (start : Nat) (tail : Cursor) :
    (readHexEscape start tail).Tidy here := by
  simp only [readHexEscape]
  split
  · exact .none here
  · exact .one (.inl (.literal rfl))

/-- Of all characters that may stand behind a backslash, only a line feed breaks the message. -/
theorem readEscape_tidy (start : Nat) {rest : List Char} (slash : here.rest = '\\' :: rest) :
    (readEscape start here.advance).Tidy here := by
  have ahead := Cursor.over_advance slash
  unfold readEscape
  split
  · trivial
  · rename_i char behind next
    have further := ahead.trans (Cursor.over_advance next)
    dsimp only
    split
    · exact .none here
    · split
      · exact readHexEscape_tidy start _
      · split
        · rename_i narrow
          refine .one ?_
          -- The message shows the character as it is: only a line feed takes it to a second line.
          by_cases lineEnd : char = '\n'
          · subst lineEnd
            refine .inr ⟨rfl, here, _, .refl here, further, ?_⟩
            rw [further.offset_eq]
            rfl
          · exact .inl (.between rfl (.character lineEnd) rfl)
        · trivial

private theorem readLiteralChar_tidy (start : Nat) (here : Cursor) :
    (readLiteralChar start here).Tidy here := by
  unfold readLiteralChar
  split
  · trivial
  · rename_i char rest next
    split
    · rename_i slash
      exact readEscape_tidy start (slash ▸ next)
    · exact .none here

private theorem readStringBody_tells (start : Cursor) {text : List Char} {faults : List Diagnostic}
    (found : readStringBody start.offset here = some (text, faults, after)) :
    Tells here faults := by
  fun_induction readStringBody start.offset here generalizing text faults after with
  | case1 here _ =>
      cases found
      exact .none here
  | case2 here _ _ =>
      cases found
      exact .one (.inl (.literal rfl))
  | case3 => cases found
  | case4 here _ _ behind missing =>
      cases found
      exact .one (.inl (.literal rfl))
  | case5 here _ _ code extra behind read _ ih =>
      obtain ⟨⟨innerText, innerFaults, innerAfter⟩, inner, same⟩ := Option.map_eq_some_iff.mp found
      cases same
      have tidy := readLiteralChar_tidy start.offset here
      have moved := readLiteralChar_moves start here
      rw [read] at tidy moved
      exact tidy.append ((ih inner).behind moved.1)

private theorem readString_tidy (start : Cursor) {piece : Piece}
    (found : readString start.offset here = .piece piece) : piece.Tidy here := by
  unfold readString at found
  split at found
  · cases found
  · rename_i inner
    cases found
    refine ⟨fun token same => ?_, readStringBody_tells start inner⟩
    cases same
    trivial

private theorem readChar_tidy (start : Nat) {piece : Piece}
    (found : readChar start here = .piece piece) :
    piece.Tidy here := by
  have tidy := readLiteralChar_tidy start here
  unfold readChar at found
  split at found
  · cases found
    exact .failed (.literal rfl)
  · split at found
    · cases found
    · cases found
      exact .failed (.literal rfl)
    · rename_i read
      rw [read] at tidy
      split at found
      · cases found
        refine ⟨fun token same => ?_, tidy⟩
        cases same
        trivial
      · cases found
        refine ⟨fun token same => ?_, tidy.append (.one (.inl (.literal rfl)))⟩
        cases same

/-! ### The scan -/

theorem Piece.Tidy.behind {piece : Piece} (tidy : piece.Tidy after) (leads : here.Leads after) :
    piece.Tidy here :=
  ⟨tidy.token, tidy.faults.behind leads⟩

private theorem readPiece_tidy {first : Char} {rest : List Char} {piece : Piece}
    (next : here.rest = first :: rest) (found : readPiece here first = .piece piece) :
    piece.Tidy here := by
  have ahead : here.Leads here.advance := ⟨_, Cursor.over_advance next⟩
  simp only [readPiece] at found
  split at found
  · cases found
    exact .gap
  · rename_i solid
    have plain : first ≠ '\n' := by
      rintro rfl
      exact solid rfl
    split at found
    · cases found
      exact .gap
    · split at found
      · cases found
        exact readBlockComment_tidy _ _
      · split at found
        · cases found
          exact readNumber_tidy _ plain _
        · split at found
          · cases found
            exact .found (wordToken_tidy (not_mem_cons plain (not_mem_takeWhile _ rfl _)))
          · split at found
            · exact (readString_tidy here found).behind ahead
            · split at found
              · exact (readChar_tidy _ found).behind ahead
              · cases found
                exact readMark_tidy here _ (Bool.eq_false_iff.mpr solid)

/-- Tokens are tidy and faults are told as the lexer tells faults, over the whole scan. -/
theorem scan_tidy {found : Scan} (scanned : scan here = some found) :
    (∀ lexeme ∈ found.lexemes, lexeme.token.Tidy) ∧ Tells here found.faults := by
  fun_induction scan here generalizing found with
  | case1 here _ =>
      cases scanned
      refine ⟨fun lexeme listed => ?_, .none here⟩
      cases List.mem_singleton.mp listed
      trivial
  | case2 => cases scanned
  | case3 here first rest next piece read _ ih =>
      obtain ⟨inner, innerScanned, rfl⟩ := Option.map_eq_some_iff.mp scanned
      obtain ⟨tokens, faults⟩ := ih innerScanned
      -- Each piece tells of its faults from its own start, and the scan leads on to that start.
      have tidy := readPiece_tidy next read
      have leads : here.Leads piece.after :=
        (Cursor.leads_advance here).trans (readPiece_moves read).leads
      refine ⟨?_, tidy.faults.append (faults.behind leads)⟩
      cases gives : piece.token? with
      | none => simpa only [Scan.cons, gives] using tokens
      | some token =>
          simp only [Scan.cons, gives]
          exact List.forall_mem_cons.mpr ⟨tidy.token token gives, tokens⟩

end Lexer

theorem lex_tidy {source : String} {lexemes : List Lexeme} (lexed : lex source = .tokens lexemes) :
    ∀ lexeme ∈ lexemes, lexeme.token.Tidy := by
  unfold lex at lexed
  split at lexed
  · cases lexed
  · rename_i scanned
    split at lexed
    · cases lexed
      exact (Lexer.scan_tidy scanned).1
    · cases lexed

theorem lex_tells {source : String} {faults : List Diagnostic}
    (lexed : lex source = .faults faults) :
    faults ≠ [] ∧ Lexer.Tells (Cursor.start source.toList) faults := by
  unfold lex at lexed
  split at lexed
  · cases lexed
  · rename_i scanned
    split at lexed
    · cases lexed
    · rename_i some
      cases lexed
      refine ⟨?_, (Lexer.scan_tidy scanned).2⟩
      intro none
      exact some (List.isEmpty_iff.mpr none)

end MiniC
