import Mathlib.Data.List.Chain
import MiniC.Proofs.LexerRoundTrip
import MiniC.Proofs.Token.Cutting

/-!
The lexer covers the source.

Every character of an accepted source stands in a token or in a gap between tokens,
and the text under a token is that token again when it is read alone.
-/

namespace MiniC

/-- A gap, or one with a line comment behind it that the end of the source closes. -/
inductive LastGap : List Char → Prop where
  | closed {gap : List Char} : Gap gap → LastGap gap
  | line {gap body : List Char} : Gap gap → '\n' ∉ body → LastGap (gap ++ '/' :: '/' :: body)

namespace Lexer

open Text (Cursor)

/-- What one step moves over without giving a token, and what is left behind it. A line comment goes
on to the end of its line. -/
inductive Skipped : List Char → List Char → Prop where
  | blanks {text rest : List Char} : (∀ char ∈ text, char ∈ blanks) → Skipped text rest
  | line {body rest : List Char} : '\n' ∉ body → (∀ char, rest.head? = some char → char = '\n') →
      Skipped ('/' :: '/' :: body) rest
  | block {body rest : List Char} : ¬ ['*', '/'] <:+: body →
      Skipped ('/' :: '*' :: (body ++ ['*', '/'])) rest

private theorem gap_of_blanks {text gap : List Char} (all : ∀ char ∈ text, char ∈ blanks)
    (isGap : Gap gap) : Gap (text ++ gap) := by
  induction text with
  | nil => exact isGap
  | cons char text ih =>
      obtain ⟨blank, others⟩ := List.forall_mem_cons.mp all
      exact .blank blank (ih others)

private theorem gap_of_newline {rest : List Char} (isGap : Gap ('\n' :: rest)) : Gap rest := by
  cases isGap with
  | blank _ behind => exact behind

private theorem gap_of_block {body gap : List Char} (unclosed : ¬ ['*', '/'] <:+: body)
    (isGap : Gap gap) : Gap ('/' :: '*' :: (body ++ ['*', '/']) ++ gap) := by
  have closed := Gap.block unclosed isGap
  rw [List.cons_append, List.cons_append, List.append_assoc]
  exact closed

theorem Skipped.gap {text gap rest : List Char} {first : Char}
    (skipped : Skipped text (gap ++ first :: rest)) (isGap : Gap gap) (solid : first ≠ '\n') :
    Gap (text ++ gap) := by
  cases skipped with
  | blanks all => exact gap_of_blanks all isGap
  | line oneLine next =>
      cases gap with
      | nil => exact absurd (next first rfl) solid
      | cons char gap =>
          obtain rfl := next char rfl
          exact .line oneLine (gap_of_newline isGap)
  | block unclosed => exact gap_of_block unclosed isGap

private theorem Skipped.lastGap {text gap : List Char} (skipped : Skipped text gap)
    (isGap : LastGap gap) : LastGap (text ++ gap) := by
  cases isGap with
  | @line gap body isGap oneLine =>
      rw [← List.append_assoc]
      exact .line (skipped.gap isGap (by decide)) oneLine
  | closed isGap =>
      cases skipped with
      | blanks all => exact .closed (gap_of_blanks all isGap)
      | @line body _ oneLine next =>
          cases gap with
          | nil =>
              rw [List.append_nil]
              exact .line .nil oneLine
          | cons char gap =>
              obtain rfl := next char rfl
              exact .closed (.line oneLine (gap_of_newline isGap))
      | block unclosed => exact .closed (gap_of_block unclosed isGap)

section Steps

variable {offset : Nat} {first : Char} {rest : List Char} {piece : Piece} {here : Cursor}

def Piece.Silent (piece : Piece) : Prop := piece.token? = none ∧ piece.faults = []

private theorem not_silent_of_token {token : Token} (gives : piece.token? = some token) :
    ¬ piece.Silent := by
  rintro ⟨none, _⟩
  cases gives.symm.trans none

private theorem not_silent_found {token : Token} : ¬ (Piece.found token here).Silent :=
  not_silent_of_token rfl

private theorem not_silent_failed {message : String} {start : Nat} :
    ¬ (Piece.failed message start here).Silent := by
  rintro ⟨_, faultless⟩
  cases faultless

private theorem finishInteger_not_silent (start : Nat) (spelling : List Char) (value? : Option Nat)
    (based : Bool) (here : Cursor) : ¬ (finishInteger start spelling value? based here).Silent := by
  simp only [finishInteger]
  split
  · exact not_silent_failed
  · split
    · exact not_silent_found
    · exact not_silent_failed

private theorem readNumber_not_silent (start : Nat) (first : Char) (tail : Cursor) :
    ¬ (readNumber start first tail).Silent := by
  unfold readNumber
  split
  · exact finishInteger_not_silent _ _ _ _ _
  · simp only [readDecimal]
    split
    · exact not_silent_found
    · exact finishInteger_not_silent _ _ _ _ _

private theorem readString_not_silent {start : Nat} (found : readString start here = .piece piece) :
    ¬ piece.Silent := by
  unfold readString at found
  split at found
  · cases found
  · cases found
    exact not_silent_of_token rfl

private theorem readChar_not_silent {start : Nat} (found : readChar start here = .piece piece) :
    ¬ piece.Silent := by
  unfold readChar at found
  split at found
  · cases found
    exact not_silent_failed
  · split at found
    · cases found
    · cases found
      exact not_silent_failed
    · split at found
      · cases found
        exact not_silent_of_token rfl
      · cases found
        rintro ⟨_, faultless⟩
        exact List.cons_ne_nil _ _ (List.append_eq_nil_iff.mp faultless).2

private theorem readMark_not_silent (here tail : Cursor) (first : Char) :
    ¬ (readMark here tail first).Silent := by
  unfold readMark
  split
  · exact not_silent_found
  · split
    · exact not_silent_failed
    · exact not_silent_failed

private theorem exists_of_nextIs {mark : Char}
    (next : (Cursor.advance ⟨offset, first :: rest⟩).nextIs (· = mark) = true) :
    ∃ more, rest = mark :: more := by
  cases rest with
  | nil => cases next
  | cons char more =>
      cases of_decide_eq_true next
      exact ⟨more, rfl⟩

/-- A step that reports nothing moves over blank characters or a comment. -/
theorem skipped_of_silent (found : readPiece ⟨offset, first :: rest⟩ first = .piece piece)
    (silent : piece.Silent) :
    ∃ text, Cursor.Over ⟨offset, first :: rest⟩ text piece.after ∧
      Skipped text piece.after.rest := by
  have ahead : Cursor.Over ⟨offset, first :: rest⟩ [first] _ := Cursor.over_advance rfl
  simp only [readPiece] at found
  split at found
  · rename_i space
    cases found
    refine ⟨_, ahead.trans (Cursor.over_takeWhile isSpace _), .blanks ?_⟩
    intro char listed
    rcases List.mem_cons.mp listed with rfl | taken
    · exact isSpace_iff.mp space
    · exact isSpace_iff.mp (List.all_eq_true.mp List.all_takeWhile char taken)
  split at found
  · rename_i opens
    cases found
    obtain ⟨isSlash, next⟩ := Bool.and_eq_true_iff.mp opens
    cases of_decide_eq_true isSlash
    obtain ⟨more, rfl⟩ := exists_of_nextIs next
    refine ⟨_, ahead.trans (Cursor.over_takeWhile (· != '\n') _), .line ?_ ?_⟩
    · intro listed
      have inside := List.all_eq_true.mp List.all_takeWhile '\n' listed
      cases inside
    · intro char next
      have stops := List.head?_dropWhile_not (· != '\n') ('/' :: more)
      change (('/' :: more).dropWhile (· != '\n')).head? = some char at next
      rw [next] at stops
      exact bne_eq_false_iff_eq.mp stops
  split at found
  · rename_i opens
    cases found
    obtain ⟨isSlash, next⟩ := Bool.and_eq_true_iff.mp opens
    cases of_decide_eq_true isSlash
    obtain ⟨more, rfl⟩ := exists_of_nextIs next
    unfold readBlockComment at silent ⊢
    split at silent
    · rename_i closed
      obtain ⟨body, unclosed, passed⟩ := closeComment?_over closed
      have star : Cursor.Over (Cursor.advance ⟨offset, '/' :: '*' :: more⟩) ['*'] _ :=
        Cursor.over_advance rfl
      exact ⟨_, ahead.trans (star.trans passed), .block unclosed⟩
    · exact absurd silent not_silent_failed
  split at found
  · cases found
    exact absurd silent (readNumber_not_silent _ _ _)
  split at found
  · cases found
    exact absurd silent not_silent_found
  split at found
  · exact absurd silent (readString_not_silent found)
  split at found
  · exact absurd silent (readChar_not_silent found)
  · cases found
    exact absurd silent (readMark_not_silent _ _ _)

end Steps

/-- The text is lexed as the token and the end of the source. -/
def Alone (text : List Char) (token : Token) : Prop :=
  lex (String.ofList text) =
    .tokens [⟨token, ⟨0, Text.byteSize text⟩⟩,
      ⟨.eof, ⟨Text.byteSize text, Text.byteSize text⟩⟩]

section Steps

variable {offset : Nat} {first : Char} {rest : List Char} {piece : Piece} {token : Token}
  {here : Cursor}

private theorem failed_ne_eof {message : String} {start : Nat} :
    (Piece.failed message start here).token? ≠ some .eof := by
  intro same
  cases same

private theorem wordToken_ne_eof (text : List Char) : wordToken text ≠ .eof := by
  have none : ∀ entry ∈ words, entry.2 ≠ .eof := by simp [words]
  intro same
  simp only [wordToken] at same
  cases found : words.lookup (String.ofList text) with
  | none =>
      rw [found] at same
      cases same
  | some token =>
      obtain ⟨before, behind, split, -⟩ := List.lookup_eq_some_iff.mp found
      rw [found] at same
      obtain rfl : token = .eof := same
      have listed : (String.ofList text, Token.eof) ∈ words := by
        rw [split]
        exact List.mem_append_right before List.mem_cons_self
      exact none _ listed rfl

private theorem readMark_ne_eof (here tail : Cursor) (first : Char) :
    (readMark here tail first).token? ≠ some .eof := by
  have none : ∀ mark ∈ marks, mark.2 ≠ .eof := by simp [marks]
  unfold readMark
  split
  · rename_i found
    intro same
    cases same
    exact none _ (List.mem_of_find?_eq_some found) rfl
  · split <;> exact failed_ne_eof

private theorem readBlockComment_ne_eof (start : Nat) (body : Cursor) :
    (readBlockComment start body).token? ≠ some .eof := by
  unfold readBlockComment
  split
  · intro same
    cases same
  · exact failed_ne_eof

private theorem finishInteger_ne_eof (start : Nat) (spelling : List Char) (value? : Option Nat)
    (based : Bool) (here : Cursor) :
    (finishInteger start spelling value? based here).token? ≠ some .eof := by
  simp only [finishInteger]
  split
  · exact failed_ne_eof
  · split
    · intro same
      cases same
    · exact failed_ne_eof

private theorem readNumber_ne_eof (start : Nat) (first : Char) (tail : Cursor) :
    (readNumber start first tail).token? ≠ some .eof := by
  unfold readNumber
  split
  · exact finishInteger_ne_eof _ _ _ _ _
  · simp only [readDecimal]
    split
    · intro same
      cases same
    · exact finishInteger_ne_eof _ _ _ _ _

private theorem readString_ne_eof {start : Nat} (found : readString start here = .piece piece) :
    piece.token? ≠ some .eof := by
  unfold readString at found
  split at found <;> cases found
  intro same
  cases same

private theorem readChar_ne_eof {start : Nat} (found : readChar start here = .piece piece) :
    piece.token? ≠ some .eof := by
  unfold readChar at found
  repeat' split at found
  all_goals cases found
  all_goals
    intro same
    cases same

private theorem not_isSpace_of_token
    (found : readPiece ⟨offset, first :: rest⟩ first = .piece piece)
    (gives : piece.token? = some token) : isSpace first = false := by
  simp only [readPiece] at found
  split at found
  · cases found
    cases gives
  · rename_i solid
    exact Bool.eq_false_iff.mpr solid

theorem scan_nil (offset : Nat) :
    scan ⟨offset, []⟩ = some ⟨[⟨.eof, ⟨offset, offset⟩⟩], []⟩ := by
  rw [scan]

/-- What a step reads as a token gives that token when nothing else stands there. -/
theorem alone_of_token (found : readPiece ⟨offset, first :: rest⟩ first = .piece piece)
    (gives : piece.token? = some token) (faultless : piece.faults = []) :
    ∃ more, Cursor.Over ⟨offset, first :: rest⟩ (first :: more) piece.after ∧
      Alone (first :: more) token := by
  obtain ⟨more, passed⟩ := (readPiece_moves found).leads
  have whole : Cursor.Over ⟨offset, first :: rest⟩ (first :: more) piece.after :=
    (Cursor.over_advance rfl).trans passed
  refine ⟨more, whole, ?_⟩
  obtain rfl : rest = more ++ piece.after.rest := passed.rest_eq
  have inText : readPiece (Cursor.amid offset piece.after.rest ⟨0, first :: more⟩) first =
      .piece piece := found
  obtain ⟨part, read, same⟩ := readPiece_amid inText ⟨gives, faultless, Nat.le_refl _⟩
  have partToken : part.token? = some token := (congrArg Piece.token? same).symm.trans gives
  have partFaults : part.faults = [] := (congrArg Piece.faults same).symm.trans faultless
  have atEnd : part.after = ⟨Text.byteSize (first :: more), []⟩ := by
    have rests : piece.after.rest = part.after.rest ++ piece.after.rest :=
      congrArg (fun piece => piece.after.rest) same
    have offsets : piece.after.offset = offset + part.after.offset :=
      congrArg (fun piece => piece.after.offset) same
    have counted := whole.offset_eq
    obtain ⟨token?, faults, ⟨finish, left⟩⟩ := part
    obtain rfl : left = [] := List.self_eq_append_left.mp rests
    obtain rfl : finish = Text.byteSize (first :: more) := by
      dsimp only at offsets counted
      omega
    rfl
  have scanned : scan ⟨0, first :: more⟩ =
      some ⟨[⟨token, ⟨0, Text.byteSize (first :: more)⟩⟩,
        ⟨.eof, ⟨Text.byteSize (first :: more), Text.byteSize (first :: more)⟩⟩], []⟩ := by
    rw [scan_of_piece read, atEnd, scan_nil, Option.map_some]
    simp only [Scan.cons, partToken, partFaults, atEnd, List.append_nil]
  have start : Cursor.start (String.ofList (first :: more)).toList = ⟨0, first :: more⟩ := by
    rw [String.toList_ofList]
    rfl
  simp only [Alone, lex, start, scanned, List.isEmpty_nil, if_true]

/-- No step gives the token that ends the source. -/
theorem ne_eof_of_token (found : readPiece ⟨offset, first :: rest⟩ first = .piece piece)
    (gives : piece.token? = some token) : token ≠ .eof := by
  rintro rfl
  simp only [readPiece] at found
  repeat' split at found
  · cases found
    cases gives
  · cases found
    cases gives
  · cases found
    exact readBlockComment_ne_eof _ _ gives
  · cases found
    exact readNumber_ne_eof _ _ _ gives
  · cases found
    exact wordToken_ne_eof _ (Option.some.inj gives)
  · exact readString_ne_eof found gives
  · exact readChar_ne_eof found gives
  · cases found
    exact readMark_ne_eof _ _ _ gives

/-! ### Sources -/

/-- From the cursor on, the text consists of gaps and of tokens with these spans. -/
inductive Laid : Cursor → List Lexeme → Prop where
  | finish {start after : Cursor} {gap : List Char} : LastGap gap → start.Over gap after →
      after.rest = [] → Laid start [⟨.eof, ⟨after.offset, after.offset⟩⟩]
  | token {start place after : Cursor} {gap more : List Char} {first : Char} {token : Token}
      {lexemes : List Lexeme} : Gap gap → start.Over gap place → place.Over (first :: more) after →
      isSpace first = false → token ≠ .eof → Alone (first :: more) token → Laid after lexemes →
      Laid start (⟨token, ⟨place.offset, after.offset⟩⟩ :: lexemes)

theorem Laid.skip {start middle : Cursor} {text : List Char} {lexemes : List Lexeme}
    (passed : start.Over text middle) (skipped : Skipped text middle.rest)
    (laid : Laid middle lexemes) : Laid start lexemes := by
  cases laid with
  | finish isGap further atEnd =>
      rw [further.rest_eq, atEnd, List.append_nil] at skipped
      exact .finish (skipped.lastGap isGap) (passed.trans further) atEnd
  | token isGap further reaches solid notEnd alone behind =>
      rw [further.rest_eq, reaches.rest_eq, List.cons_append] at skipped
      refine .token (skipped.gap isGap ?_) (passed.trans further) reaches solid notEnd alone behind
      rintro rfl
      cases solid

theorem laid_of_scan {here : Cursor} {found : Scan} (scanned : scan here = some found)
    (faultless : found.faults = []) : Laid here found.lexemes := by
  fun_induction scan here generalizing found with
  | case1 here atEnd =>
      cases scanned
      exact .finish (.closed .nil) ⟨rfl, rfl⟩ atEnd
  | case2 => cases scanned
  | case3 here first rest next piece read _ ih =>
      obtain ⟨offset, _⟩ := here
      cases next
      obtain ⟨inner, innerScanned, rfl⟩ := Option.map_eq_some_iff.mp scanned
      obtain ⟨noFaults, noInner⟩ := List.append_eq_nil_iff.mp faultless
      have behind := ih innerScanned noInner
      cases gives : piece.token? with
      | none =>
          obtain ⟨text, passed, skipped⟩ := skipped_of_silent read ⟨gives, noFaults⟩
          simp only [Scan.cons, gives]
          exact behind.skip passed skipped
      | some token =>
          obtain ⟨more, passed, alone⟩ := alone_of_token read gives noFaults
          have solid := not_isSpace_of_token read gives
          simp only [Scan.cons, gives]
          exact .token .nil ⟨rfl, rfl⟩ passed solid (ne_eof_of_token read gives) alone behind

end Steps

end Lexer

open Text (Cursor)

def Between (source : List Char) (Allowed : List Char → Prop) (left right : Span) : Prop :=
  ∃ text, Text.slice? left.finish right.start source = some text ∧ Allowed text

/-- The lexemes cover what stands in the source behind the left span. -/
structure Covers (source : List Char) (left : Span) (lexemes : List Lexeme) : Prop where
  /-- Each is a token with some text. -/
  filled : ∀ lexeme ∈ lexemes, lexeme.token ≠ .eof ∧ lexeme.span.start < lexeme.span.finish
  ordered : (left :: lexemes.map Lexeme.span).Pairwise fun first second =>
    first.finish ≤ second.start
  /-- Between neighbours stands a gap. -/
  gaps : (left :: lexemes.map Lexeme.span).IsChain (Between source Gap)
  /-- Behind the last one no text is left uncovered. -/
  last : Between source LastGap ((left :: lexemes.map Lexeme.span).getLast (List.cons_ne_nil _ _))
    ⟨Text.byteSize source, Text.byteSize source⟩
  /-- What stands under a lexeme gives its token, wherever it stands. -/
  alone : ∀ lexeme ∈ lexemes, ∃ text,
    Text.slice? lexeme.span.start lexeme.span.finish source = some text ∧
      Lexer.Alone text lexeme.token

theorem Lexer.Laid.covers {source : List Char} {start : Cursor} {lexemes : List Lexeme}
    (laid : Laid start lexemes) (inside : (Cursor.start source).Leads start) {left : Span}
    (meets : left.finish = start.offset) :
    ∃ tokens, lexemes = tokens ++ [⟨.eof, ⟨Text.byteSize source, Text.byteSize source⟩⟩] ∧
      Covers source left tokens := by
  induction laid generalizing left with
  | @finish start after gap isGap passed atEnd =>
      have size : after.offset = Text.byteSize source := by
        obtain ⟨before, whole, offset⟩ := (inside.trans ⟨gap, passed⟩).exists_before
        rw [atEnd, List.append_nil] at whole
        rw [offset, whole]
      refine ⟨[], ?_, ?_⟩
      · rw [size, List.nil_append]
      · have cut := Cursor.slice?_of_over inside passed
        rw [← meets, size] at cut
        exact ⟨List.forall_mem_nil _, List.pairwise_singleton _ _, .singleton _,
          ⟨gap, cut, isGap⟩, List.forall_mem_nil _⟩
  | @token start place after gap more first token lexemes isGap passed reaches _ notEnd alone _ ih =>
      have atPlace := inside.trans ⟨gap, passed⟩
      have cutGap := Cursor.slice?_of_over inside passed
      have cutToken := Cursor.slice?_of_over atPlace reaches
      rw [← meets] at cutGap
      have meetsAfter : (⟨place.offset, after.offset⟩ : Span).finish = after.offset := rfl
      obtain ⟨tokens, rfl, covers⟩ := ih (atPlace.trans ⟨_, reaches⟩) meetsAfter
      have before : left.finish ≤ place.offset := by
        rw [meets]
        exact Cursor.Leads.offset_le ⟨gap, passed⟩
      have solid : place.offset < after.offset := by
        have grows := first.utf8Size_pos
        rw [reaches.offset_eq, Text.byteSize]
        omega
      refine ⟨⟨token, ⟨place.offset, after.offset⟩⟩ :: tokens, rfl, ?_⟩
      constructor
      · exact List.forall_mem_cons.mpr ⟨⟨notEnd, solid⟩, covers.filled⟩
      · refine List.pairwise_cons.mpr ⟨?_, covers.ordered⟩
        refine List.forall_mem_cons.mpr ⟨before, ?_⟩
        intro other listed
        have further := List.rel_of_pairwise_cons covers.ordered listed
        dsimp only at further
        omega
      · exact List.isChain_cons_cons.mpr ⟨⟨gap, cutGap, isGap⟩, covers.gaps⟩
      · exact covers.last
      · exact List.forall_mem_cons.mpr ⟨⟨_, cutToken, alone⟩, covers.alone⟩

/-- The tokens of an accepted source have nonempty spans in source order, none into the next, and the
last lexeme is the end of the source. Before each token stands a gap, and before the end a gap or a
line comment without a line end. The text under a token is lexed as this token and the end. -/
theorem lex_covers_source {source : String} {lexemes : List Lexeme}
    (accepted : lex source = .tokens lexemes) :
    ∃ tokens, lexemes = tokens ++
        [⟨.eof, ⟨Text.byteSize source.toList, Text.byteSize source.toList⟩⟩] ∧
      Covers source.toList ⟨0, 0⟩ tokens := by
  unfold lex at accepted
  split at accepted
  · cases accepted
  · rename_i found scanned
    split at accepted
    · rename_i faultless
      cases accepted
      exact (Lexer.laid_of_scan scanned (List.isEmpty_iff.mp faultless)).covers (.refl _) rfl
    · cases accepted

def Lexed.spans : Lexed → List Span
  | .tokens lexemes => lexemes.map Lexeme.span
  | _ => []

theorem shift_assignment_covered : ∃ lexemes tokens,
    lex "a/**/<<=07 //b" = .tokens lexemes ∧
      tokens.map Lexeme.span = [⟨0, 1⟩, ⟨5, 8⟩, ⟨8, 10⟩] ∧
      Covers "a/**/<<=07 //b".toList ⟨0, 0⟩ tokens := by
  have spans : (lex "a/**/<<=07 //b").spans = [⟨0, 1⟩, ⟨5, 8⟩, ⟨8, 10⟩, ⟨14, 14⟩] := by
    decide +kernel
  cases accepted : lex "a/**/<<=07 //b" with
  | tokens lexemes =>
      obtain ⟨tokens, rfl, covers⟩ := lex_covers_source accepted
      rw [accepted, Lexed.spans, List.map_append] at spans
      have size : Text.byteSize "a/**/<<=07 //b".toList = 14 := by decide
      rw [size] at spans
      exact ⟨_, tokens, rfl, List.append_cancel_right spans, covers⟩
  | faults diagnostics =>
      rw [accepted] at spans
      cases spans
  | aborted =>
      rw [accepted] at spans
      cases spans

end MiniC
