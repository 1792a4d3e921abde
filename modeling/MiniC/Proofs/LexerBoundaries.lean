import MiniC.Proofs.LexerRoundTrip
import MiniC.Proofs.Token.ByteLiterals

/-!
The lexer stays on character boundaries.

Moving over the bytes of a source, the lexer breaks off just where it meets, in a
literal, a backslash right in front of a character outside ASCII. In every other source
all places it comes to are at character boundaries, and so are the ends of the spans of
all tokens and faults.
-/

namespace MiniC

namespace Lexer

open Text (Cursor)

namespace Bytewise

variable {source : List Char} {here : Cursor} {place : Nat}

/-- The scan comes to a literal that meets a backslash right in front of a character outside
ASCII. -/
def MeetsWideEscape (source : List Char) : Prop :=
  ∃ before rest, source = before ++ rest ∧ Comes source (Text.byteSize before) ∧ WideEscape rest

/-- Every step leads on, and none leads out of the source. -/
def Advances (source : List Char) : Prop :=
  ∀ place next, Comes source place → place < (Text.bytes source).length →
    step? source place = some next → place < next ∧ next ≤ (Text.bytes source).length

/-- The scan over characters comes to the cursor. -/
inductive Reaches (source : List Char) : Cursor → Prop where
  | start : Reaches source (Cursor.start source)
  | step {here : Cursor} {first : Char} {rest : List Char} {piece : Piece} : Reaches source here →
      here.rest = first :: rest → readPiece here first = .piece piece → Reaches source piece.after

theorem Reaches.leads (reaches : Reaches source here) : (Cursor.start source).Leads here := by
  induction reaches with
  | start => exact .refl _
  | step _ _ read ih => exact ih.trans ((Cursor.leads_advance _).trans (readPiece_moves read).leads)

theorem Reaches.comes (reaches : Reaches source here) : Comes source here.offset := by
  induction reaches with
  | start => exact .start
  | step reaches next read ih =>
      have step := readPiece_stepsTo reaches.leads next
      rw [read] at step
      exact .step ih (lt_length reaches.leads next) step

theorem Reaches.exists_cons (reaches : Reaches source here)
    (inside : here.offset < (Text.bytes source).length) :
    ∃ first rest, here.rest = first :: rest := by
  cases next : here.rest with
  | nil => exact absurd inside (Nat.not_lt_of_le (length_le reaches.leads next))
  | cons first rest => exact ⟨first, rest, rfl⟩

private theorem scan_of_aborted {first : Char} {rest : List Char} (next : here.rest = first :: rest)
    (aborted : readPiece here first = .aborted) : scan here = none := by
  rw [scan]
  split
  · rename_i atEnd
    cases next.symm.trans atEnd
  · rename_i same
    cases next.symm.trans same
    split
    · rfl
    · rename_i read
      cases aborted.symm.trans read

/-- A scan that breaks off later breaks off from the start. -/
theorem Reaches.scan_start (reaches : Reaches source here) (broken : scan here = none) :
    scan (Cursor.start source) = none := by
  induction reaches with
  | start => exact broken
  | @step here first rest piece _ next read ih =>
      obtain ⟨offset, _⟩ := here
      cases next
      apply ih
      rw [scan_of_piece read, broken, Option.map_none]

/-- From a place inside a character no step leads on, so each other place is that of a cursor. -/
theorem Comes.reaches (comes : Comes source place) :
    (∃ here, Reaches source here ∧ here.offset = place) ∨
      (scan (Cursor.start source) = none ∧ Inside source place) := by
  induction comes with
  | start => exact .inl ⟨_, .start, rfl⟩
  | @step place next _ inside step ih =>
      rcases ih with ⟨here, reaches, rfl⟩ | ⟨_, within⟩
      · obtain ⟨first, rest, begins⟩ := reaches.exists_cons inside
        have steps := readPiece_stepsTo reaches.leads begins
        cases read : readPiece here first with
        | piece piece =>
            rw [read] at steps
            cases step.symm.trans steps
            exact .inl ⟨_, reaches.step begins read, rfl⟩
        | aborted =>
            rw [read] at steps
            exact .inr ⟨reaches.scan_start (scan_of_aborted begins read), (steps next step).2⟩
      · rw [within.step?] at step
        cases step

theorem advances (source : List Char) : Advances source := by
  intro place next comes inside step
  rcases comes.reaches with ⟨here, reaches, rfl⟩ | ⟨_, within⟩
  · obtain ⟨first, rest, begins⟩ := reaches.exists_cons inside
    have steps := readPiece_stepsTo reaches.leads begins
    have further : here.offset < here.advance.offset := by
      rw [(Cursor.over_advance begins).offset_eq]
      exact Nat.lt_add_of_pos_right first.utf8Size_pos
    cases read : readPiece here first with
    | piece piece =>
        rw [read] at steps
        cases step.symm.trans steps
        have behind := reaches.step begins read
        refine ⟨Nat.lt_of_lt_of_le further (readPiece_moves read).leads.offset_le, ?_⟩
        rw [length_eq behind.leads]
        exact Nat.le_add_right _ _
    | aborted =>
        rw [read] at steps
        obtain ⟨ahead, within⟩ := steps next step
        exact ⟨Nat.lt_of_lt_of_le further ahead, Nat.le_of_lt within.lt_length⟩
  · rw [within.step?] at step
    cases step

theorem comes_end (goesOn : ¬ BreaksOff source) {place : Nat} (comes : Comes source place)
    (within : place ≤ (Text.bytes source).length) : Comes source (Text.bytes source).length := by
  by_cases inside : place < (Text.bytes source).length
  · cases step : step? source place with
    | none => exact absurd ⟨place, comes, inside, step⟩ goesOn
    | some next =>
        obtain ⟨further, bounded⟩ := advances source place next comes inside step
        exact comes_end goesOn (.step comes inside step) bounded
  · rw [Nat.le_antisymm within (Nat.le_of_not_lt inside)] at comes
    exact comes
termination_by (Text.bytes source).length - place

private theorem Reaches.breaksOff {first : Char} {rest : List Char} (reaches : Reaches source here)
    (next : here.rest = first :: rest) (aborted : readPiece here first = .aborted) :
    BreaksOff source := by
  have inside := lt_length reaches.leads next
  have steps := readPiece_stepsTo reaches.leads next
  rw [aborted] at steps
  cases step : step? source here.offset with
  | none => exact ⟨_, reaches.comes, inside, step⟩
  | some place =>
      obtain ⟨_, within⟩ := steps place step
      exact ⟨place, .step reaches.comes inside step, within.lt_length, within.step?⟩

private theorem exists_aborted (reaches : Reaches source here) (broken : scan here = none) :
    ∃ there first rest, Reaches source there ∧ there.rest = first :: rest ∧
      readPiece there first = .aborted := by
  fun_induction scan here with
  | case1 => cases broken
  | case2 here first rest next aborted => exact ⟨here, first, rest, reaches, next, aborted⟩
  | case3 here first rest next piece read _ ih =>
      exact ih (reaches.step next read) (Option.map_eq_none_iff.mp broken)

theorem scan_of_breaksOff (breaks : BreaksOff source) :
    scan (Cursor.start source) = none := by
  obtain ⟨place, comes, inside, step⟩ := breaks
  rcases comes.reaches with ⟨here, reaches, rfl⟩ | ⟨broken, _⟩
  · obtain ⟨first, rest, next⟩ := reaches.exists_cons inside
    have steps := readPiece_stepsTo reaches.leads next
    cases read : readPiece here first with
    | piece piece =>
        rw [read] at steps
        cases step.symm.trans steps
    | aborted => exact reaches.scan_start (scan_of_aborted next read)
  · exact broken

theorem breaksOff_of_scan (broken : scan (Cursor.start source) = none) :
    BreaksOff source := by
  obtain ⟨here, first, rest, reaches, next, aborted⟩ := exists_aborted .start broken
  exact reaches.breaksOff next aborted

theorem meetsWideEscape_of_scan (broken : scan (Cursor.start source) = none) :
    MeetsWideEscape source := by
  obtain ⟨here, first, rest, reaches, next, aborted⟩ := exists_aborted .start broken
  obtain ⟨before, whole, offset⟩ := reaches.leads.exists_before
  have comes := reaches.comes
  rw [offset] at comes
  exact ⟨before, here.rest, whole, comes, (readPiece_aborted_iff next).mp aborted⟩

theorem breaksOff_of_meetsWideEscape (meets : MeetsWideEscape source) :
    BreaksOff source := by
  obtain ⟨before, rest, whole, comes, meets⟩ := meets
  rcases comes.reaches with ⟨here, reaches, offset⟩ | ⟨broken, _⟩
  · have left := dropBytes?_eq reaches.leads
    rw [offset, whole, Text.dropBytes?_append] at left
    cases left
    cases next : here.rest with
    | nil =>
        rw [next] at meets
        cases meets
    | cons first rest => exact reaches.breaksOff next ((readPiece_aborted_iff next).mpr meets)
  · exact breaksOff_of_scan broken

/-- Lexemes reach from one place of the scan to a later one, and faults lie in the source. -/
theorem Reaches.spans {found : Scan} (reaches : Reaches source here)
    (scanned : scan here = some found) :
    (∀ lexeme ∈ found.lexemes, ∃ left right, Reaches source left ∧ Reaches source right ∧
      left.Leads right ∧ lexeme.span = ⟨left.offset, right.offset⟩) ∧
    ∀ fault ∈ found.faults, (Cursor.start source).Spans fault.span := by
  fun_induction scan here generalizing found with
  | case1 here atEnd =>
      cases scanned
      refine ⟨?_, List.forall_mem_nil _⟩
      intro lexeme listed
      cases List.mem_singleton.mp listed
      exact ⟨here, here, reaches, reaches, .refl here, rfl⟩
  | case2 => cases scanned
  | case3 here first rest next piece read _ ih =>
      obtain ⟨inner, innerScanned, rfl⟩ := Option.map_eq_some_iff.mp scanned
      have behind := reaches.step next read
      have moves := readPiece_moves read
      obtain ⟨lexemes, faults⟩ := ih behind innerScanned
      constructor
      · intro lexeme listed
        simp only [Scan.cons] at listed
        split at listed
        · rcases List.mem_cons.mp listed with rfl | later
          · exact ⟨here, piece.after, reaches, behind,
              (Cursor.leads_advance here).trans moves.leads, rfl⟩
          · exact lexemes lexeme later
        · exact lexemes lexeme listed
      · intro fault listed
        rcases List.mem_append.mp listed with first | later
        · exact (moves.reports (Cursor.leads_advance here) fault first).behind reaches.leads
        · exact faults fault later

end Bytewise

/-! ### Boundaries of a source -/

section Boundaries

variable {source : String} {here : Cursor}

theorem utf8ByteSize_ofList (text : List Char) :
    (String.ofList text).utf8ByteSize = Text.byteSize text := by
  have encoded := Text.bytes_toList (String.ofList text)
  rw [String.toList_ofList] at encoded
  rw [← String.size_toByteArray, ← encoded, List.size_toByteArray, Text.length_bytes]

theorem utf8ByteSize_eq (source : String) :
    source.utf8ByteSize = (Text.bytes source.toList).length := by
  rw [Text.length_bytes, ← utf8ByteSize_ofList, String.ofList_toList]

/-- Both ends of the span are at character boundaries of the source. -/
structure OnBoundaries (source : String) (span : Span) : Prop where
  ordered : span.start ≤ span.finish
  start : String.Pos.Raw.IsValid source ⟨span.start⟩
  finish : String.Pos.Raw.IsValid source ⟨span.finish⟩

theorem isValid_of_leads (leads : (Cursor.start source.toList).Leads here) :
    String.Pos.Raw.IsValid source ⟨here.offset⟩ := by
  obtain ⟨before, whole, offset⟩ := leads.exists_before
  rw [String.Pos.Raw.isValid_iff_exists_append]
  refine ⟨String.ofList before, String.ofList here.rest, ?_, ?_⟩
  · rw [← String.ofList_append, ← whole, String.ofList_toList]
  · rw [offset, ← utf8ByteSize_ofList]
    rfl

theorem OnBoundaries.of_spans {span : Span}
    (spans : (Cursor.start source.toList).Spans span) :
    OnBoundaries source span := by
  obtain ⟨left, right, ahead, between, rfl⟩ := spans
  exact ⟨between.offset_le, isValid_of_leads ahead, isValid_of_leads (ahead.trans between)⟩

end Boundaries

theorem lex_aborted_iff (source : String) :
    lex source = .aborted ↔ scan (Cursor.start source.toList) = none := by
  rw [lex]
  cases scan (Cursor.start source.toList) with
  | none => exact iff_of_true rfl rfl
  | some found =>
      refine iff_of_false ?_ (Option.some_ne_none _)
      dsimp only
      split
      · intro same
        cases same
      · intro same
        cases same

end Lexer

open Lexer (OnBoundaries scan)
open Lexer.Bytewise

/-- Over the bytes of a source, each step of the lexer leads on within it. The lexer breaks off just
when it meets, in a literal, a backslash right in front of a character outside ASCII. If it does not,
it comes to the end, each place on its way is at a character boundary, and so are both ends of the span
of every token and of every fault, handed out or not. -/
theorem lex_keeps_boundaries (source : String) :
    Advances source.toList ∧
    (lex source = .aborted ↔ BreaksOff source.toList) ∧
    (BreaksOff source.toList ↔ MeetsWideEscape source.toList) ∧
    (¬ BreaksOff source.toList →
      Comes source.toList source.utf8ByteSize ∧
      ∀ place, Comes source.toList place → String.Pos.Raw.IsValid source ⟨place⟩) ∧
    ∀ found, scan (Text.Cursor.start source.toList) = some found →
      lex source = (if found.faults.isEmpty then .tokens found.lexemes else .faults found.faults) ∧
      (∀ lexeme ∈ found.lexemes, OnBoundaries source lexeme.span ∧
        Comes source.toList lexeme.span.start ∧ Comes source.toList lexeme.span.finish) ∧
      ∀ fault ∈ found.faults, OnBoundaries source fault.span := by
  have scans := Lexer.lex_aborted_iff source
  refine ⟨advances _, ?_, ?_, ?_, ?_⟩
  · rw [scans]
    exact ⟨breaksOff_of_scan, scan_of_breaksOff⟩
  · constructor
    · exact fun breaks => meetsWideEscape_of_scan (scan_of_breaksOff breaks)
    · exact breaksOff_of_meetsWideEscape
  · intro goesOn
    constructor
    · rw [Lexer.utf8ByteSize_eq]
      exact comes_end goesOn .start (Nat.zero_le _)
    · intro place comes
      rcases comes.reaches with ⟨here, reaches, rfl⟩ | ⟨broken, _⟩
      · exact Lexer.isValid_of_leads reaches.leads
      · exact absurd (breaksOff_of_scan broken) goesOn
  · intro found scanned
    obtain ⟨lexemes, faults⟩ := Reaches.start.spans scanned
    refine ⟨by rw [lex, scanned], ?_, ?_⟩
    · intro lexeme listed
      obtain ⟨left, right, atLeft, atRight, between, same⟩ := lexemes lexeme listed
      rw [same]
      exact ⟨.of_spans ⟨left, right, atLeft.leads, between, rfl⟩, atLeft.comes, atRight.comes⟩
    · exact fun fault listed => .of_spans (faults fault listed)

theorem accented_escape_breaks_off :
    BreaksOff "c = '\\é'".toList ∧ ¬ BreaksOff "\"é\\n\" // é".toList := by
  constructor
  · have broken : scan (Text.Cursor.start "c = '\\é'".toList) = none :=
      Option.isNone_iff_eq_none.mp (by decide +kernel)
    obtain ⟨_, aborts, _⟩ := lex_keeps_boundaries "c = '\\é'"
    exact aborts.mp ((Lexer.lex_aborted_iff _).mpr broken)
  · have goesOn : (scan (Text.Cursor.start "\"é\\n\" // é".toList)).isSome = true := by
      decide +kernel
    obtain ⟨_, aborts, _⟩ := lex_keeps_boundaries "\"é\\n\" // é"
    obtain ⟨found, scanned⟩ := Option.isSome_iff_exists.mp goesOn
    rw [← aborts, Lexer.lex_aborted_iff, scanned]
    exact Option.some_ne_none _

end MiniC
