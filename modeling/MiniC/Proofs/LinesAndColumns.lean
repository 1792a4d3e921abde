import Mathlib.Data.List.DropRight
import Mathlib.Data.Prod.Lex
import MiniC.Proofs.LexerBoundaries

/-!
Lines and columns.

A byte offset is named by a line and a column. The walk to it moves the position one step at each
character before the offset: the line counts the line feeds there, and the column the characters
behind the last of them. A step always leads to a later position, so no two character boundaries of
a source share a name.
-/

namespace MiniC.Text

namespace Position

def next (here : Position) (char : Char) : Position :=
  if char = '\n' then ⟨here.line + 1, 1⟩ else ⟨here.line, here.column + 1⟩

def behind (before : List Char) : Position :=
  ⟨1 + before.count '\n', 1 + (before.rtakeWhile (· ≠ '\n')).length⟩

def key (here : Position) : Nat ×ₗ Nat := toLex (here.line, here.column)

variable {here : Position} {char : Char} {text rest : List Char} {budget : Nat}

theorem advance_cons (inside : budget ≠ 0) :
    here.advance budget (char :: rest) =
      (here.next char).advance (budget - char.utf8Size) rest := by
  rw [advance, if_neg inside, next]
  split <;> rfl

/-- The walk to the end of a first part takes a step at each of its characters. -/
theorem advance_append (here : Position) (before rest : List Char) :
    here.advance (byteSize before) (before ++ rest) = before.foldl next here := by
  induction before generalizing here with
  | nil =>
      cases rest with
      | nil => rfl
      | cons char rest => exact if_pos rfl
  | cons char before ih =>
      have inside : byteSize (char :: before) ≠ 0 := by
        have positive := char.utf8Size_pos
        rw [byteSize]
        omega
      have left : byteSize (char :: before) - char.utf8Size = byteSize before :=
        Nat.add_sub_cancel_left _ _
      rw [List.cons_append, advance_cons inside, left, ih, List.foldl_cons]

theorem advance_past (past : byteSize text ≤ budget) :
    here.advance budget text = text.foldl next here := by
  induction text generalizing here budget with
  | nil => rfl
  | cons char rest ih =>
      have positive := char.utf8Size_pos
      rw [byteSize] at past
      have inside : budget ≠ 0 := by omega
      have further : byteSize rest ≤ budget - char.utf8Size := by omega
      rw [advance_cons inside, ih further, List.foldl_cons]

private theorem behind_concat (before : List Char) (char : Char) :
    behind (before ++ [char]) = (behind before).next char := by
  unfold next
  split
  · next feed =>
      rw [behind, feed, List.count_append, List.count_singleton_self,
        List.rtakeWhile_concat_neg _ _ _ (by decide)]
      rfl
  · next plain =>
      have passes : decide (char ≠ '\n') = true := decide_eq_true plain
      rw [behind, List.count_append, List.count_singleton, if_neg (mt beq_iff_eq.mp plain),
        List.rtakeWhile_concat_pos (fun char => decide (char ≠ '\n')) before char passes,
        List.length_append]
      rfl

/-- From the start, the steps lead to the position behind the text. -/
theorem foldl_next_eq_behind (before : List Char) : before.foldl next ⟨1, 1⟩ = behind before := by
  induction before using List.reverseRecOn with
  | nil => rfl
  | append_singleton before char ih =>
      rw [List.foldl_append, ih, behind_concat, List.foldl_cons, List.foldl_nil]

private theorem key_lt_key_next (here : Position) (char : Char) :
    here.key < (here.next char).key := by
  rw [key, key, Prod.Lex.toLex_lt_toLex, next]
  split
  · exact .inl (Nat.lt_succ_self here.line)
  · exact .inr ⟨rfl, Nat.lt_succ_self here.column⟩

private theorem key_le_key_foldl (here : Position) (text : List Char) :
    here.key ≤ (text.foldl next here).key := by
  induction text generalizing here with
  | nil => exact le_refl _
  | cons char rest ih => exact (key_lt_key_next here char).le.trans (ih (here.next char))

/-- A walk over at least one character leads to a later position. -/
theorem key_lt_key_foldl (some : text ≠ []) : here.key < (text.foldl next here).key := by
  cases text with
  | nil => exact absurd rfl some
  | cons char rest =>
      exact (key_lt_key_next here char).trans_le (key_le_key_foldl (here.next char) rest)

end Position

/-! ### Boundaries -/

variable {source : String} {offset first second : Nat}

private theorem byteSize_toList (source : String) :
    byteSize source.toList = source.utf8ByteSize := by
  rw [← Lexer.utf8ByteSize_ofList, String.ofList_toList]

/-- A boundary cuts the source in two. -/
theorem exists_before (valid : String.Pos.Raw.IsValid source ⟨offset⟩) :
    ∃ before after, source = before ++ after ∧ before.utf8ByteSize = offset := by
  obtain ⟨before, after, whole, size⟩ := String.Pos.Raw.isValid_iff_exists_append.mp valid
  exact ⟨before, after, whole, (congrArg String.Pos.Raw.byteIdx size).symm⟩

theorem positionAt_append (before after : String) :
    positionAt (before ++ after).toList before.utf8ByteSize = .behind before.toList := by
  rw [String.toList_append, ← byteSize_toList, positionAt, Position.advance_append,
    Position.foldl_next_eq_behind]

/-- What stands before a boundary begins what stands before a later one. -/
theorem exists_between {before after longer shorter : String}
    (same : before ++ after = longer ++ shorter)
    (less : before.utf8ByteSize < longer.utf8ByteSize) :
    ∃ between, between ≠ [] ∧ longer.toList = before.toList ++ between := by
  have chars := congrArg String.toList same
  rw [String.toList_append, String.toList_append, List.append_eq_append_iff] at chars
  rw [← byteSize_toList, ← byteSize_toList] at less
  rcases chars with ⟨between, longerEq, _⟩ | ⟨between, beforeEq, _⟩
  · refine ⟨between, ?_, longerEq⟩
    rintro rfl
    rw [longerEq, List.append_nil] at less
    exact absurd less (Nat.lt_irrefl _)
  · rw [beforeEq, byteSize_append] at less
    omega

/-- A later boundary has a later position. -/
theorem strictMono_positionAt (source : String) :
    StrictMono fun place : {offset // String.Pos.Raw.IsValid source ⟨offset⟩} =>
      (positionAt source.toList place).key := by
  rintro ⟨first, validFirst⟩ ⟨second, validSecond⟩ less
  obtain ⟨before, after, rfl, rfl⟩ := exists_before validFirst
  obtain ⟨longer, shorter, same, rfl⟩ := exists_before validSecond
  obtain ⟨between, some, longerEq⟩ := exists_between same less
  -- The walk to the second goes on from where the walk to the first ends.
  dsimp only
  rw [positionAt_append, same, positionAt_append, longerEq, ← Position.foldl_next_eq_behind,
    ← Position.foldl_next_eq_behind, List.foldl_append]
  exact Position.key_lt_key_foldl some

/-- Line and column name a character boundary: the line is one more than the line feeds before it,
and the column one more than the characters behind the last of them. They grow with the boundary, so
that each has a name of its own. Every offset past the end has the name of the end. -/
theorem position_names_boundary (source : String) :
    (∀ offset, String.Pos.Raw.IsValid source ⟨offset⟩ →
      ∃ before after, source = before ++ after ∧ before.utf8ByteSize = offset ∧
        positionAt source.toList offset =
          ⟨1 + before.toList.count '\n', 1 + (before.toList.rtakeWhile (· ≠ '\n')).length⟩) ∧
    (∀ first second, String.Pos.Raw.IsValid source ⟨first⟩ →
      String.Pos.Raw.IsValid source ⟨second⟩ →
      ((positionAt source.toList first).key < (positionAt source.toList second).key ↔
        first < second) ∧
      (positionAt source.toList first = positionAt source.toList second ↔ first = second)) ∧
    ∀ offset, source.utf8ByteSize ≤ offset →
      positionAt source.toList offset = positionAt source.toList source.utf8ByteSize := by
  refine ⟨?_, ?_, ?_⟩
  · intro offset valid
    obtain ⟨before, after, rfl, rfl⟩ := exists_before valid
    exact ⟨before, after, rfl, rfl, positionAt_append before after⟩
  · intro first second validFirst validSecond
    have grows := strictMono_positionAt source
    refine ⟨grows.lt_iff_lt (a := ⟨first, validFirst⟩) (b := ⟨second, validSecond⟩), ?_⟩
    constructor
    · intro same
      have places : Subtype.mk first validFirst = ⟨second, validSecond⟩ :=
        grows.injective (congrArg Position.key same)
      exact congrArg Subtype.val places
    · exact fun same => same ▸ rfl
  · intro offset past
    rw [positionAt, positionAt, Position.advance_past (by rwa [byteSize_toList]),
      Position.advance_past (byteSize_toList source).le]

/-- A line feed behind a character of two bytes, an empty line, and a character of three bytes at
the end. -/
theorem last_line_of_wide_text :
    String.Pos.Raw.IsValid "é\n\nx€" ⟨3⟩ ∧ String.Pos.Raw.IsValid "é\n\nx€" ⟨8⟩ ∧
    positionAt "é\n\nx€".toList 3 = ⟨2, 1⟩ ∧ positionAt "é\n\nx€".toList 8 = ⟨3, 3⟩ ∧
    (positionAt "é\n\nx€".toList 3).key < (positionAt "é\n\nx€".toList 8).key ∧
    positionAt "é\n\nx€".toList 100 = ⟨3, 3⟩ := by
  have inside : String.Pos.Raw.IsValid "é\n\nx€" ⟨3⟩ :=
    String.Pos.Raw.isValid_iff_exists_append.mpr ⟨"é\n", "\nx€", by decide, by decide⟩
  have atEnd : String.Pos.Raw.IsValid "é\n\nx€" ⟨8⟩ :=
    String.Pos.Raw.isValid_iff_exists_append.mpr ⟨"é\n\nx€", "", by decide, by decide⟩
  obtain ⟨_, later, past⟩ := position_names_boundary "é\n\nx€"
  refine ⟨inside, atEnd, by decide, by decide, ?_, ?_⟩
  · exact (later 3 8 inside atEnd).1.mpr (by decide)
  · rw [past 100 (by decide)]
    decide

end MiniC.Text
