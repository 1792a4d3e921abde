import MiniC.Syntax.Parser.Unit
import MiniC.Proofs.LexerCoverage

/-!
Places among the tokens of a source.

The parser takes tokens from the front of its list, so the tokens that are left say how far it has
come. Of the tokens only three things matter for spans: the last one, and no other, is the end of
the source, every other one has some text, and they stand in order.
-/

namespace MiniC.Parser

section Positions

variable (lexemes : List Lexeme)

def tokenOf (i : Nat) : Token :=
  match lexemes[i]? with
  | some lexeme => lexeme.token
  | none => .eof

def spanOf (i : Nat) : Span :=
  match lexemes[i]? with
  | some lexeme => lexeme.span
  | none => ⟨0, 0⟩

def between (i j : Nat) : Span := ⟨(spanOf lexemes i).start, (spanOf lexemes (j - 1)).finish⟩

/-- The tokens of an accepted source. -/
structure Closed : Prop where
  nonempty : 0 < lexemes.length
  /-- The last token, and no other, is the end of the source. -/
  last : ∀ i, tokenOf lexemes i = .eof ↔ lexemes.length ≤ i + 1
  filled : ∀ i, i + 1 < lexemes.length → (spanOf lexemes i).start < (spanOf lexemes i).finish
  ordered : ∀ i j, i < j → j + 1 < lexemes.length →
    (spanOf lexemes i).finish ≤ (spanOf lexemes j).start

end Positions

section Closed

variable {lexemes : List Lexeme} {i j k l : Nat}

theorem tokenOf_of_lt (inside : i < lexemes.length) : tokenOf lexemes i = lexemes[i].token := by
  rw [tokenOf, List.getElem?_eq_getElem inside]

theorem spanOf_of_lt (inside : i < lexemes.length) : spanOf lexemes i = lexemes[i].span := by
  rw [spanOf, List.getElem?_eq_getElem inside]

/-- Tokens that cover a source, with its end behind them. -/
theorem closed_of_covers {source : List Char} {left : Span} {tokens : List Lexeme} {finish : Nat}
    (covers : Covers source left tokens) : Closed (tokens ++ [⟨.eof, ⟨finish, finish⟩⟩]) := by
  have size : (tokens ++ [(⟨.eof, ⟨finish, finish⟩⟩ : Lexeme)]).length = tokens.length + 1 :=
    List.length_append
  have early (i : Nat) (inside : i < tokens.length) :
      (tokens ++ [(⟨.eof, ⟨finish, finish⟩⟩ : Lexeme)])[i]? = some tokens[i] := by
    rw [List.getElem?_append_left inside, List.getElem?_eq_getElem inside]
  constructor
  · omega
  · intro i
    rw [size]
    constructor
    · intro isEnd
      by_contra inside
      rw [tokenOf, early i (by omega)] at isEnd
      exact (covers.filled _ (List.getElem_mem _)).1 isEnd
    · intro outside
      rw [tokenOf, List.getElem?_append_right (by omega)]
      cases i - tokens.length <;> rfl
  · intro i inside
    rw [spanOf, early i (by omega)]
    exact (covers.filled _ (List.getElem_mem _)).2
  · intro i j before inside
    rw [spanOf, spanOf, early i (by omega), early j (by omega)]
    have inOrder := (List.pairwise_cons.mp covers.ordered).2
    exact List.pairwise_iff_getElem.mp (List.pairwise_map.mp inOrder) i j _ _ before

theorem closed_of_lex {source : String} (accepted : lex source = .tokens lexemes) :
    Closed lexemes := by
  unfold lex at accepted
  split at accepted
  · cases accepted
  · rename_i found scanned
    split at accepted
    · rename_i faultless
      cases accepted
      have laid := Lexer.laid_of_scan scanned (List.isEmpty_iff.mp faultless)
      have start : (⟨0, 0⟩ : Span).finish = (Text.Cursor.start source.toList).offset := rfl
      obtain ⟨tokens, same, covers⟩ := laid.covers (.refl _) start
      rw [same]
      exact closed_of_covers covers
    · cases accepted

namespace Closed

variable (closed : Closed lexemes)

include closed

theorem not_last (solid : tokenOf lexemes i ≠ .eof) : i + 1 < lexemes.length := by
  by_contra outside
  exact solid ((closed.last i).mpr (by omega))

theorem ne_eof (inside : i + 1 < lexemes.length) : tokenOf lexemes i ≠ .eof := by
  intro isEnd
  have := (closed.last i).mp isEnd
  omega

/-- A token that passes a test which the end of the source fails is not the last one. -/
theorem not_last_of_test {test : Token → Bool} (fails : test .eof = false)
    (passes : test (tokenOf lexemes i) = true) : i + 1 < lexemes.length := by
  apply closed.not_last
  intro isEnd
  rw [isEnd, fails] at passes
  cases passes

theorem not_last_of_some {α : Type} {reading : Token → Option α} {found : α}
    (fails : reading .eof = none) (reads : reading (tokenOf lexemes i) = some found) :
    i + 1 < lexemes.length := by
  apply closed.not_last
  intro isEnd
  rw [isEnd, fails] at reads
  cases reads

theorem start_le (le : i ≤ j) (inside : j + 1 < lexemes.length) :
    (spanOf lexemes i).start ≤ (spanOf lexemes j).start := by
  obtain rfl | before := Nat.eq_or_lt_of_le le
  · exact Nat.le_refl _
  · have filled := closed.filled i (by omega)
    have ordered := closed.ordered i j before inside
    omega

theorem finish_le (le : i ≤ j) (inside : j + 1 < lexemes.length) :
    (spanOf lexemes i).finish ≤ (spanOf lexemes j).finish := by
  obtain rfl | before := Nat.eq_or_lt_of_le le
  · exact Nat.le_refl _
  · have filled := closed.filled j inside
    have ordered := closed.ordered i j before inside
    omega

/-- What stretches over some tokens has some text. -/
theorem between_filled (before : i < j) (inside : j < lexemes.length) :
    (between lexemes i j).start < (between lexemes i j).finish := by
  have filled := closed.filled i (by omega)
  have further := closed.finish_le (show i ≤ j - 1 by omega) (by omega)
  exact Nat.lt_of_lt_of_le filled further

/-- The least span over two stretches, of which neither the first starts nor the second ends
inside the other. -/
theorem merge_between (left : i < j) (right : k < l) (starts : i ≤ k) (ends : j ≤ l)
    (inside : l < lexemes.length) :
    (between lexemes i j).merge (between lexemes k l) = between lexemes i l := by
  have first := closed.start_le starts (by omega)
  have second := closed.finish_le (show j - 1 ≤ l - 1 by omega) (by omega)
  simp only [Span.merge, between, Nat.min_eq_left first, Nat.max_eq_right second]

/-- The spans of the first token and of the last one give the stretch over both. -/
theorem merge_spanOf (le : i ≤ j) (inside : j + 1 < lexemes.length) :
    (spanOf lexemes i).merge (spanOf lexemes j) = between lexemes i (j + 1) := by
  exact closed.merge_between (Nat.lt_succ_self i) (Nat.lt_succ_self j) le (by omega) inside

theorem merge_previous (before : i < j) (inside : j < lexemes.length) :
    (spanOf lexemes i).merge (spanOf lexemes (j - 1)) = between lexemes i j := by
  obtain ⟨last, rfl⟩ : ∃ last, j = last + 1 := ⟨j - 1, by omega⟩
  exact closed.merge_spanOf (Nat.le_of_lt_succ before) inside

end Closed

end Closed

/-! ### Where the parser stands -/

structure At (lexemes : List Lexeme) (i : Nat) (state : State) : Prop where
  inside : i < lexemes.length
  rest : state.rest = lexemes.drop i
  previous : 0 < i → state.previous = spanOf lexemes (i - 1)

namespace At

variable {lexemes : List Lexeme} {i : Nat} {state : State}

theorem initial (nonempty : 0 < lexemes.length) : At lexemes 0 (.initial lexemes) :=
  ⟨nonempty, rfl, fun before => absurd before (Nat.lt_irrefl 0)⟩

theorem tokenAt (stands : At lexemes i state) (distance : Nat) :
    state.tokenAt distance = tokenOf lexemes (i + distance) := by
  rw [State.tokenAt, stands.rest, List.getElem?_drop]
  rfl

theorem token (stands : At lexemes i state) : state.token = tokenOf lexemes i :=
  stands.tokenAt 0

theorem rest_eq_cons (stands : At lexemes i state) (inside : i < lexemes.length) :
    state.rest = lexemes[i] :: lexemes.drop (i + 1) := by
  rw [stands.rest, List.drop_eq_getElem_cons inside]

theorem span (stands : At lexemes i state) : state.span = spanOf lexemes i := by
  rw [State.span, stands.rest_eq_cons stands.inside, spanOf_of_lt stands.inside]

/-- Past a token that is not the last one. -/
theorem advance (stands : At lexemes i state) (more : i + 1 < lexemes.length) :
    At lexemes (i + 1) state.advance := by
  have split := stands.rest_eq_cons stands.inside
  rw [List.drop_eq_getElem_cons more] at split
  constructor
  · exact more
  · rw [State.advance, split, List.drop_eq_getElem_cons more]
  · intro _
    rw [State.advance, split, Nat.add_sub_cancel, spanOf_of_lt stands.inside]

theorem addTypeName (stands : At lexemes i state) (name : String) :
    At lexemes i { state with typeNames := name :: state.typeNames } :=
  ⟨stands.inside, stands.rest, stands.previous⟩

theorem advance_last (stands : At lexemes i state) (last : lexemes.length ≤ i + 1) :
    state.advance = state := by
  have split := stands.rest_eq_cons stands.inside
  rw [List.drop_of_length_le last] at split
  rw [State.advance, split]

private theorem skipWhile_last (test : Token → Bool) (stands : At lexemes i state)
    (last : lexemes.length ≤ i + 1) : state.skipWhile test = state := by
  have split := stands.rest_eq_cons stands.inside
  rw [List.drop_of_length_le last] at split
  rw [State.skipWhile, split]
  simp only [skipTokens]
  rw [← split]

private theorem skipWhile_stop {test : Token → Bool} (stands : At lexemes i state)
    (fails : test (tokenOf lexemes i) = false) : state.skipWhile test = state := by
  by_cases more : i + 1 < lexemes.length
  · have split := stands.rest_eq_cons stands.inside
    rw [List.drop_eq_getElem_cons more] at split
    rw [tokenOf_of_lt stands.inside] at fails
    rw [State.skipWhile, split]
    simp only [skipTokens, fails, Bool.false_eq_true, if_false]
    rw [← split]
  · exact stands.skipWhile_last test (by omega)

theorem skipWhile_step {test : Token → Bool} (stands : At lexemes i state)
    (passes : test (tokenOf lexemes i) = true) (more : i + 1 < lexemes.length) :
    state.skipWhile test = state.advance.skipWhile test := by
  have split := stands.rest_eq_cons stands.inside
  rw [List.drop_eq_getElem_cons more] at split
  rw [tokenOf_of_lt stands.inside] at passes
  simp only [State.skipWhile, State.advance, split, skipTokens, passes, if_true]

/-- Skipping takes a token that passes the test and stops at one that does not, or at the last. -/
theorem skipWhile (test : Token → Bool) {i : Nat} {state : State} (stands : At lexemes i state) :
    ∃ j, i ≤ j ∧ At lexemes j (state.skipWhile test) ∧
      (test (tokenOf lexemes i) = true → i + 1 < lexemes.length → i < j) ∧
      (j + 1 < lexemes.length → test (tokenOf lexemes j) = false) := by
  by_cases more : i + 1 < lexemes.length
  · cases passes : test (tokenOf lexemes i) with
    | true =>
        obtain ⟨j, le, there, -, stops⟩ := skipWhile test (stands.advance more)
        rw [stands.skipWhile_step passes more]
        exact ⟨j, by omega, there, fun _ _ => le, stops⟩
    | false =>
        rw [stands.skipWhile_stop passes]
        exact ⟨i, Nat.le_refl i, stands, fun impossible => Bool.noConfusion impossible,
          fun _ => passes⟩
  · rw [stands.skipWhile_last test (by omega)]
    exact ⟨i, Nat.le_refl i, stands, fun _ further => absurd further more,
      fun further => absurd further more⟩
termination_by lexemes.length - i

end At

end MiniC.Parser
