import MiniC.Proofs.Syntax.Loops

/-!
How far the parsers of declaration specifiers go.
-/

namespace MiniC.Parser

variable {lexemes : List Lexeme} {enough : Prop} {i : Nat}

/-- What has type words in front begins with a token of a specifier. -/
theorem isSpecifierWord_of_leadingWords {lexeme : Lexeme} {rest : List Lexeme}
    (nonempty : leadingWords (lexeme :: rest) ≠ []) : isSpecifierWord lexeme.token = true := by
  rw [leadingWords] at nonempty
  unfold isSpecifierWord
  split at nonempty
  · rfl
  · rfl
  · exact absurd rfl nonempty

private theorem parseWords_proceeds (closed : Closed lexemes) (start : Span) :
    Proceeds lexemes enough (parseWords start) (parseWords start) i fun j _ => i < j := by
  rw [parseWords]
  apply Proceeds.get_bind
  intro state stands
  dsimp only
  apply Proceeds.skipWhile_bind
  intro j _ _ takes
  cases words : leadingWords state.rest with
  | nil =>
      apply Proceeds.token_bind
      exact fun _ _ => .fail _ _
  | cons word others =>
      have passes : isSpecifierWord (tokenOf lexemes i) = true := by
        have nonempty : leadingWords state.rest ≠ [] := by
          rw [words]
          exact List.cons_ne_nil word others
        rw [stands.rest_eq_cons stands.inside] at nonempty
        rw [tokenOf_of_lt stands.inside]
        exact isSpecifierWord_of_leadingWords nonempty
      have moved : i < j := takes passes (closed.not_last_of_test rfl passes)
      split
      · apply Proceeds.previous_bind (by omega)
        exact .fail _ _
      · split
        · exact .pure moved
        · apply Proceeds.token_bind
          exact fun _ _ => .fail _ _

theorem eatBrackets_proceeds (closed : Closed lexemes) :
    Proceeds lexemes enough eatBrackets eatBrackets i fun _ _ => True := by
  rw [eatBrackets]
  apply Proceeds.eat_bind closed rfl
  · intro _ _
    simp only [if_true]
    apply (Proceeds.skipBrackets closed).bind
    intro j _ _ _ _
    exact .pure trivial
  · intro _
    exact .pure trivial

theorem memberNames_round (closed : Closed lexemes) (spec : Specifier) (start : Span)
    (fuel more i : Nat) :
    Proceeds lexemes enough ((Loop.memberNames spec start).round fuel ())
      ((Loop.memberNames spec start).round more ()) i (Turn.Fits (fun _ _ _ _ => True) i ()) := by
  apply separated_proceeds closed
  apply Proceeds.expectIdent_bind closed
  intro name _ _
  apply (eatBrackets_proceeds closed).bind
  intro j isArray _ _ _
  exact .pure ⟨trivial, fun _ _ _ => trivial⟩

private theorem memberNames_parses (closed : Closed lexemes) (spec : Specifier) (start : Span)
    (fuel i : Nat) :
    Parses lexemes (parseMemberNames spec start) 0 i fuel fun _ _ => True := by
  induction fuel generalizing i with
  | zero => exact .zero ((Loop.memberNames spec start).spent ())
  | succ fuel ih =>
      exact Loop.parses_succ (fun more _ => memberNames_round closed spec start fuel more i)
        fun j _ => ih j

/-! ### Structs -/

def parseTag : Parser (Option String) := do
  match ← token with
  | .ident name =>
      advance
      addTypeName name
      return some name
  | _ => return none

theorem parseStruct_succ (fuel : Nat) :
    parseStruct (fuel + 1) = (do
      let start ← expect (isKeyword .structWord) "'struct'"
      let tag? ← parseTag
      if ← eat (isPunct .lbrace) then
        let members ← parseMembers fuel
        let finish ← expectPunct .rbrace "'\x7d'"
        return .struct tag? members (start.merge finish)
      else
        match tag? with
        | some tag => return .named tag
        | none => fail "Expected struct tag or member list" (← here)) := by
  rw [parseStruct, parseTag]
  refine bind_congr fun start => ?_
  rw [bind_assoc]
  refine bind_congr fun found => ?_
  split
  · simp only [bind_assoc, pure_bind]
  · simp only [pure_bind]

private theorem parseTag_proceeds (closed : Closed lexemes) :
    Proceeds lexemes enough parseTag parseTag i fun _ _ => True := by
  rw [parseTag]
  apply Proceeds.token_bind
  intro found same
  split
  · rename_i name
    have solid : tokenOf lexemes i ≠ .eof := by
      rw [same]
      exact Token.noConfusion
    apply Proceeds.advance_bind (closed.not_last solid)
    apply Proceeds.addTypeName_bind
    exact .pure trivial
  · exact .pure trivial

structure SpecifiersParse (lexemes : List Lexeme) (fuel : Nat) : Prop where
  specifier : ∀ i, Parses lexemes parseSpecifier 1 i fuel fun j _ => i < j
  struct : ∀ i, Parses lexemes parseStruct 0 i fuel fun j _ => i < j
  members : ∀ i, Parses lexemes parseMembers 2 i fuel fun _ _ => True

section Steps

variable {fuel : Nat} (closed : Closed lexemes) (parse : SpecifiersParse lexemes fuel)

include closed parse

private theorem parseSpecifier_step (i : Nat) :
    Parses lexemes parseSpecifier 1 i (fuel + 1) fun j _ => i < j := by
  apply Parses.succ
  intro more le
  rw [parseSpecifier, parseSpecifier]
  apply Proceeds.skipWhile_bind
  intro j start _ _
  apply Proceeds.here_bind
  apply Proceeds.token_bind
  intro found same
  split
  · apply ((parse.struct j).call le (by omega)).bind
    intro k spec _ _ taken
    apply Proceeds.skipWhile_bind
    intro l _ _ _
    exact .pure (by omega)
  · rename_i name
    apply Proceeds.isTypeName_bind
    intro known
    split
    · have solid : tokenOf lexemes j ≠ .eof := by
        rw [same]
        exact Token.noConfusion
      apply Proceeds.advance_bind (closed.not_last solid)
      apply Proceeds.skipWhile_bind
      intro k _ _ _
      exact .pure (by omega)
    · apply (parseWords_proceeds closed _).imp
      intro k _ _ _ taken
      omega
  · apply (parseWords_proceeds closed _).imp
    intro k _ _ _ taken
    omega

private theorem parseStruct_step (i : Nat) :
    Parses lexemes parseStruct 0 i (fuel + 1) fun j _ => i < j := by
  apply Parses.succ
  intro more le
  rw [parseStruct_succ, parseStruct_succ]
  apply Proceeds.expect_bind closed rfl
  intro _ _
  apply (parseTag_proceeds closed).bind
  intro j tag? _ _ _
  apply Proceeds.eat_bind closed rfl
  · intro _ _
    simp only [if_true]
    apply ((parse.members (j + 1)).call le (by omega)).bind
    intro k members _ _ _
    apply Proceeds.expect_bind closed rfl
    intro _ _
    exact .pure (by omega)
  · intro _
    simp only [Bool.false_eq_true, if_false]
    split
    · exact .pure (by omega)
    · apply Proceeds.here_bind
      exact .fail _ _

theorem members_round {more : Nat} (le : fuel ≤ more) (i : Nat) :
    Proceeds lexemes (32 * (lexemes.length - i) + 2 ≤ fuel + 1) (Loop.members.round fuel ())
      (Loop.members.round more ()) i (Turn.Fits (fun _ _ _ _ => True) i ()) := by
  rw [Loop.members]
  apply Proceeds.token_bind
  intro next _
  split
  · exact .pure trivial
  · apply Proceeds.here_bind
    apply ((parse.specifier i).call le (by omega)).bind
    intro j spec _ _ taken
    apply ((memberNames_parses closed spec _ fuel j).call le (by omega)).bind
    intro k names _ _ _
    apply Proceeds.expect_bind closed rfl
    intro _ _
    exact .pure ⟨by omega, fun _ _ _ => trivial⟩

end Steps

theorem specifiersParse (closed : Closed lexemes) (fuel : Nat) : SpecifiersParse lexemes fuel := by
  induction fuel with
  | zero =>
      constructor
      · exact fun i => .zero (by rw [parseSpecifier])
      · exact fun i => .zero (by rw [parseStruct])
      · exact fun i => .zero (by rw [parseMembers])
  | succ fuel parse =>
      constructor
      · exact parseSpecifier_step closed parse
      · exact parseStruct_step closed parse
      · intro i
        exact Loop.parses_succ (fun more le => members_round closed parse le i)
          fun j _ => parse.members j

theorem parseSpecifiers_parses (closed : Closed lexemes) (fuel i : Nat) :
    Parses lexemes parseSpecifiers 1 i fuel fun j _ => i < j := by
  intro more le
  rw [parseSpecifiers, parseSpecifiers]
  apply Proceeds.skipWhile_bind
  intro j _ _ _
  apply Proceeds.eat_bind closed rfl
  · intro _ _
    apply Proceeds.skipWhile_bind
    intro k _ _ _
    apply (((specifiersParse closed fuel).specifier k).call le (by omega)).bind
    intro l spec _ _ taken
    exact .pure (by omega)
  · intro _
    apply Proceeds.skipWhile_bind
    intro k _ _ _
    apply (((specifiersParse closed fuel).specifier k).call le (by omega)).bind
    intro l spec _ _ taken
    exact .pure (by omega)

end MiniC.Parser
