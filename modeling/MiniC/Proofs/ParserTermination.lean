import MiniC.Proofs.Syntax.Items

/-!
The parser comes to an end on every list of tokens that the lexer gives.

Its fuel and the bound on the rounds over the items never decide anything: the loop
over the items has a run of its own, and every amount from some on gives the outcome
of that run. In every loop a round that goes on takes a token.
-/

namespace MiniC.Parser

/-- The tests of the tokens that the parser skips in a row: qualifiers, the words of a type, string
literals, what stands between brackets, and what recovery passes over. -/
def skippedTests : List (Token → Bool) :=
  [isKeyword .qualifier, isSpecifierWord, isString,
    fun found => !isPunct .rbracket found && !isEof found,
    fun found => !isPunct .semi found && !isPunct .rbrace found && !isEof found]

/-- Skipping takes the tokens that pass the test one by one and stops at the first that does not. -/
structure Skips (lexemes : List Lexeme) (test : Token → Bool) : Prop where
  takes : ∀ i state, At lexemes i state → test state.token = true →
    Takes state state.advance ∧ state.skipWhile test = state.advance.skipWhile test
  stops : ∀ i state, At lexemes i state → test (state.skipWhile test).token = false

private theorem skips {lexemes : List Lexeme} (closed : Closed lexemes) {test : Token → Bool}
    (fails : test .eof = false) : Skips lexemes test := by
  constructor
  · intro i state stands passes
    rw [stands.token] at passes
    have more := closed.not_last_of_test fails passes
    exact ⟨stands.takes (stands.advance more) (Nat.lt_succ_self i),
      stands.skipWhile_step passes more⟩
  · intro i state stands
    obtain ⟨j, -, there, -, stops⟩ := stands.skipWhile test
    rw [there.token]
    by_cases more : j + 1 < lexemes.length
    · exact stops more
    · rw [(closed.last j).mpr (by omega), fails]

/-- In every loop inside an item a round that goes on takes a token. -/
structure LoopsAdvance (lexemes : List Lexeme) : Prop where
  skipping : ∀ test ∈ skippedTests, Skips lexemes test
  memberNames : ∀ spec start, (Loop.memberNames spec start).Advances lexemes
  members : Loop.members.Advances lexemes
  commas : Loop.commas.Advances lexemes
  operands : ∀ level tighter, level :: tighter <:+ operatorLevels →
    (Loop.operands level tighter).Advances lexemes
  postfixes : Loop.postfixes.Advances lexemes
  moreArgs : Loop.moreArgs.Advances lexemes
  declarators : ∀ isTypedef, (Loop.declarators isTypedef).Advances lexemes
  statements : Loop.statements.Advances lexemes
  params : Loop.params.Advances lexemes

private theorem loopsAdvance {lexemes : List Lexeme} (closed : Closed lexemes) :
    LoopsAdvance lexemes := by
  have same (fuel : Nat) : fuel ≤ fuel := Nat.le_refl fuel
  constructor
  · intro test listed
    apply skips closed
    simp only [skippedTests, List.mem_cons, List.not_mem_nil, or_false] at listed
    rcases listed with rfl | rfl | rfl | rfl | rfl
    all_goals rfl
  · intro spec start
    exact Loop.advances_of_round fun fuel _ i =>
      ⟨True, memberNames_round closed spec start fuel fuel i⟩
  · exact Loop.advances_of_round fun fuel _ i =>
      ⟨_, members_round closed (specifiersParse closed fuel) (same fuel) i⟩
  · exact Loop.advances_of_round fun fuel left i =>
      ⟨_, commas_round closed (exprsParse closed fuel) (same fuel) i left⟩
  · intro level tighter suffix
    have few : tighter.length < 10 := suffix.length_le
    exact Loop.advances_of_round fun fuel left i =>
      ⟨_, operands_round closed (exprsParse closed fuel) (same fuel) i level tighter few left⟩
  · exact Loop.advances_of_round fun fuel left i =>
      ⟨_, postfixes_round closed (exprsParse closed fuel) (same fuel) i left⟩
  · exact Loop.advances_of_round fun fuel _ i =>
      ⟨_, moreArgs_round closed (exprsParse closed fuel) (same fuel) i⟩
  · intro isTypedef
    exact Loop.advances_of_round fun fuel _ i =>
      ⟨_, declarators_round closed isTypedef (same fuel) i⟩
  · exact Loop.advances_of_round fun fuel _ i =>
      ⟨_, statements_round (stmtsParse closed fuel) (same fuel) i⟩
  · exact Loop.advances_of_round fun fuel _ i => ⟨_, params_round closed (same fuel) i⟩

/-- Parsing of the tokens comes to an end with the outcome. -/
structure Terminates (lexemes : List Lexeme) (outcome : Outcome) : Prop where
  /-- Each round over the items takes a token, the ones that recover from a fault included. -/
  finishes : Finishes (sufficientFuel lexemes) (.initial lexemes) outcome
  /-- No larger amount of fuel, and no larger bound on the rounds, changes anything. -/
  settled : ∀ fuel rounds, sufficientFuel lexemes ≤ fuel → lexemes.length ≤ rounds →
    parseItems fuel rounds (.initial lexemes) = outcome
  result : parse lexemes =
    if outcome.faults.isEmpty then .ok outcome.items else .error outcome.faults
  loops : LoopsAdvance lexemes
  fewFaults : outcome.faults.length ≤ lexemes.length

/-- The parser comes to an end on the tokens of every source that the lexer accepts. In each of its
loops a round that goes on takes at least one token, and it reports at most as many faults as there
are tokens. -/
theorem parse_terminates {source : String} {lexemes : List Lexeme}
    (accepted : lex source = .tokens lexemes) : ∃ outcome, Terminates lexemes outcome := by
  have closed := closed_of_lex accepted
  have stands : At lexemes 0 (.initial lexemes) := .initial closed.nonempty
  have finishes (fuel rounds : Nat) (enough : sufficientFuel lexemes ≤ fuel)
      (many : lexemes.length ≤ rounds) :
      Finishes fuel (.initial lexemes) (parseItems fuel rounds (.initial lexemes)) := by
    rw [sufficientFuel] at enough
    exact parseItems_finishes closed rounds stands (by omega) (by omega)
  have own := finishes (sufficientFuel lexemes) (lexemes.length + 1) (Nat.le_refl _)
    (Nat.le_succ _)
  refine ⟨_, own, ?_, rfl, loopsAdvance closed, own.length_faults_le⟩
  intro fuel rounds enough many
  exact (finishes fuel rounds enough many).unique own

def faultsOf (source : String) : List Diagnostic :=
  match lex source with
  | .tokens lexemes =>
      match parse lexemes with
      | .ok _ => []
      | .error faults => faults
  | _ => []

private theorem Terminates.faultsOf_eq {source : String} {lexemes : List Lexeme} {outcome : Outcome}
    (terminates : Terminates lexemes outcome) (accepted : lex source = .tokens lexemes) :
    faultsOf source = outcome.faults := by
  rw [faultsOf, accepted]
  dsimp only
  rw [terminates.result]
  cases faults : outcome.faults with
  | nil => rfl
  | cons first others => rfl

/-- Recovery from the first fault stops at its semicolon, from the second one at the end. -/
theorem terminates_with_two_faults : ∃ lexemes outcome,
    lex "int a = ; struct \x7b int b ] int c" = .tokens lexemes ∧
      Terminates lexemes outcome ∧ outcome.faults.length = 2 := by
  have two : (faultsOf "int a = ; struct \x7b int b ] int c").length = 2 := by
    decide +kernel
  cases accepted : lex "int a = ; struct \x7b int b ] int c" with
  | tokens lexemes =>
      obtain ⟨outcome, terminates⟩ := parse_terminates accepted
      rw [terminates.faultsOf_eq accepted] at two
      exact ⟨lexemes, outcome, rfl, terminates, two⟩
  | faults diagnostics =>
      rw [faultsOf, accepted] at two
      cases two
  | aborted =>
      rw [faultsOf, accepted] at two
      cases two

end MiniC.Parser
