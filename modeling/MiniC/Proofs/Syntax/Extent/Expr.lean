import MiniC.Proofs.Syntax.Outline
import MiniC.Proofs.Syntax.Extent.Specifier

/-!
How far the parsers of expressions go, and what their spans stretch over.

The parsers are mutual, so all of them are treated at once, by induction on the fuel. Those that
follow a loop are given an expression to go on with, which may have begun anywhere before them.
-/

namespace MiniC.Parser

variable {lexemes : List Lexeme}

abbrev Stretches (lexemes : List Lexeme) (i j : Nat) (expr : Expr) : Prop :=
  Fills lexemes i j expr.outline

/-- From position `i` on, what is read before becomes part of an expression up to `j`. -/
def Extends (lexemes : List Lexeme) (i : Nat) (left : Expr) (j : Nat) (whole : Expr) : Prop :=
  ∀ h, Stretches lexemes h i left → Stretches lexemes h j whole

theorem Extends.refl (i : Nat) (expr : Expr) : Extends lexemes i expr i expr :=
  fun _ covers => covers

theorem Extends.trans {i j k : Nat} {left middle whole : Expr}
    (first : Extends lexemes i left j middle) (second : Extends lexemes j middle k whole) :
    Extends lexemes i left k whole :=
  fun h covers => second h (first h covers)

def parseArgList (fuel : Nat) : Parser (List Expr) := do
  if isPunct .rparen (← token) then return []
  else
    let first ← parseAssignment fuel
    let more ← parseMoreArgs fuel
    return first :: more

theorem parseArgs_succ (fuel : Nat) :
    parseArgs (fuel + 1) = (do
      let args ← parseArgList fuel
      let _ ← expectPunct .rparen "')' after arguments"
      return args) := by
  rw [parseArgs, parseArgList, bind_assoc]
  refine bind_congr fun next => ?_
  split
  · simp only [pure_bind]
  · simp only [bind_assoc, pure_bind]

/-- With this fuel the parsers of expressions read what their spans stretch over. The rank of a
parser is above those of the parsers that it calls before it has taken a token. -/
structure ExprsParse (lexemes : List Lexeme) (fuel : Nat) : Prop where
  expr : ∀ i, Parses lexemes parseExpr 15 i fuel (Stretches lexemes i)
  commas : ∀ i left, Parses lexemes (parseCommas · left) 0 i fuel (Extends lexemes i left)
  assignment : ∀ i, Parses lexemes parseAssignment 14 i fuel (Stretches lexemes i)
  conditional : ∀ i, Parses lexemes parseConditional 13 i fuel (Stretches lexemes i)
  binary : ∀ i levels, levels.length ≤ 10 →
    Parses lexemes (parseBinary · levels) (2 + levels.length) i fuel (Stretches lexemes i)
  operands : ∀ i level tighter left, tighter.length < 10 →
    Parses lexemes (parseOperands · level tighter left) 0 i fuel (Extends lexemes i left)
  unary : ∀ i, Parses lexemes parseUnary 1 i fuel (Stretches lexemes i)
  postfixes : ∀ i left, Parses lexemes (parsePostfixes · left) 0 i fuel (Extends lexemes i left)
  args : ∀ i, Parses lexemes parseArgs 15 i fuel fun j args =>
    i < j ∧ InRow lexemes Expr.outlines i () j args
  moreArgs : ∀ i, Parses lexemes parseMoreArgs 0 i fuel (InRow lexemes Expr.outlines i ())
  primary : ∀ i, Parses lexemes parsePrimary 0 i fuel (Stretches lexemes i)

section Steps

variable {fuel more : Nat} (closed : Closed lexemes) (parse : ExprsParse lexemes fuel)

include closed parse

/-! ### Rounds of the loops -/

theorem commas_round (le : fuel ≤ more) (i : Nat) (left : Expr) :
    Proceeds lexemes (32 * (lexemes.length - i) + 0 ≤ fuel + 1) (Loop.commas.round fuel left)
      (Loop.commas.round more left) i (Turn.Fits (Extends lexemes) i left) := by
  rw [Loop.commas]
  apply Proceeds.eat_bind closed rfl
  · intro _ _
    apply ((parse.assignment (i + 1)).call le (by omega)).bind
    intro j right _ _ covers
    apply Proceeds.pure
    refine ⟨by omega, fun k whole grows => Extends.trans ?_ grows⟩
    exact fun h before => before.pair closed (Nat.le_succ i) covers
  · intro _
    exact .pure (.refl i left)

theorem operands_round (le : fuel ≤ more) (i : Nat) (level : List (Punct × BinaryOp))
    (tighter : List (List (Punct × BinaryOp))) (few : tighter.length < 10) (left : Expr) :
    Proceeds lexemes (32 * (lexemes.length - i) + 0 ≤ fuel + 1)
      ((Loop.operands level tighter).round fuel left)
      ((Loop.operands level tighter).round more left) i (Turn.Fits (Extends lexemes) i left) := by
  rw [Loop.operands]
  apply Proceeds.token_bind
  rintro _ rfl
  split
  · exact .pure (.refl i left)
  · rename_i found
    have further : i + 1 < lexemes.length := closed.not_last_of_some rfl found
    apply Proceeds.advance_bind further
    apply ((parse.binary (i + 1) tighter (by omega)).call le (by omega)).bind
    intro j right _ _ covers
    apply Proceeds.pure
    refine ⟨by omega, fun k whole grows => Extends.trans ?_ grows⟩
    exact fun h before => before.pair closed (Nat.le_succ i) covers

theorem moreArgs_round (le : fuel ≤ more) (i : Nat) :
    Proceeds lexemes (32 * (lexemes.length - i) + 0 ≤ fuel + 1) (Loop.moreArgs.round fuel ())
      (Loop.moreArgs.round more ()) i (Turn.Fits (InRow lexemes Expr.outlines) i ()) := by
  rw [Loop.moreArgs]
  apply Proceeds.eat_bind closed rfl
  · intro _ _
    apply ((parse.assignment (i + 1)).call le (by omega)).bind
    intro j next _ _ covers
    apply Proceeds.pure
    exact ⟨by omega, fun k rest lists => .cons (Nat.le_succ i) covers lists⟩
  · intro _
    exact .pure (.nil (Nat.le_refl i))

theorem postfixes_round (le : fuel ≤ more) (i : Nat) (expr : Expr) :
    Proceeds lexemes (32 * (lexemes.length - i) + 0 ≤ fuel + 1) (Loop.postfixes.round fuel expr)
      (Loop.postfixes.round more expr) i (Turn.Fits (Extends lexemes) i expr) := by
  rw [Loop.postfixes]
  apply Proceeds.token_bind
  rintro _ found
  have further (solid : tokenOf lexemes i ≠ .eof) : i + 1 < lexemes.length :=
    closed.not_last solid
  split
  · rw [found] at further
    apply Proceeds.advance_bind (further Token.noConfusion)
    apply ((parse.expr (i + 1)).call le (by omega)).bind
    intro j index _ _ stretches
    apply Proceeds.expect_bind closed rfl
    intro inside _
    apply Proceeds.pure
    refine ⟨by omega, fun k whole grows => Extends.trans ?_ grows⟩
    have row : Row lexemes i (j + 1) [index.outline] :=
      stretches.row (Nat.le_succ i) (Nat.le_succ j)
    exact fun h before => before.extended closed row (by omega) inside
  · rw [found] at further
    apply Proceeds.advance_bind (further Token.noConfusion)
    apply Proceeds.expectIdent_bind closed
    intro name inside _
    apply Proceeds.pure
    refine ⟨by omega, fun k whole grows => Extends.trans ?_ grows⟩
    have row : Row lexemes i (i + 1 + 1) [] := .nil (by omega)
    exact fun h before => before.extended closed row (by omega) inside
  · split
    · rename_i nameSpan name
      rw [found] at further
      apply Proceeds.advance_bind (further Token.noConfusion)
      apply ((parse.args (i + 1)).call le (by omega)).bind
      rintro j args _ inside ⟨taken, lists⟩
      apply Proceeds.previous_bind (by omega)
      apply Proceeds.pure
      refine ⟨by omega, fun k whole grows => Extends.trans ?_ grows⟩
      obtain ⟨last, rfl⟩ : ∃ last, j = last + 1 := ⟨j - 1, by omega⟩
      have row : Row lexemes i (last + 1) (Expr.outlines args) :=
        lists.wider (Nat.le_succ i) (Nat.le_refl _)
      exact fun h before => before.extended closed row (by omega) inside
    · apply Proceeds.here_bind
      exact .fail _ _
  · split
    · rename_i increment step
      have inside : i + 1 < lexemes.length := closed.not_last_of_some rfl (found ▸ step)
      apply Proceeds.here_bind
      apply Proceeds.advance_bind inside
      apply Proceeds.pure
      refine ⟨by omega, fun k whole grows => Extends.trans ?_ grows⟩
      have row : Row lexemes i (i + 1) [] := .nil (Nat.le_succ i)
      exact fun h before => before.extended closed row (Nat.le_refl i) inside
    · exact .pure (.refl i expr)

omit closed in
private theorem parseExpr_step (i : Nat) :
    Parses lexemes parseExpr 15 i (fuel + 1) (Stretches lexemes i) := by
  apply Parses.succ
  intro more le
  rw [parseExpr, parseExpr]
  apply ((parse.assignment i).call le (by omega)).bind
  intro j left _ _ stretches
  have before := stretches.before
  apply ((parse.commas j left).call le (by omega)).imp
  exact fun k whole _ _ grows => grows i stretches

private theorem parseAssignment_step (i : Nat) :
    Parses lexemes parseAssignment 14 i (fuel + 1) (Stretches lexemes i) := by
  apply Parses.succ
  intro more le
  rw [parseAssignment, parseAssignment]
  apply ((parse.conditional i).call le (by omega)).bind
  intro j target _ _ stretches
  have before := stretches.before
  apply Proceeds.token_bind
  rintro _ rfl
  split
  · exact .pure stretches
  · rename_i found
    have further : j + 1 < lexemes.length := closed.not_last_of_some rfl found
    apply Proceeds.advance_bind further
    apply ((parse.assignment (j + 1)).call le (by omega)).bind
    intro k value _ _ behind
    apply Proceeds.pure
    exact stretches.pair closed (Nat.le_succ j) behind

private theorem parseConditional_step (i : Nat) :
    Parses lexemes parseConditional 13 i (fuel + 1) (Stretches lexemes i) := by
  apply Parses.succ
  intro more le
  rw [parseConditional, parseConditional]
  have ten : operatorLevels.length = 10 := rfl
  apply ((parse.binary i operatorLevels (by omega)).call le (by omega)).bind
  intro j cond _ _ condStretches
  have before := condStretches.before
  apply Proceeds.eat_bind closed rfl
  · intro _ _
    simp only [if_true]
    apply ((parse.expr (j + 1)).call le (by omega)).bind
    intro k yes _ _ yesStretches
    apply Proceeds.expect_bind closed rfl
    intro _ _
    apply ((parse.conditional (k + 1)).call le (by omega)).bind
    intro l no _ inside noStretches
    apply Proceeds.pure
    have row : Row lexemes i l [cond.outline, yes.outline, no.outline] :=
      .cons (Nat.le_refl i) condStretches (.cons (Nat.le_succ j) yesStretches
        (noStretches.row (Nat.le_succ k) (Nat.le_refl l)))
    exact row.fills closed (by omega) inside (condStretches.merge closed (by omega) noStretches)
  · intro _
    exact .pure condStretches

omit closed in
private theorem parseBinary_step (i : Nat) (levels : List (List (Punct × BinaryOp)))
    (few : levels.length ≤ 10) :
    Parses lexemes (parseBinary · levels) (2 + levels.length) i (fuel + 1)
      (Stretches lexemes i) := by
  apply Parses.succ
  intro more le
  cases levels with
  | nil =>
      rw [parseBinary, parseBinary]
      exact (parse.unary i).call le (by simp only [List.length_nil]; omega)
  | cons level tighter =>
      rw [List.length_cons] at few ⊢
      rw [parseBinary, parseBinary]
      apply ((parse.binary i tighter (by omega)).call le (by omega)).bind
      intro j left _ _ stretches
      have before := stretches.before
      apply ((parse.operands j level tighter left (by omega)).call le (by omega)).imp
      exact fun k whole _ _ grows => grows i stretches

private theorem parseUnary_step (i : Nat) :
    Parses lexemes parseUnary 1 i (fuel + 1) (Stretches lexemes i) := by
  apply Parses.succ
  intro more le
  rw [parseUnary, parseUnary]
  apply Proceeds.here_bind
  apply Proceeds.token_bind
  rintro _ rfl
  split
  · rename_i found
    have further : i + 1 < lexemes.length := closed.not_last_of_some rfl found
    apply Proceeds.advance_bind further
    apply ((parse.unary (i + 1)).call le (by omega)).bind
    intro j operand _ _ stretches
    exact .pure (stretches.behind closed (Nat.lt_succ_self i))
  · split
    · rename_i found
      have further : i + 1 < lexemes.length := closed.not_last_of_some rfl found
      apply Proceeds.advance_bind further
      apply ((parse.unary (i + 1)).call le (by omega)).bind
      intro j operand _ _ stretches
      exact .pure (stretches.behind closed (Nat.lt_succ_self i))
    · apply Proceeds.atCast.bind
      rintro _ cast - _ ⟨rfl, opens⟩
      split
      · rename_i isCast
        have further : i + 1 < lexemes.length :=
          closed.not_last (by rw [opens isCast]; exact Token.noConfusion)
        apply Proceeds.advance_bind further
        apply (((specifiersParse closed fuel).specifier (i + 1)).call le (by omega)).bind
        intro j spec _ _ taken
        apply Proceeds.expect_bind closed rfl
        intro _ _
        apply ((parse.unary (j + 1)).call le (by omega)).bind
        intro k operand _ _ stretches
        exact .pure (stretches.behind closed (by omega))
      · apply ((parse.primary i).call le (by omega)).bind
        intro j expr _ _ stretches
        have before := stretches.before
        apply ((parse.postfixes j expr).call le (by omega)).imp
        exact fun k whole _ _ grows => grows i stretches

private theorem parseArgs_step (i : Nat) :
    Parses lexemes parseArgs 15 i (fuel + 1) fun j args =>
      i < j ∧ InRow lexemes Expr.outlines i () j args := by
  apply Parses.succ
  intro more le
  have list : Proceeds lexemes (32 * (lexemes.length - i) + 15 ≤ fuel + 1) (parseArgList fuel)
      (parseArgList more) i (InRow lexemes Expr.outlines i ()) := by
    rw [parseArgList, parseArgList]
    apply Proceeds.token_bind
    intro next _
    split
    · exact .pure (.nil (Nat.le_refl i))
    · apply ((parse.assignment i).call le (by omega)).bind
      intro j first _ _ stretches
      have before := stretches.before
      apply ((parse.moreArgs j).call le (by omega)).bind
      intro k rest _ _ lists
      exact .pure (.cons (Nat.le_refl i) stretches lists)
  rw [parseArgs_succ, parseArgs_succ]
  apply list.bind
  intro j args _ _ lists
  apply Proceeds.expect_bind closed rfl
  intro _ _
  exact .pure ⟨by omega, lists.wider (Nat.le_refl i) (Nat.le_succ j)⟩

private theorem parsePrimary_step (i : Nat) :
    Parses lexemes parsePrimary 0 i (fuel + 1) (Stretches lexemes i) := by
  apply Parses.succ
  intro more le
  rw [parsePrimary, parsePrimary]
  apply Proceeds.here_bind
  apply Proceeds.token_bind
  intro token found
  have further (solid : token ≠ .eof) : i + 1 < lexemes.length :=
    closed.not_last (found ▸ solid)
  -- Most primary expressions are one token.
  have single {expr : Expr} (solid : token ≠ .eof)
      (alone : expr.outline = .node (spanOf lexemes i) []) :
      Proceeds lexemes (32 * (lexemes.length - i) + 0 ≤ fuel + 1) (do advance; return expr)
        (do advance; return expr) i (Stretches lexemes i) := by
    apply Proceeds.advance_bind (further solid)
    apply Proceeds.pure
    rw [Stretches, alone]
    exact closed.fills_token (further solid)
  split
  · exact single Token.noConfusion rfl
  · exact single Token.noConfusion rfl
  · exact single Token.noConfusion rfl
  · rename_i text
    have passes : isString (tokenOf lexemes i) = true := by
      rw [found]
      rfl
    apply Proceeds.get_bind
    intro state _
    dsimp only
    apply Proceeds.skipWhile_bind
    intro j _ inside takes
    have before : i < j := takes passes (further Token.noConfusion)
    apply Proceeds.previous_bind (by omega)
    apply Proceeds.pure
    have row : Row lexemes i j [] := .nil (Nat.le_of_lt before)
    exact row.fills closed before inside (closed.merge_previous before inside)
  · exact single Token.noConfusion rfl
  · exact single Token.noConfusion rfl
  · exact single Token.noConfusion rfl
  · apply Proceeds.advance_bind (further Token.noConfusion)
    apply ((parse.expr (i + 1)).call le (by omega)).bind
    intro j inner _ _ stretches
    have before := stretches.before
    apply Proceeds.expect_bind closed rfl
    intro inside _
    apply Proceeds.pure
    rw [Stretches, Expr.outline_withSpan, closed.merge_spanOf (by omega) inside]
    exact stretches.wider closed (Nat.le_succ i) (Nat.le_succ j) inside
  · exact .fail _ _

end Steps

theorem exprsParse (closed : Closed lexemes) (fuel : Nat) : ExprsParse lexemes fuel := by
  induction fuel with
  | zero =>
      constructor
      · exact fun _ => .zero (by rw [parseExpr])
      · exact fun _ left => .zero (Loop.commas.spent left)
      · exact fun _ => .zero (by rw [parseAssignment])
      · exact fun _ => .zero (by rw [parseConditional])
      · exact fun _ levels _ => .zero (by rw [parseBinary])
      · exact fun _ level tighter left _ => .zero ((Loop.operands level tighter).spent left)
      · exact fun _ => .zero (by rw [parseUnary])
      · exact fun _ left => .zero (Loop.postfixes.spent left)
      · exact fun _ => .zero (by rw [parseArgs])
      · exact fun _ => .zero (Loop.moreArgs.spent ())
      · exact fun _ => .zero (by rw [parsePrimary])
  | succ fuel parse =>
      constructor
      · exact parseExpr_step parse
      · intro i left
        exact Loop.parses_succ (fun more le => commas_round closed parse le i left) parse.commas
      · exact parseAssignment_step closed parse
      · exact parseConditional_step closed parse
      · exact parseBinary_step parse
      · intro i level tighter left few
        exact Loop.parses_succ
          (fun more le => operands_round closed parse le i level tighter few left)
          fun j next => parse.operands j level tighter next few
      · exact parseUnary_step closed parse
      · intro i left
        exact Loop.parses_succ (fun more le => postfixes_round closed parse le i left)
          parse.postfixes
      · exact parseArgs_step closed parse
      · intro i
        exact Loop.parses_succ (fun more le => moreArgs_round closed parse le i)
          fun j _ => parse.moreArgs j
      · exact parsePrimary_step closed parse

end MiniC.Parser
