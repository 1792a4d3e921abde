import MiniC.Proofs.Syntax.Tidy.Rules

/-!
The parsers of specifiers and expressions yield tidy trees.
-/

namespace MiniC.Parser

open Text (OneLine)

private theorem specifierOfWords?_tidy {words : List TypeWord} {spec : Specifier}
    (found : specifierOfWords? words = some spec) : spec.Tidy := by
  simp only [specifierOfWords?] at found
  repeat' split at found
  all_goals cases found
  all_goals trivial

private theorem parseWords_yields (start : Span) : Yields Specifier.Tidy (parseWords start) := by
  rw [parseWords]
  apply Yields.get.bind
  intro state _
  apply (Yields.skipWhile _).bind
  intro _ _
  split
  · exact Yields.previous.bind fun _ _ => .fail (.literal rfl) _
  · split
    · rename_i found
      exact .pure (specifierOfWords?_tidy found)
    · exact Yields.token.bind fun found _ =>
        .fail (.append (.literal rfl) found.oneLine_describe) start

private theorem parseMemberNames_yields {spec : Specifier} (tidy : spec.Tidy) (start : Span)
    (fuel : Nat) :
    Yields Member.AllTidy (parseMemberNames spec start fuel) := by
  induction fuel with
  | zero => exact .exhausted
  | succ fuel ih =>
      rw [show parseMemberNames spec start (fuel + 1) = _ from
        (Loop.memberNames spec start).unfold fuel ()]
      refine .separated trivial
        (fun member _ (fits : Member.AllTidy [member]) all => fits.append all) ?_ ih
      apply Yields.expectIdent.bind
      intro found tidyName
      exact Yields.eatBrackets.bind fun _ _ => .pure ⟨⟨tidy, tidyName⟩, trivial⟩

private theorem parseTag_yields : Yields (fun tag? => ∀ tag ∈ tag?, OneLine tag) parseTag := by
  rw [parseTag]
  apply Yields.token.bind
  intro found tidy
  split
  · rename_i name
    apply Yields.advance.bind
    intro _ _
    apply (Yields.addTypeName name).bind
    intro _ _
    exact .pure (forall_mem_some tidy)
  · exact .pure forall_mem_none

structure SpecifiersTidy (fuel : Nat) : Prop where
  specifier : Yields Specifier.Tidy (parseSpecifier fuel)
  struct : Yields Specifier.Tidy (parseStruct fuel)
  members : Yields Member.AllTidy (parseMembers fuel)

section Steps

variable {fuel : Nat} (parse : SpecifiersTidy fuel)

include parse

private theorem parseSpecifier_yields : Yields Specifier.Tidy (parseSpecifier (fuel + 1)) := by
  rw [parseSpecifier]
  apply (Yields.skipWhile _).bind
  intro _ _
  apply Yields.here.bind
  intro start _
  apply Yields.token.bind
  intro found tidy
  split
  · apply parse.struct.bind
    intro spec tidySpec
    exact (Yields.skipWhile _).bind fun _ _ => .pure tidySpec
  · rename_i name
    apply (Yields.isTypeName name).bind
    intro known _
    split
    · apply Yields.advance.bind
      intro _ _
      exact (Yields.skipWhile _).bind fun _ _ => .pure tidy
    · exact parseWords_yields start
  · exact parseWords_yields start

private theorem parseStruct_yields : Yields Specifier.Tidy (parseStruct (fuel + 1)) := by
  rw [parseStruct_succ]
  apply (Yields.expect _ (.literal rfl)).bind
  intro start _
  apply parseTag_yields.bind
  intro tag? tidyTag
  apply (Yields.eat _).bind
  intro opens _
  split
  · apply parse.members.bind
    intro members tidyMembers
    exact (Yields.expect _ (.literal rfl)).bind fun _ _ => .pure ⟨tidyTag, tidyMembers⟩
  · split
    · exact .pure (tidyTag _ rfl)
    · exact Yields.here.bind fun _ _ => .fail (.literal rfl) _

private theorem parseMembers_yields : Yields Member.AllTidy (parseMembers (fuel + 1)) := by
  rw [parseMembers]
  apply Yields.token.bind
  intro next _
  split
  · exact .pure trivial
  · apply Yields.here.bind
    intro start _
    apply parse.specifier.bind
    intro spec tidySpec
    apply (parseMemberNames_yields tidySpec start fuel).bind
    intro first tidyFirst
    apply (Yields.expect _ (.literal rfl)).bind
    intro _ _
    apply parse.members.bind
    intro rest tidyRest
    exact .pure (tidyFirst.append tidyRest)

end Steps

theorem specifiersTidy (fuel : Nat) : SpecifiersTidy fuel := by
  induction fuel with
  | zero => exact ⟨.exhausted, .exhausted, .exhausted⟩
  | succ fuel parse =>
      exact ⟨parseSpecifier_yields parse, parseStruct_yields parse, parseMembers_yields parse⟩

theorem parseSpecifiers_yields (fuel : Nat) :
    Yields (fun found => found.2.Tidy) (parseSpecifiers fuel) := by
  rw [parseSpecifiers]
  apply (Yields.skipWhile _).bind
  intro _ _
  apply (Yields.eat _).bind
  intro isTypedef _
  apply (Yields.skipWhile _).bind
  intro _ _
  exact (specifiersTidy fuel).specifier.bind fun _ tidy => .pure tidy

/-! ### Expressions -/

structure ExprsTidy (fuel : Nat) : Prop where
  expr : Yields Expr.Tidy (parseExpr fuel)
  commas : ∀ left : Expr, left.Tidy → Yields Expr.Tidy (parseCommas fuel left)
  assignment : Yields Expr.Tidy (parseAssignment fuel)
  conditional : Yields Expr.Tidy (parseConditional fuel)
  binary : ∀ levels, Yields Expr.Tidy (parseBinary fuel levels)
  operands : ∀ level tighter (left : Expr), left.Tidy →
    Yields Expr.Tidy (parseOperands fuel level tighter left)
  unary : Yields Expr.Tidy (parseUnary fuel)
  postfixes : ∀ expr : Expr, expr.Tidy → Yields Expr.Tidy (parsePostfixes fuel expr)
  args : Yields Expr.AllTidy (parseArgs fuel)
  moreArgs : Yields Expr.AllTidy (parseMoreArgs fuel)
  primary : Yields Expr.Tidy (parsePrimary fuel)

section Steps

variable {fuel : Nat} (parse : ExprsTidy fuel)

include parse

private theorem parseExpr_yields : Yields Expr.Tidy (parseExpr (fuel + 1)) := by
  rw [parseExpr]
  exact parse.assignment.bind parse.commas

private theorem parseCommas_yields {left : Expr} (tidyLeft : left.Tidy) :
    Yields Expr.Tidy (parseCommas (fuel + 1) left) := by
  rw [parseCommas]
  apply (Yields.eat _).bind
  intro goesOn _
  split
  · apply parse.assignment.bind
    intro right tidyRight
    exact parse.commas _ ⟨tidyLeft, tidyRight⟩
  · exact .pure tidyLeft

private theorem parseAssignment_yields : Yields Expr.Tidy (parseAssignment (fuel + 1)) := by
  rw [parseAssignment]
  apply parse.conditional.bind
  intro target tidyTarget
  apply Yields.token.bind
  intro found _
  split
  · exact .pure tidyTarget
  · apply Yields.advance.bind
    intro _ _
    apply parse.assignment.bind
    intro value tidyValue
    exact .pure ⟨tidyTarget, tidyValue⟩

private theorem parseConditional_yields : Yields Expr.Tidy (parseConditional (fuel + 1)) := by
  rw [parseConditional]
  apply (parse.binary _).bind
  intro cond tidyCond
  apply (Yields.eat _).bind
  intro asks _
  split
  · apply parse.expr.bind
    intro yes tidyYes
    apply (Yields.expect _ (.literal rfl)).bind
    intro _ _
    apply parse.conditional.bind
    intro no tidyNo
    exact .pure ⟨tidyCond, tidyYes, tidyNo⟩
  · exact .pure tidyCond

private theorem parseBinary_yields (levels : List (List (Punct × BinaryOp))) :
    Yields Expr.Tidy (parseBinary (fuel + 1) levels) := by
  cases levels with
  | nil =>
      rw [parseBinary]
      exact parse.unary
  | cons level tighter =>
      rw [parseBinary]
      exact (parse.binary tighter).bind (parse.operands level tighter)

private theorem parseOperands_yields (level : List (Punct × BinaryOp))
    (tighter : List (List (Punct × BinaryOp))) {left : Expr} (tidyLeft : left.Tidy) :
    Yields Expr.Tidy (parseOperands (fuel + 1) level tighter left) := by
  rw [parseOperands]
  apply Yields.token.bind
  intro found _
  split
  · exact .pure tidyLeft
  · apply Yields.advance.bind
    intro _ _
    apply (parse.binary tighter).bind
    intro right tidyRight
    exact parse.operands level tighter _ ⟨tidyLeft, tidyRight⟩

private theorem parseUnary_yields : Yields Expr.Tidy (parseUnary (fuel + 1)) := by
  rw [parseUnary]
  apply Yields.here.bind
  intro start _
  apply Yields.token.bind
  intro first _
  split
  · apply Yields.advance.bind
    intro _ _
    exact parse.unary.bind fun _ tidy => .pure tidy
  · split
    · apply Yields.advance.bind
      intro _ _
      exact parse.unary.bind fun _ tidy => .pure tidy
    · apply Yields.atCast.bind
      intro isCast _
      split
      · apply Yields.advance.bind
        intro _ _
        apply (specifiersTidy fuel).specifier.bind
        intro spec tidySpec
        apply (Yields.expect _ (.literal rfl)).bind
        intro _ _
        apply parse.unary.bind
        intro operand tidyOperand
        exact .pure ⟨tidySpec, tidyOperand⟩
      · exact parse.primary.bind parse.postfixes

private theorem parsePostfixes_yields {expr : Expr} (tidy : expr.Tidy) :
    Yields Expr.Tidy (parsePostfixes (fuel + 1) expr) := by
  -- The equations of the definition ask for the form of `expr`, which matters only for a call.
  unfold parsePostfixes
  apply Yields.token.bind
  intro next _
  split
  · apply Yields.advance.bind
    intro _ _
    apply parse.expr.bind
    intro index tidyIndex
    apply (Yields.expect _ (.literal rfl)).bind
    intro _ _
    exact parse.postfixes _ ⟨tidy, tidyIndex⟩
  · apply Yields.advance.bind
    intro _ _
    apply Yields.expectIdent.bind
    intro member tidyName
    exact parse.postfixes _ ⟨tidy, tidyName⟩
  · split
    · apply Yields.advance.bind
      intro _ _
      apply parse.args.bind
      intro args tidyArgs
      apply Yields.previous.bind
      intro _ _
      exact parse.postfixes _ ⟨tidy, tidyArgs⟩
    · exact Yields.here.bind fun _ _ => .fail (.literal rfl) _
  · split
    · apply Yields.here.bind
      intro _ _
      apply Yields.advance.bind
      intro _ _
      exact parse.postfixes _ tidy
    · exact .pure tidy

private theorem parseArgs_yields : Yields Expr.AllTidy (parseArgs (fuel + 1)) := by
  rw [parseArgs_succ]
  have list : Yields Expr.AllTidy (parseArgList fuel) := by
    rw [parseArgList]
    apply Yields.token.bind
    intro next _
    split
    · exact .pure trivial
    · apply parse.assignment.bind
      intro first tidyFirst
      apply parse.moreArgs.bind
      intro more tidyMore
      exact .pure ⟨tidyFirst, tidyMore⟩
  apply list.bind
  intro args tidyArgs
  exact (Yields.expect _ (.literal rfl)).bind fun _ _ => .pure tidyArgs

private theorem parseMoreArgs_yields : Yields Expr.AllTidy (parseMoreArgs (fuel + 1)) := by
  rw [parseMoreArgs]
  apply (Yields.eat _).bind
  intro goesOn _
  split
  · apply parse.assignment.bind
    intro next tidyNext
    apply parse.moreArgs.bind
    intro more tidyMore
    exact .pure ⟨tidyNext, tidyMore⟩
  · exact .pure trivial

private theorem parsePrimary_yields : Yields Expr.Tidy (parsePrimary (fuel + 1)) := by
  rw [parsePrimary]
  apply Yields.here.bind
  intro span _
  apply Yields.token.bind
  intro found tidy
  split
  · exact Yields.advance.bind fun _ _ => .pure trivial
  · exact Yields.advance.bind fun _ _ => .pure trivial
  · exact Yields.advance.bind fun _ _ => .pure trivial
  · apply Yields.get.bind
    intro state _
    apply (Yields.skipWhile _).bind
    intro _ _
    exact Yields.previous.bind fun _ _ => .pure trivial
  · exact Yields.advance.bind fun _ _ => .pure trivial
  · exact Yields.advance.bind fun _ _ => .pure trivial
  · exact Yields.advance.bind fun _ _ => .pure tidy
  · apply Yields.advance.bind
    intro _ _
    apply parse.expr.bind
    intro inner tidyInner
    exact (Yields.expect _ (.literal rfl)).bind fun _ _ => .pure (tidyInner.withSpan _)
  · exact .fail (.append (.literal rfl) (Token.oneLine_describe _)) span

end Steps

theorem exprsTidy (fuel : Nat) : ExprsTidy fuel := by
  induction fuel with
  | zero =>
      constructor
      all_goals intros
      all_goals exact .exhausted
  | succ fuel parse =>
      constructor
      · exact parseExpr_yields parse
      · exact fun _ tidy => parseCommas_yields parse tidy
      · exact parseAssignment_yields parse
      · exact parseConditional_yields parse
      · exact parseBinary_yields parse
      · exact fun level tighter _ tidy => parseOperands_yields parse level tighter tidy
      · exact parseUnary_yields parse
      · exact fun _ tidy => parsePostfixes_yields parse tidy
      · exact parseArgs_yields parse
      · exact parseMoreArgs_yields parse
      · exact parsePrimary_yields parse

end MiniC.Parser
