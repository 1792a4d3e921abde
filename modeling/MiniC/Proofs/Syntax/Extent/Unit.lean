import MiniC.Proofs.Syntax.Extent.Stmt

/-!
How far the parsers of parameters, functions and items go, and what their spans stretch over.
-/

namespace MiniC.Parser

variable {lexemes : List Lexeme} {enough : Prop} {i : Nat}

def parseParamName : Parser String := do
  match ← token with
  | .ident name =>
      advance
      return name
  | _ => return ""

theorem parseParam_eq (fuel : Nat) :
    parseParam fuel = (do
      let start ← here
      let spec ← parseSpecifier fuel
      let name ← parseParamName
      let isArray ← eatBrackets
      return { spec, name, isArray, span := start.merge (← previous) }) := by
  rw [parseParam]
  refine bind_congr fun start => bind_congr fun spec => ?_
  rw [parseParamName, bind_assoc]
  refine bind_congr fun token => ?_
  split
  · simp only [eatBrackets, ite_bind, bind_assoc, pure_bind]
  · simp only [eatBrackets, ite_bind, bind_assoc, pure_bind]

def skipLoneVoid : Parser Unit := do
  match ← token with
  | .typeWord .void => if isPunct .rparen (← tokenAt 1) then advance
  | _ => pure ()

def parseParamList (fuel : Nat) : Parser (List Param) := do
  if isPunct .rparen (← token) then return [] else parseParams fuel

theorem parseFunction_eq (fuel : Nat) (start : Span) (returns : Specifier) (name : String) :
    parseFunction fuel start returns name = (do
      let _ ← expectPunct .lparen "'('"
      skipLoneVoid
      let params ← parseParamList fuel
      let _ ← expectPunct .rparen "')'"
      if ← eat (isPunct .semi) then
        return { returns, name, params, body? := none, span := start.merge (← previous) }
      else
        let body ← parseBlock fuel
        return { returns, name, params, body? := some body,
                 span := start.merge (← previous) }) := by
  rw [parseFunction]
  refine bind_congr fun _ => ?_
  rw [skipLoneVoid, bind_assoc]
  refine bind_congr fun token => ?_
  split
  · simp only [parseParamList, ite_bind, bind_assoc, pure_bind]
  · simp only [parseParamList, ite_bind, bind_assoc, pure_bind]

private theorem parseParamName_proceeds (closed : Closed lexemes) :
    Proceeds lexemes enough parseParamName parseParamName i fun _ _ => True := by
  rw [parseParamName]
  apply Proceeds.token_bind
  intro token found
  split
  · have further : i + 1 < lexemes.length := closed.not_last (found ▸ Token.noConfusion)
    apply Proceeds.advance_bind further
    exact .pure trivial
  · exact .pure trivial

private theorem skipLoneVoid_proceeds (closed : Closed lexemes) :
    Proceeds lexemes enough skipLoneVoid skipLoneVoid i fun _ _ => True := by
  rw [skipLoneVoid]
  apply Proceeds.token_bind
  intro token found
  split
  · have further : i + 1 < lexemes.length := closed.not_last (found ▸ Token.noConfusion)
    apply Proceeds.tokenAt_bind
    split
    · have moves : Proceeds lexemes enough (advance >>= Pure.pure) (advance >>= Pure.pure) i
          fun _ _ => True :=
        .advance_bind further (.pure trivial)
      rwa [bind_pure] at moves
    · exact .pure trivial
  · exact .pure trivial

/-! ### Functions -/

section Items

variable (closed : Closed lexemes)

include closed

private theorem parseParam_parses (fuel i : Nat) :
    Parses lexemes parseParam 1 i fuel fun j param => Fills lexemes i j param.outline := by
  intro more le
  rw [parseParam_eq, parseParam_eq]
  apply Proceeds.here_bind
  apply (((specifiersParse closed fuel).specifier i).call le (by omega)).bind
  intro j spec _ _ before
  apply (parseParamName_proceeds closed).bind
  intro k name _ _ _
  apply (eatBrackets_proceeds closed).bind
  intro l isArray _ _ _
  have row : Row lexemes i l [] := .nil (by omega)
  exact Proceeds.close closed (by omega) row fun whole => .pure whole

theorem params_round {fuel more : Nat} (le : fuel ≤ more) (i : Nat) :
    Proceeds lexemes (32 * (lexemes.length - i) + 2 ≤ fuel + 1) (Loop.params.round fuel ())
      (Loop.params.round more ()) i (Turn.Fits (InRow lexemes (List.map Param.outline)) i ()) := by
  apply separated_proceeds closed
  apply ((parseParam_parses closed fuel i).call le (by omega)).imp
  exact fun j first _ _ fills => fills.inRow

private theorem parseParams_parses (fuel i : Nat) :
    Parses lexemes parseParams 2 i fuel (InRow lexemes (List.map Param.outline) i ()) := by
  induction fuel generalizing i with
  | zero => exact .zero (Loop.params.spent ())
  | succ fuel ih =>
      exact Loop.parses_succ (fun more le => params_round closed le i) fun j _ => ih j

/-- A function whose return type began at position `h`. -/
theorem parseFunction_parses (returns : Specifier) (name : String) {h i : Nat} (before : h < i)
    (fuel : Nat) :
    Parses lexemes (parseFunction · (spanOf lexemes h) returns name) 0 i fuel
      fun j definition => Fills lexemes h j definition.outline := by
  intro more le
  have list (j : Nat) (further : i < j) : Proceeds lexemes (32 * (lexemes.length - i) + 0 ≤ fuel)
      (parseParamList fuel) (parseParamList more) j
      (InRow lexemes (List.map Param.outline) j ()) := by
    rw [parseParamList, parseParamList]
    apply Proceeds.token_bind
    intro next _
    split
    · exact .pure (.nil (Nat.le_refl j))
    · exact (parseParams_parses closed fuel j).call le (by omega)
  simp only [parseFunction_eq]
  apply Proceeds.expect_bind closed rfl
  intro _ _
  apply (skipLoneVoid_proceeds closed).bind
  intro j _ _ _ _
  apply (list j (by omega)).bind
  intro k params _ _ paramsRow
  apply Proceeds.expect_bind closed rfl
  intro _ _
  apply Proceeds.eat_bind closed rfl
  · intro _ _
    simp only [if_true]
    have row : Row lexemes h (k + 1 + 1) (params.map Param.outline ++ []) :=
      (paramsRow.append (.nil (Nat.le_refl k))).wider (by omega) (by omega)
    exact Proceeds.close closed (by omega) row fun whole => .pure whole
  · intro _
    simp only [Bool.false_eq_true, if_false]
    apply (((stmtsParse closed fuel).block (k + 1)).call le (by omega)).bind
    rintro l body _ _ ⟨_, bodyRow⟩
    have row : Row lexemes h l (params.map Param.outline ++ Stmt.outlines body) :=
      (paramsRow.append (bodyRow.wider (Nat.le_succ k) (Nat.le_refl l))).wider (by omega)
        (Nat.le_refl l)
    exact Proceeds.close closed (by omega) row fun whole => .pure whole

omit closed in
private theorem atFunction_proceeds :
    Proceeds lexemes enough atFunction atFunction i fun j _ => i = j := by
  rw [atFunction]
  apply Proceeds.token_bind
  intro token _
  split
  · apply Proceeds.tokenAt_bind
    exact .pure rfl
  · exact .pure rfl

theorem parseItem_parses (fuel i : Nat) :
    Parses lexemes parseItem 1 i fuel fun j item => Fills lexemes i j item.outline := by
  intro more le
  rw [parseItem, parseItem]
  apply Proceeds.here_bind
  apply ((parseSpecifiers_parses closed fuel i).call le (by omega)).bind
  rintro j ⟨isTypedef, spec⟩ _ _ before
  apply atFunction_proceeds.bind
  rintro _ isFunction - _ rfl
  split
  · apply Proceeds.expectIdent_bind closed
    intro name _ _
    apply ((parseFunction_parses closed spec name (by omega) fuel).call le (by omega)).bind
    intro k definition _ _ fills
    exact .pure fills
  · apply ((parseDeclarationRest_parses closed isTypedef spec before fuel).call le (by omega)).bind
    intro k declaration _ _ fills
    exact .pure fills

end Items

end MiniC.Parser
