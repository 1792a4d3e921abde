import MiniC.Proofs.Syntax.Extent.Expr

/-!
How far the parsers of declarations and statements go, and what their spans stretch over.

Where a parser has a part that may be missing, or forms of its own, these are parsers here, and an
equation puts it together from them.
-/

namespace MiniC.Parser

variable {lexemes : List Lexeme} {enough : Prop} {i : Nat}

/-- A node from an earlier token up to the token before the current one. -/
theorem Proceeds.close {β : Type} {Then : Nat → β → Prop} {next next' : Span → Parser β} {h : Nat}
    {parts : List Outline} (closed : Closed lexemes) (before : h < i) (row : Row lexemes h i parts)
    (behind : Fills lexemes h i
        (.node ((spanOf lexemes h).merge (spanOf lexemes (i - 1))) parts) →
      Proceeds lexemes enough (next (spanOf lexemes (i - 1))) (next' (spanOf lexemes (i - 1))) i
        Then) :
    Proceeds lexemes enough (previous >>= next) (previous >>= next') i Then := by
  apply of_inside
  intro inside
  apply previous_bind (by omega)
  exact behind (row.fills closed before inside (closed.merge_previous before inside))

def parseLength (fuel : Nat) : Parser (Option Expr) := do
  if ← eat (isPunct .lbracket) then
    let length ← parseAssignment fuel
    let _ ← expectPunct .rbracket "']'"
    return some length
  else return none

def parseInit (fuel : Nat) : Parser (Option Expr) := do
  if ← eat (isPunct .assign) then
    if isPunct .lbrace (← token) then
      fail "Brace initializers are not supported" (← here)
    else some <$> parseAssignment fuel
  else return none

theorem parseDeclarator_eq (fuel : Nat) (isTypedef : Bool) :
    parseDeclarator fuel isTypedef = (do
      let (name, nameSpan) ← expectIdent
      if isTypedef then addTypeName name
      let length? ← parseLength fuel
      let init? ← parseInit fuel
      return { name, length?, init?, span := nameSpan.merge (← previous) }) := by
  rw [parseDeclarator]
  refine bind_congr fun ident => ?_
  cases isTypedef
  · simp only [Bool.false_eq_true, if_false, parseLength, parseInit, ite_bind, bind_assoc,
      pure_bind]
  · simp only [if_true, parseLength, parseInit, ite_bind, bind_assoc, pure_bind]

def parseDeclaratorList (isTypedef : Bool) (fuel : Nat) : Parser (List Declarator) := do
  if isPunct .semi (← token) then return [] else parseDeclarators isTypedef fuel

theorem parseDeclarationRest_eq (fuel : Nat) (start : Span) (isTypedef : Bool) (spec : Specifier) :
    parseDeclarationRest fuel start isTypedef spec = (do
      let declarators ← parseDeclaratorList isTypedef fuel
      let finish ← expectPunct .semi "';' after declaration"
      return { isTypedef, spec, declarators, span := start.merge finish }) := by
  simp only [parseDeclarationRest, parseDeclaratorList, ite_bind, bind_assoc, pure_bind]

section Declarations

variable {fuel more : Nat} (closed : Closed lexemes)

include closed

private theorem parseLength_parses (fuel i : Nat) :
    Parses lexemes parseLength 0 i fuel fun j length? =>
      Row lexemes i j (Expr.outline? length?) := by
  intro more le
  rw [parseLength, parseLength]
  apply Proceeds.eat_bind closed rfl
  · intro _ _
    simp only [if_true]
    apply (((exprsParse closed fuel).assignment (i + 1)).call le (by omega)).bind
    intro j length _ _ stretches
    apply Proceeds.expect_bind closed rfl
    intro _ _
    exact .pure (stretches.row (Nat.le_succ i) (Nat.le_succ j))
  · intro _
    exact .pure (.nil (Nat.le_refl i))

private theorem parseInit_parses (fuel i : Nat) :
    Parses lexemes parseInit 0 i fuel fun j init? => Row lexemes i j (Expr.outline? init?) := by
  intro more le
  rw [parseInit, parseInit]
  apply Proceeds.eat_bind closed rfl
  · intro _ _
    simp only [if_true]
    apply Proceeds.token_bind
    intro next _
    split
    · apply Proceeds.here_bind
      exact .fail _ _
    · apply (((exprsParse closed fuel).assignment (i + 1)).call le (by omega)).map
      intro j init _ _ stretches
      exact stretches.row (Nat.le_succ i) (Nat.le_refl j)
  · intro _
    exact .pure (.nil (Nat.le_refl i))

private theorem parseDeclarator_parses (isTypedef : Bool) (fuel i : Nat) :
    Parses lexemes (parseDeclarator · isTypedef) 0 i fuel fun j declarator =>
      Fills lexemes i j declarator.outline := by
  intro more le
  simp only [parseDeclarator_eq]
  apply Proceeds.expectIdent_bind closed
  intro name _ _
  have behind : Proceeds lexemes (32 * (lexemes.length - i) + 0 ≤ fuel)
      (do
        let length? ← parseLength fuel
        let init? ← parseInit fuel
        return { name, length?, init?, span := (spanOf lexemes i).merge (← previous) })
      (do
        let length? ← parseLength more
        let init? ← parseInit more
        return { name, length?, init?, span := (spanOf lexemes i).merge (← previous) })
      (i + 1) fun j (declarator : Declarator) => Fills lexemes i j declarator.outline := by
    apply ((parseLength_parses closed fuel (i + 1)).call le (by omega)).bind
    intro j length? _ _ length
    apply ((parseInit_parses closed fuel j).call le (by omega)).bind
    intro k init? _ _ init
    have row := (length.append init).wider (Nat.le_succ i) (Nat.le_refl k)
    exact Proceeds.close closed (by omega) row fun fills => .pure fills
  cases isTypedef with
  | true =>
      simp only [if_true]
      apply Proceeds.addTypeName_bind
      exact behind
  | false =>
      simp only [Bool.false_eq_true, if_false]
      exact behind

theorem declarators_round (isTypedef : Bool) (le : fuel ≤ more) (i : Nat) :
    Proceeds lexemes (32 * (lexemes.length - i) + 1 ≤ fuel + 1)
      ((Loop.declarators isTypedef).round fuel ()) ((Loop.declarators isTypedef).round more ()) i
      (Turn.Fits (InRow lexemes (List.map Declarator.outline)) i ()) := by
  apply separated_proceeds closed
  apply ((parseDeclarator_parses closed isTypedef fuel i).call le (by omega)).imp
  exact fun j first _ _ fills => fills.inRow

private theorem parseDeclarators_parses (isTypedef : Bool) (fuel i : Nat) :
    Parses lexemes (parseDeclarators isTypedef) 1 i fuel
      (InRow lexemes (List.map Declarator.outline) i ()) := by
  induction fuel generalizing i with
  | zero => exact .zero ((Loop.declarators isTypedef).spent ())
  | succ fuel ih =>
      exact Loop.parses_succ (fun more le => declarators_round closed isTypedef le i)
        fun j _ => ih j

/-- The rest of a declaration that began at position `h`. -/
theorem parseDeclarationRest_parses (isTypedef : Bool) (spec : Specifier) {h i : Nat}
    (before : h < i) (fuel : Nat) :
    Parses lexemes (parseDeclarationRest · (spanOf lexemes h) isTypedef spec) 1 i fuel
      fun j declaration => Fills lexemes h j declaration.outline := by
  intro more le
  have list : Proceeds lexemes (32 * (lexemes.length - i) + 1 ≤ fuel)
      (parseDeclaratorList isTypedef fuel) (parseDeclaratorList isTypedef more) i
      (InRow lexemes (List.map Declarator.outline) i ()) := by
    rw [parseDeclaratorList, parseDeclaratorList]
    apply Proceeds.token_bind
    intro next _
    split
    · exact .pure (.nil (Nat.le_refl i))
    · exact (parseDeclarators_parses closed isTypedef fuel i).call le (by omega)
  simp only [parseDeclarationRest_eq]
  apply list.bind
  intro j declarators _ _ lists
  apply Proceeds.expect_bind closed rfl
  intro inside _
  apply Proceeds.pure
  have row := lists.wider (Nat.le_of_lt before) (Nat.le_succ j)
  exact row.fills closed (by omega) inside (closed.merge_spanOf (by omega) inside)

private theorem parseDeclaration_parses (fuel i : Nat) :
    Parses lexemes parseDeclaration 1 i fuel fun j declaration =>
      Fills lexemes i j declaration.outline := by
  intro more le
  rw [parseDeclaration, parseDeclaration]
  apply Proceeds.here_bind
  apply ((parseSpecifiers_parses closed fuel i).call le (by omega)).bind
  rintro j ⟨isTypedef, spec⟩ _ _ before
  exact (parseDeclarationRest_parses closed isTypedef spec before fuel).call le (by omega)

private theorem parseForInit_parses (fuel i : Nat) :
    Parses lexemes parseForInit 15 i fuel fun j init =>
      i < j ∧ Row lexemes i j init.outline? := by
  intro more le
  rw [parseForInit, parseForInit]
  apply Proceeds.here_bind
  apply Proceeds.eat_bind closed rfl
  · intro _ _
    exact .pure ⟨Nat.lt_succ_self i, .nil (Nat.le_succ i)⟩
  · intro _
    simp only [Bool.false_eq_true, if_false]
    apply Proceeds.atDeclaration.bind
    rintro _ declares - _ rfl
    split
    · apply ((parseDeclaration_parses closed fuel i).call le (by omega)).bind
      intro j declaration _ _ fills
      have row : Row lexemes i j [declaration.outline] :=
        fills.row (Nat.le_refl i) (Nat.le_refl j)
      exact Proceeds.close closed fills.before row fun whole =>
        .pure ⟨fills.before, whole.row (Nat.le_refl i) (Nat.le_refl j)⟩
    · apply (((exprsParse closed fuel).expr i).call le (by omega)).bind
      intro j expr _ _ stretches
      have before := stretches.before
      apply Proceeds.expect_bind closed rfl
      intro _ _
      have row : Row lexemes i (j + 1) [expr.outline] :=
        stretches.row (Nat.le_refl i) (Nat.le_succ j)
      exact Proceeds.close closed (by omega) row fun whole =>
        .pure ⟨by omega, whole.row (Nat.le_refl i) (Nat.le_refl _)⟩

private theorem parseExprUnless_parses (mark : Punct) (fuel i : Nat) :
    Parses lexemes (parseExprUnless mark) 15 i fuel fun j value =>
      Row lexemes i j (Expr.outline? value) := by
  intro more le
  rw [parseExprUnless, parseExprUnless]
  apply Proceeds.token_bind
  intro next _
  split
  · exact .pure (.nil (Nat.le_refl i))
  · apply (((exprsParse closed fuel).expr i).call le (by omega)).bind
    intro j expr _ _ stretches
    exact .pure (stretches.row (Nat.le_refl i) (Nat.le_refl j))

end Declarations

def parseCondition (what : String) (fuel : Nat) : Parser Expr := do
  let _ ← expectPunct .lparen what
  let cond ← parseExpr fuel
  let _ ← expectPunct .rparen "')'"
  return cond

def parseElse (fuel : Nat) : Parser (Option Stmt) := do
  if ← eat (isKeyword .elseWord) then some <$> parseStmt fuel else return none

def parseBranch (fuel : Nat) (start : Span) : Parser Stmt := do
  advance
  let cond ← parseCondition "'(' after 'if'" fuel
  let yes ← parseStmt fuel
  let no ← parseElse fuel
  return .branch (start.merge (← previous)) cond yes no

def parseWhileLoop (fuel : Nat) (start : Span) : Parser Stmt := do
  advance
  let cond ← parseCondition "'(' after 'while'" fuel
  let body ← parseStmt fuel
  return .whileLoop (start.merge (← previous)) cond body

def parseDoLoop (fuel : Nat) (start : Span) : Parser Stmt := do
  advance
  let body ← parseStmt fuel
  let _ ← expect (isKeyword .whileWord) "'while' after do body"
  let cond ← parseCondition "'('" fuel
  let _ ← expectPunct .semi "';'"
  return .doLoop (start.merge (← previous)) body cond

def parseForLoop (fuel : Nat) (start : Span) : Parser Stmt := do
  advance
  let _ ← expectPunct .lparen "'(' after 'for'"
  let init ← parseForInit fuel
  let cond ← parseExprUnless .semi fuel
  let _ ← expectPunct .semi "';' in for"
  let step ← parseExprUnless .rparen fuel
  let _ ← expectPunct .rparen "')'"
  let body ← parseStmt fuel
  return .forLoop (start.merge (← previous)) init cond step body

def parseReturn (fuel : Nat) (start : Span) : Parser Stmt := do
  advance
  let value ← parseExprUnless .semi fuel
  let _ ← expectPunct .semi "';' after return"
  return .ret (start.merge (← previous)) value

def parseSimple (fuel : Nat) (start : Span) : Parser Stmt := do
  if ← atDeclaration then
    let declaration ← parseDeclaration fuel
    return .decl (start.merge (← previous)) declaration
  else
    let expr ← parseExpr fuel
    let _ ← expectPunct .semi "';' after expression"
    return .expr (start.merge (← previous)) expr

theorem parseStmt_succ (fuel : Nat) :
    parseStmt (fuel + 1) = (do
      let start ← here
      match ← token with
      | .punct .lbrace =>
          let body ← parseBlock fuel
          return .block (start.merge (← previous)) body
      | .punct .semi =>
          advance
          return .empty (start.merge (← previous))
      | .keyword .ifWord => parseBranch fuel start
      | .keyword .whileWord => parseWhileLoop fuel start
      | .keyword .doWord => parseDoLoop fuel start
      | .keyword .forWord => parseForLoop fuel start
      | .keyword .returnWord => parseReturn fuel start
      | .keyword .breakWord =>
          advance
          let _ ← expectPunct .semi "';' after break"
          return .brk (start.merge (← previous))
      | .keyword .continueWord =>
          advance
          let _ ← expectPunct .semi "';' after continue"
          return .cont (start.merge (← previous))
      | _ => parseSimple fuel start) := by
  rw [parseStmt]
  refine bind_congr fun start => bind_congr fun token => ?_
  split
  all_goals simp only [parseBranch, parseElse, parseWhileLoop, parseDoLoop, parseForLoop,
    parseReturn, parseSimple, parseCondition, ite_bind, bind_assoc, pure_bind]

/-! ### Statements -/

structure StmtsParse (lexemes : List Lexeme) (fuel : Nat) : Prop where
  stmt : ∀ i, Parses lexemes parseStmt 16 i fuel fun j stmt => Fills lexemes i j stmt.outline
  block : ∀ i, Parses lexemes parseBlock 0 i fuel fun j body =>
    i < j ∧ InRow lexemes Stmt.outlines i () j body
  stmts : ∀ i, Parses lexemes parseStmts 17 i fuel (InRow lexemes Stmt.outlines i ())

def ReadsForm (lexemes : List Lexeme) (form : Nat → Span → Parser Stmt) (fuel i : Nat) : Prop :=
  Parses lexemes (form · (spanOf lexemes i)) 15 i fuel fun j stmt => Fills lexemes i j stmt.outline

section Forms

variable {fuel : Nat} (closed : Closed lexemes) (parse : StmtsParse lexemes fuel)
  (further : i + 1 < lexemes.length)

include closed

private theorem parseCondition_parses (what : String) (fuel i : Nat) :
    Parses lexemes (parseCondition what) 0 i fuel fun j cond =>
      i < j ∧ Row lexemes i j [cond.outline] := by
  intro more le
  rw [parseCondition, parseCondition]
  apply Proceeds.expect_bind closed rfl
  intro _ _
  apply (((exprsParse closed fuel).expr (i + 1)).call le (by omega)).bind
  intro j cond _ _ stretches
  apply Proceeds.expect_bind closed rfl
  intro _ _
  exact .pure ⟨by omega, stretches.row (Nat.le_succ i) (Nat.le_succ j)⟩

private theorem parseSimple_form : ReadsForm lexemes parseSimple fuel i := by
  intro more le
  simp only [parseSimple]
  apply Proceeds.atDeclaration.bind
  rintro _ declares - _ rfl
  split
  · apply ((parseDeclaration_parses closed fuel i).call le (by omega)).bind
    intro j declaration _ _ fills
    have row : Row lexemes i j [declaration.outline] := fills.row (Nat.le_refl i) (Nat.le_refl j)
    exact Proceeds.close closed fills.before row fun whole => .pure whole
  · apply (((exprsParse closed fuel).expr i).call le (by omega)).bind
    intro j expr _ _ stretches
    have before := stretches.before
    apply Proceeds.expect_bind closed rfl
    intro _ _
    have row : Row lexemes i (j + 1) [expr.outline] := stretches.row (Nat.le_refl i) (Nat.le_succ j)
    exact Proceeds.close closed (by omega) row fun whole => .pure whole

private theorem parseElse_parses (parse : StmtsParse lexemes fuel) (i : Nat) :
    Parses lexemes parseElse 0 i fuel fun j no => Row lexemes i j (Stmt.outline? no) := by
  intro more le
  rw [parseElse, parseElse]
  apply Proceeds.eat_bind closed rfl
  · intro _ _
    simp only [if_true]
    apply ((parse.stmt (i + 1)).call le (by omega)).map
    intro j stmt _ _ fills
    exact fills.row (Nat.le_succ i) (Nat.le_refl j)
  · intro _
    exact .pure (.nil (Nat.le_refl i))

include further

private theorem parseReturn_form : ReadsForm lexemes parseReturn fuel i := by
  intro more le
  simp only [parseReturn]
  apply Proceeds.advance_bind further
  apply ((parseExprUnless_parses closed .semi fuel (i + 1)).call le (by omega)).bind
  intro j value _ _ row
  apply Proceeds.expect_bind closed rfl
  intro _ _
  have row := row.wider (Nat.le_succ i) (Nat.le_succ j)
  exact Proceeds.close closed (by omega) row fun whole => .pure whole

include parse

private theorem parseBranch_form : ReadsForm lexemes parseBranch fuel i := by
  intro more le
  simp only [parseBranch]
  apply Proceeds.advance_bind further
  apply ((parseCondition_parses closed _ fuel (i + 1)).call le (by omega)).bind
  rintro j cond _ _ ⟨_, condRow⟩
  apply ((parse.stmt j).call le (by omega)).bind
  intro k yes _ _ yesFills
  apply ((parseElse_parses closed parse k).call le (by omega)).bind
  intro l no _ _ noRow
  have before := yesFills.before
  have row := condRow.append (.cons (Nat.le_refl j) yesFills noRow)
  exact Proceeds.close closed (by omega) (row.wider (Nat.le_succ i) (Nat.le_refl l)) fun whole =>
    .pure whole

private theorem parseWhileLoop_form : ReadsForm lexemes parseWhileLoop fuel i := by
  intro more le
  simp only [parseWhileLoop]
  apply Proceeds.advance_bind further
  apply ((parseCondition_parses closed _ fuel (i + 1)).call le (by omega)).bind
  rintro j cond _ _ ⟨_, condRow⟩
  apply ((parse.stmt j).call le (by omega)).bind
  intro k body _ _ fills
  have before := fills.before
  have row := condRow.append (fills.row (Nat.le_refl j) (Nat.le_refl k))
  exact Proceeds.close closed (by omega) (row.wider (Nat.le_succ i) (Nat.le_refl k)) fun whole =>
    .pure whole

private theorem parseDoLoop_form : ReadsForm lexemes parseDoLoop fuel i := by
  intro more le
  simp only [parseDoLoop]
  apply Proceeds.advance_bind further
  apply ((parse.stmt (i + 1)).call le (by omega)).bind
  intro j body _ _ fills
  apply Proceeds.expect_bind closed rfl
  intro _ _
  apply ((parseCondition_parses closed _ fuel (j + 1)).call le (by omega)).bind
  rintro k cond _ _ ⟨_, condRow⟩
  apply Proceeds.expect_bind closed rfl
  intro _ _
  have before := fills.before
  have row := (fills.row (Nat.le_succ i) (Nat.le_succ j)).append condRow
  exact Proceeds.close closed (by omega) (row.wider (Nat.le_refl i) (Nat.le_succ k)) fun whole =>
    .pure whole

private theorem parseForLoop_form : ReadsForm lexemes parseForLoop fuel i := by
  intro more le
  simp only [parseForLoop]
  apply Proceeds.advance_bind further
  apply Proceeds.expect_bind closed rfl
  intro _ _
  apply ((parseForInit_parses closed fuel (i + 1 + 1)).call le (by omega)).bind
  rintro j init _ _ ⟨_, initRow⟩
  apply ((parseExprUnless_parses closed .semi fuel j).call le (by omega)).bind
  intro k cond _ _ condRow
  apply Proceeds.expect_bind closed rfl
  intro _ _
  apply ((parseExprUnless_parses closed .rparen fuel (k + 1)).call le (by omega)).bind
  intro l step _ _ stepRow
  apply Proceeds.expect_bind closed rfl
  intro _ _
  apply ((parse.stmt (l + 1)).call le (by omega)).bind
  intro m body _ _ fills
  have before := fills.before
  have bodyRow := fills.row (Nat.le_succ l) (Nat.le_refl m)
  have stepRow := (stepRow.append bodyRow).wider (Nat.le_succ k) (Nat.le_refl m)
  have row := initRow.append (condRow.append stepRow)
  exact Proceeds.close closed (by omega) (row.wider (by omega) (Nat.le_refl m)) fun whole =>
    .pure whole

end Forms

section Steps

variable {fuel more : Nat} (closed : Closed lexemes) (parse : StmtsParse lexemes fuel)

include closed parse

omit closed in
theorem statements_round (le : fuel ≤ more) (i : Nat) :
    Proceeds lexemes (32 * (lexemes.length - i) + 17 ≤ fuel + 1) (Loop.statements.round fuel ())
      (Loop.statements.round more ()) i (Turn.Fits (InRow lexemes Stmt.outlines) i ()) := by
  rw [Loop.statements]
  apply Proceeds.token_bind
  intro next _
  split
  · exact .pure (.nil (Nat.le_refl i))
  · apply ((parse.stmt i).call le (by omega)).bind
    intro j first _ _ fills
    apply Proceeds.pure
    exact ⟨fills.before, fun k rest lists => .cons (Nat.le_refl i) fills lists⟩

private theorem parseBlock_step (i : Nat) :
    Parses lexemes parseBlock 0 i (fuel + 1) fun j body =>
      i < j ∧ InRow lexemes Stmt.outlines i () j body := by
  apply Parses.succ
  intro more le
  rw [parseBlock, parseBlock]
  apply Proceeds.expect_bind closed rfl
  intro _ _
  apply ((parse.stmts (i + 1)).call le (by omega)).bind
  intro j body _ _ lists
  apply Proceeds.expect_bind closed rfl
  intro _ _
  exact .pure ⟨by omega, lists.wider (Nat.le_succ i) (Nat.le_succ j)⟩

private theorem parseStmt_step (i : Nat) :
    Parses lexemes parseStmt 16 i (fuel + 1) fun j stmt => Fills lexemes i j stmt.outline := by
  apply Parses.succ
  intro more le
  rw [parseStmt_succ, parseStmt_succ]
  apply Proceeds.here_bind
  apply Proceeds.token_bind
  intro token found
  have further (solid : token ≠ .eof) : i + 1 < lexemes.length :=
    closed.not_last (found ▸ solid)
  -- What a statement of two tokens reads.
  have two (what : String) (make : Span → Stmt) (leaf : ∀ span, (make span).outline = .node span [])
      (solid : token ≠ .eof) :
      Proceeds lexemes (32 * (lexemes.length - i) + 16 ≤ fuel + 1)
        (do
          advance
          let _ ← expectPunct .semi what
          return make ((spanOf lexemes i).merge (← previous)))
        (do
          advance
          let _ ← expectPunct .semi what
          return make ((spanOf lexemes i).merge (← previous)))
        i fun j stmt => Fills lexemes i j stmt.outline := by
    apply Proceeds.advance_bind (further solid)
    apply Proceeds.expect_bind closed rfl
    intro _ _
    have row : Row lexemes i (i + 1 + 1) [] := .nil (by omega)
    exact Proceeds.close closed (by omega) row fun whole => .pure (by rwa [leaf])
  split
  · apply ((parse.block i).call le (by omega)).bind
    rintro j body _ _ ⟨before, row⟩
    exact Proceeds.close closed before row fun whole => .pure whole
  · apply Proceeds.advance_bind (further Token.noConfusion)
    have row : Row lexemes i (i + 1) [] := .nil (Nat.le_succ i)
    exact Proceeds.close closed (Nat.lt_succ_self i) row fun whole => .pure whole
  · exact (parseBranch_form closed parse (further Token.noConfusion)).call le (by omega)
  · exact (parseWhileLoop_form closed parse (further Token.noConfusion)).call le (by omega)
  · exact (parseDoLoop_form closed parse (further Token.noConfusion)).call le (by omega)
  · exact (parseForLoop_form closed parse (further Token.noConfusion)).call le (by omega)
  · exact (parseReturn_form closed (further Token.noConfusion)).call le (by omega)
  · exact two _ .brk (fun _ => rfl) Token.noConfusion
  · exact two _ .cont (fun _ => rfl) Token.noConfusion
  · exact (parseSimple_form closed).call le (by omega)

end Steps

theorem stmtsParse (closed : Closed lexemes) (fuel : Nat) : StmtsParse lexemes fuel := by
  induction fuel with
  | zero =>
      constructor
      · exact fun _ => .zero (by rw [parseStmt])
      · exact fun _ => .zero (by rw [parseBlock])
      · exact fun _ => .zero (Loop.statements.spent ())
  | succ fuel parse =>
      constructor
      · exact parseStmt_step closed parse
      · exact parseBlock_step closed parse
      · intro i
        exact Loop.parses_succ (fun more le => statements_round parse le i)
          fun j _ => parse.stmts j

end MiniC.Parser
