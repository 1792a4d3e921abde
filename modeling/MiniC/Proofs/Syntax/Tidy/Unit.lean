import MiniC.Proofs.Syntax.Tidy.Expr

/-!
The parsers of declarations, statements and items yield tidy trees.

A source whose tokens are tidy is parsed into tidy items, or refused with faults on one line each.
-/

namespace MiniC.Parser

open Text (OneLine)

private theorem parseLength_yields (fuel : Nat) :
    Yields (fun length? => ∀ length ∈ length?, Expr.Tidy length) (parseLength fuel) := by
  rw [parseLength]
  apply (Yields.eat _).bind
  intro opens _
  split
  · apply (exprsTidy fuel).assignment.bind
    intro length tidy
    exact (Yields.expect _ (.literal rfl)).bind fun _ _ => .pure (forall_mem_some tidy)
  · exact .pure forall_mem_none

private theorem parseInit_yields (fuel : Nat) :
    Yields (fun init? => ∀ init ∈ init?, Expr.Tidy init) (parseInit fuel) := by
  rw [parseInit]
  apply (Yields.eat _).bind
  intro assigns _
  split
  · apply Yields.token.bind
    intro found _
    split
    · exact Yields.here.bind fun _ _ => .fail (.literal rfl) _
    · exact (exprsTidy fuel).assignment.map fun _ tidy => forall_mem_some tidy
  · exact .pure forall_mem_none

private theorem parseDeclarator_yields (fuel : Nat) (isTypedef : Bool) :
    Yields Declarator.Tidy (parseDeclarator fuel isTypedef) := by
  rw [parseDeclarator_eq]
  apply Yields.expectIdent.bind
  intro ident tidyName
  have named : Yields Declarator.Tidy (do
      let length? ← parseLength fuel
      let init? ← parseInit fuel
      return { name := ident.1, length?, init?, span := ident.2.merge (← previous) }) := by
    apply (parseLength_yields fuel).bind
    intro length? tidyLength
    apply (parseInit_yields fuel).bind
    intro init? tidyInit
    exact Yields.previous.bind fun _ _ => .pure ⟨tidyName, tidyLength, tidyInit⟩
  cases isTypedef with
  | false => exact named
  | true => exact (Yields.addTypeName ident.1).bind fun _ _ => named

private theorem parseDeclarators_yields (isTypedef : Bool) (fuel : Nat) :
    Yields (fun declarators => ∀ declarator ∈ declarators, Declarator.Tidy declarator)
      (parseDeclarators isTypedef fuel) := by
  induction fuel with
  | zero => exact .exhausted
  | succ fuel ih =>
      rw [show parseDeclarators isTypedef (fuel + 1) = _ from
        (Loop.declarators isTypedef).unfold fuel ()]
      exact .separated (List.forall_mem_nil _)
        (fun _ _ first rest => List.forall_mem_cons.mpr ⟨first, rest⟩)
        (parseDeclarator_yields fuel isTypedef) ih

private theorem parseDeclarationRest_yields (fuel : Nat) (start : Span) (isTypedef : Bool)
    {spec : Specifier} (tidy : spec.Tidy) :
    Yields Declaration.Tidy (parseDeclarationRest fuel start isTypedef spec) := by
  rw [parseDeclarationRest_eq]
  have list : Yields (fun declarators => ∀ declarator ∈ declarators, Declarator.Tidy declarator)
      (parseDeclaratorList isTypedef fuel) := by
    rw [parseDeclaratorList]
    apply Yields.token.bind
    intro found _
    split
    · exact .pure (List.forall_mem_nil _)
    · exact parseDeclarators_yields isTypedef fuel
  apply list.bind
  intro declarators tidyDeclarators
  exact (Yields.expect _ (.literal rfl)).bind fun _ _ => .pure ⟨tidy, tidyDeclarators⟩

private theorem parseDeclaration_yields (fuel : Nat) :
    Yields Declaration.Tidy (parseDeclaration fuel) := by
  rw [parseDeclaration]
  apply Yields.here.bind
  intro start _
  apply (parseSpecifiers_yields fuel).bind
  intro found tidy
  exact parseDeclarationRest_yields fuel start found.1 tidy

private theorem parseForInit_yields (fuel : Nat) : Yields ForInit.Tidy (parseForInit fuel) := by
  rw [parseForInit]
  apply Yields.here.bind
  intro start _
  apply (Yields.eat _).bind
  intro empty _
  split
  · exact .pure trivial
  · apply Yields.atDeclaration.bind
    intro declares _
    split
    · apply (parseDeclaration_yields fuel).bind
      intro declaration tidy
      exact Yields.previous.bind fun _ _ => .pure tidy
    · apply (exprsTidy fuel).expr.bind
      intro expr tidy
      apply (Yields.expect _ (.literal rfl)).bind
      intro _ _
      exact Yields.previous.bind fun _ _ => .pure tidy

private theorem parseExprUnless_yields (mark : Punct) (fuel : Nat) :
    Yields (fun expr? => ∀ expr ∈ expr?, Expr.Tidy expr) (parseExprUnless mark fuel) := by
  rw [parseExprUnless]
  apply Yields.token.bind
  intro found _
  split
  · exact .pure forall_mem_none
  · exact (exprsTidy fuel).expr.bind fun _ tidy => .pure (forall_mem_some tidy)

/-! ### Statements -/

structure StmtsTidy (fuel : Nat) : Prop where
  stmt : Yields Stmt.Tidy (parseStmt fuel)
  block : Yields Stmt.AllTidy (parseBlock fuel)
  stmts : Yields Stmt.AllTidy (parseStmts fuel)

private theorem parseCondition_yields {what : String} (oneLine : OneLine what) (fuel : Nat) :
    Yields Expr.Tidy (parseCondition what fuel) := by
  rw [parseCondition]
  apply (Yields.expect _ oneLine).bind
  intro _ _
  apply (exprsTidy fuel).expr.bind
  intro cond tidy
  exact (Yields.expect _ (.literal rfl)).bind fun _ _ => .pure tidy

private theorem parseReturn_yields (fuel : Nat) (start : Span) :
    Yields Stmt.Tidy (parseReturn fuel start) := by
  rw [parseReturn]
  apply Yields.advance.bind
  intro _ _
  apply (parseExprUnless_yields _ fuel).bind
  intro value tidy
  apply (Yields.expect _ (.literal rfl)).bind
  intro _ _
  exact Yields.previous.bind fun _ _ => .pure tidy

private theorem parseSimple_yields (fuel : Nat) (start : Span) :
    Yields Stmt.Tidy (parseSimple fuel start) := by
  rw [parseSimple]
  apply Yields.atDeclaration.bind
  intro declares _
  split
  · apply (parseDeclaration_yields fuel).bind
    intro declaration tidy
    exact Yields.previous.bind fun _ _ => .pure tidy
  · apply (exprsTidy fuel).expr.bind
    intro expr tidy
    apply (Yields.expect _ (.literal rfl)).bind
    intro _ _
    exact Yields.previous.bind fun _ _ => .pure tidy

/-- A statement that is only a word and its semicolon. -/
theorem simpleWord_yields (build : Span → Stmt) {what : String} (oneLine : OneLine what)
    (tidy : ∀ span, (build span).Tidy) (start : Span) :
    Yields Stmt.Tidy (do
      advance
      let _ ← expectPunct .semi what
      return build (start.merge (← previous))) := by
  apply Yields.advance.bind
  intro _ _
  apply (Yields.expect _ oneLine).bind
  intro _ _
  exact Yields.previous.bind fun _ _ => .pure (tidy _)

section Steps

variable {fuel : Nat} (parse : StmtsTidy fuel) (start : Span)

include parse

private theorem parseElse_yields : Yields Stmt.ElseTidy (parseElse fuel) := by
  rw [parseElse]
  apply (Yields.eat _).bind
  intro there _
  split
  · exact parse.stmt.map fun _ tidy => tidy
  · exact .pure trivial

private theorem parseBranch_yields : Yields Stmt.Tidy (parseBranch fuel start) := by
  rw [parseBranch]
  apply Yields.advance.bind
  intro _ _
  apply (parseCondition_yields (.literal rfl) fuel).bind
  intro cond tidyCond
  apply parse.stmt.bind
  intro yes tidyYes
  apply (parseElse_yields parse).bind
  intro no tidyNo
  exact Yields.previous.bind fun _ _ => .pure ⟨tidyCond, tidyYes, tidyNo⟩

private theorem parseWhileLoop_yields : Yields Stmt.Tidy (parseWhileLoop fuel start) := by
  rw [parseWhileLoop]
  apply Yields.advance.bind
  intro _ _
  apply (parseCondition_yields (.literal rfl) fuel).bind
  intro cond tidyCond
  apply parse.stmt.bind
  intro body tidyBody
  exact Yields.previous.bind fun _ _ => .pure ⟨tidyCond, tidyBody⟩

private theorem parseDoLoop_yields : Yields Stmt.Tidy (parseDoLoop fuel start) := by
  rw [parseDoLoop]
  apply Yields.advance.bind
  intro _ _
  apply parse.stmt.bind
  intro body tidyBody
  apply (Yields.expect _ (.literal rfl)).bind
  intro _ _
  apply (parseCondition_yields (.literal rfl) fuel).bind
  intro cond tidyCond
  apply (Yields.expect _ (.literal rfl)).bind
  intro _ _
  exact Yields.previous.bind fun _ _ => .pure ⟨tidyCond, tidyBody⟩

private theorem parseForLoop_yields : Yields Stmt.Tidy (parseForLoop fuel start) := by
  rw [parseForLoop]
  apply Yields.advance.bind
  intro _ _
  apply (Yields.expect _ (.literal rfl)).bind
  intro _ _
  apply (parseForInit_yields fuel).bind
  intro init tidyInit
  apply (parseExprUnless_yields _ fuel).bind
  intro cond tidyCond
  apply (Yields.expect _ (.literal rfl)).bind
  intro _ _
  apply (parseExprUnless_yields _ fuel).bind
  intro step tidyStep
  apply (Yields.expect _ (.literal rfl)).bind
  intro _ _
  apply parse.stmt.bind
  intro body tidyBody
  exact Yields.previous.bind fun _ _ => .pure ⟨tidyInit, tidyCond, tidyStep, tidyBody⟩

omit start

private theorem parseStmt_yields : Yields Stmt.Tidy (parseStmt (fuel + 1)) := by
  rw [parseStmt_succ]
  apply Yields.here.bind
  intro start _
  apply Yields.token.bind
  intro found _
  split
  · apply parse.block.bind
    intro body tidy
    exact Yields.previous.bind fun _ _ => .pure tidy
  · apply Yields.advance.bind
    intro _ _
    exact Yields.previous.bind fun _ _ => .pure trivial
  · exact parseBranch_yields parse start
  · exact parseWhileLoop_yields parse start
  · exact parseDoLoop_yields parse start
  · exact parseForLoop_yields parse start
  · exact parseReturn_yields fuel start
  · exact simpleWord_yields .brk (.literal rfl) (fun _ => trivial) start
  · exact simpleWord_yields .cont (.literal rfl) (fun _ => trivial) start
  · exact parseSimple_yields fuel start

private theorem parseBlock_yields : Yields Stmt.AllTidy (parseBlock (fuel + 1)) := by
  rw [parseBlock]
  apply (Yields.expect _ (.literal rfl)).bind
  intro _ _
  apply parse.stmts.bind
  intro body tidy
  exact (Yields.expect _ (.literal rfl)).bind fun _ _ => .pure tidy

private theorem parseStmts_yields : Yields Stmt.AllTidy (parseStmts (fuel + 1)) := by
  rw [parseStmts]
  apply Yields.token.bind
  intro next _
  split
  · exact .pure trivial
  · apply parse.stmt.bind
    intro first tidyFirst
    apply parse.stmts.bind
    intro rest tidyRest
    exact .pure ⟨tidyFirst, tidyRest⟩

end Steps

private theorem stmtsTidy (fuel : Nat) : StmtsTidy fuel := by
  induction fuel with
  | zero => exact ⟨.exhausted, .exhausted, .exhausted⟩
  | succ fuel parse =>
      exact ⟨parseStmt_yields parse, parseBlock_yields parse, parseStmts_yields parse⟩

private theorem parseParam_yields (fuel : Nat) : Yields Param.Tidy (parseParam fuel) := by
  have name : Yields OneLine parseParamName := by
    rw [parseParamName]
    apply Yields.token.bind
    intro found tidy
    split
    · exact Yields.advance.bind fun _ _ => .pure tidy
    · exact .pure (.literal rfl)
  rw [parseParam_eq]
  apply Yields.here.bind
  intro start _
  apply (specifiersTidy fuel).specifier.bind
  intro spec tidySpec
  apply name.bind
  intro name tidyName
  apply Yields.eatBrackets.bind
  intro isArray _
  exact Yields.previous.bind fun _ _ => .pure ⟨tidySpec, tidyName⟩

private theorem parseParams_yields (fuel : Nat) :
    Yields (fun params => ∀ param ∈ params, Param.Tidy param) (parseParams fuel) := by
  induction fuel with
  | zero => exact .exhausted
  | succ fuel ih =>
      rw [show parseParams (fuel + 1) = _ from Loop.params.unfold fuel ()]
      exact .separated (List.forall_mem_nil _)
        (fun _ _ first rest => List.forall_mem_cons.mpr ⟨first, rest⟩) (parseParam_yields fuel) ih

private theorem parseFunction_yields (fuel : Nat) (start : Span) {returns : Specifier}
    {name : String}
    (tidyReturns : returns.Tidy) (tidyName : OneLine name) :
    Yields FunctionDef.Tidy (parseFunction fuel start returns name) := by
  have loneVoid : Yields (fun _ => True) skipLoneVoid := by
    rw [skipLoneVoid]
    apply Yields.token.bind
    intro found _
    split
    · apply (Yields.tokenAt 1).bind
      intro next _
      split
      · exact .advance
      · exact .pure trivial
    · exact .pure trivial
  have list : Yields (fun params => ∀ param ∈ params, Param.Tidy param) (parseParamList fuel) := by
    rw [parseParamList]
    apply Yields.token.bind
    intro found _
    split
    · exact .pure (List.forall_mem_nil _)
    · exact parseParams_yields fuel
  rw [parseFunction_eq]
  apply (Yields.expect _ (.literal rfl)).bind
  intro _ _
  apply loneVoid.bind
  intro _ _
  apply list.bind
  intro params tidyParams
  apply (Yields.expect _ (.literal rfl)).bind
  intro _ _
  apply (Yields.eat _).bind
  intro prototype _
  split
  · exact Yields.previous.bind fun _ _ => .pure ⟨tidyReturns, tidyName, tidyParams, forall_mem_none⟩
  · apply (stmtsTidy fuel).block.bind
    intro body tidyBody
    exact Yields.previous.bind fun _ _ =>
      .pure ⟨tidyReturns, tidyName, tidyParams, forall_mem_some tidyBody⟩

private theorem parseItem_yields (fuel : Nat) : Yields Item.Tidy (parseItem fuel) := by
  have looks : Yields (fun _ => True) atFunction := by
    rw [atFunction]
    apply Yields.token.bind
    intro found _
    split
    · exact (Yields.tokenAt 1).bind fun _ _ => .pure trivial
    · exact .pure trivial
  rw [parseItem]
  apply Yields.here.bind
  intro start _
  apply (parseSpecifiers_yields fuel).bind
  rintro ⟨isTypedef, spec⟩ tidySpec
  apply looks.bind
  intro isFunction _
  split
  · apply Yields.expectIdent.bind
    intro found tidyName
    exact (parseFunction_yields fuel start tidySpec tidyName).bind fun _ tidy => .pure tidy
  · exact (parseDeclarationRest_yields fuel start isTypedef tidySpec).bind fun _ tidy => .pure tidy

private theorem parseItems_tidy (fuel rounds : Nat) {state : State} (tidy : state.Tidy) :
    (∀ item ∈ (parseItems fuel rounds state).items, item.Tidy) ∧
      ∀ fault ∈ (parseItems fuel rounds state).faults, OneLine fault.message := by
  induction rounds generalizing state with
  | zero => exact ⟨List.forall_mem_nil _, List.forall_mem_nil _⟩
  | succ rounds ih =>
      rw [parseItems]
      split
      · exact ⟨List.forall_mem_nil _, List.forall_mem_nil _⟩
      · split
        · exact ih tidy.advance
        · have yields := parseItem_yields fuel state tidy
          split
          · rename_i result
            rw [result] at yields
            cases yields with
            | ok left tidyItem =>
                obtain ⟨items, faults⟩ := ih left
                exact ⟨List.forall_mem_cons.mpr ⟨tidyItem, items⟩, faults⟩
          · rename_i stop next result
            rw [result] at yields
            cases yields with
            | error left told =>
                obtain ⟨items, faults⟩ := ih left.recover
                refine ⟨items, List.forall_mem_cons.mpr ⟨?_, faults⟩⟩
                cases stop with
                | fault diagnostic => exact told
                | exhausted => exact .literal rfl

end Parser

theorem parse_tidy {lexemes : List Lexeme} {items : List Item}
    (tidy : (Parser.State.initial lexemes).Tidy) (parsed : parse lexemes = .ok items) :
    ∀ item ∈ items, item.Tidy := by
  unfold parse at parsed
  dsimp only at parsed
  split at parsed
  · cases parsed
    exact (Parser.parseItems_tidy _ _ tidy).1
  · cases parsed

theorem parse_oneLine {lexemes : List Lexeme} {faults : List Diagnostic}
    (tidy : (Parser.State.initial lexemes).Tidy) (refused : parse lexemes = .error faults) :
    faults ≠ [] ∧ ∀ fault ∈ faults, Text.OneLine fault.message := by
  unfold parse at refused
  dsimp only at refused
  split at refused
  · cases refused
  · rename_i some
    cases refused
    refine ⟨?_, (Parser.parseItems_tidy _ _ tidy).2⟩
    intro none
    exact some (List.isEmpty_iff.mpr none)

end MiniC
