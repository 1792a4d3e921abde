import MiniC.Proofs.Typing.Expr

/-!
Declarations and statements become well-formed commands.

What a statement does to its scope and what its command does to the variables are
stated together: if the scope agrees with the variables before, it agrees with
the variables after, as long as its frame stays inside the layout that the
surroundings give it. Parts of a statement are put together with `trans` and
`child`, which know nothing of commands.
-/

namespace MiniC

def Declarator.callsFunction (declarator : Declarator) : Bool :=
  declarator.length?.any Expr.callsFunction || declarator.init?.any Expr.callsFunction

def Declaration.callsFunction (declaration : Declaration) : Bool :=
  declaration.declarators.any Declarator.callsFunction

theorem Typing.Setting.Permits.some {setting : Typing.Setting} {expr? : Option Expr} {expr : Expr}
    (permits : setting.Permits (expr?.any Expr.callsFunction)) (found : expr? = some expr) :
    setting.Permits expr.callsFunction := by
  rw [found] at permits
  exact permits

namespace Lowering

open ScopeTree Typing

/-- Lowering inside a scope: the tree grows, and whatever variables the scope agreed with, it agrees
with those that the result leaves behind. -/
structure Lowers (setting : Setting) (scope : ScopeId) (before after : ScopeTree)
    (Typed : Variables → Variables → Prop) : Prop where
  grows : Grows scope before after
  typed : ∀ vars, Agrees setting vars before scope →
    (after.layout scope).Le (setting.layout setting.region) →
    ∃ out, Typed vars out ∧ Agrees setting out after scope

namespace Lowers

variable {setting : Setting} {scope : ScopeId} {tree middle after : ScopeTree}
  {First Second Whole : Variables → Variables → Prop}

theorem here (read : ∀ vars, Agrees setting vars tree scope → Whole vars vars) :
    Lowers setting scope tree tree Whole where
  grows := .refl scope tree
  typed := fun vars agrees _ => ⟨vars, read vars agrees, agrees⟩

theorem trans (inside : scope < tree.scopes.size) (first : Lowers setting scope tree middle First)
    (second : Lowers setting scope middle after Second)
    (compose : ∀ vars between out, First vars between → Second between out → Whole vars out) :
    Lowers setting scope tree after Whole where
  grows := first.grows.trans inside second.grows
  typed := by
    intro vars agrees room
    obtain ⟨between, firstTyped, between_agrees⟩ :=
      first.typed vars agrees (second.grows.layout_le.trans room)
    obtain ⟨out, secondTyped, out_agrees⟩ := second.typed between between_agrees room
    exact ⟨out, compose vars between out firstTyped secondTyped, out_agrees⟩

theorem child {block : ScopeId} {start : ScopeTree} (inside : scope < tree.scopes.size)
    (opened : tree.child scope = (block, start)) (inner : Lowers setting block start after First)
    (keep : ∀ vars more, First vars more →
      ∃ kept, vars.Le kept ∧ kept.Le more ∧ Whole vars kept) :
    Lowers setting scope tree after Whole := by
  have blockEq : block = (tree.child scope).1 := by rw [opened]
  have startEq : start = (tree.child scope).2 := by rw [opened]
  subst blockEq startEq
  refine ⟨.of_child inside inner.grows, ?_⟩
  intro vars agrees room
  rw [← inner.grows.layout_of_child inside] at room
  obtain ⟨more, innerTyped, innerAgrees⟩ := inner.typed vars agrees.child room
  obtain ⟨kept, fewer, declared, whole⟩ := keep vars more innerTyped
  exact ⟨kept, whole, agrees.leave inner.grows innerAgrees fewer declared⟩

theorem dropped {block : ScopeId} {start : ScopeTree} (inside : scope < tree.scopes.size)
    (opened : tree.child scope = (block, start)) (inner : Lowers setting block start after First)
    (le : ∀ vars more, First vars more → vars.Le more) :
    Lowers setting scope tree after (fun vars out => out = vars ∧ ∃ more, First vars more) :=
  inner.child inside opened fun vars more typed =>
    ⟨vars, .refl vars, le vars more typed, rfl, more, typed⟩

theorem imp (first : Lowers setting scope tree after First)
    (weaker : ∀ vars out, First vars out → Whole vars out) :
    Lowers setting scope tree after Whole where
  grows := first.grows
  typed := by
    intro vars agrees room
    obtain ⟨out, typed, outAgrees⟩ := first.typed vars agrees room
    exact ⟨out, weaker vars out typed, outAgrees⟩

end Lowers

variable {setting : Setting} {scope : ScopeId} {tree after : ScopeTree} {vars : Variables}

theorem Visible.mono {more : Variables} (visible : Visible setting vars tree scope)
    (fewer : vars.Le more) : Visible setting more tree scope := by
  intro name symbol resolved
  exact (visible name symbol resolved).mono fewer

/-! ### Declarations -/

section Declarations

variable {base : Ty} {declarator : Declarator} {commands : List Command} {inLoop : Bool}

private theorem isCondition_of_isDeclarable (declarable : base.isDeclarable = true)
    (notVoid : base ≠ .void)
    (notStruct : ∀ name members, base ≠ .struct name members) : isCondition base = true := by
  cases base with
  | num kind => rfl
  | bool => rfl
  | str => cases declarable
  | array element => cases declarable
  | func params ret => cases declarable
  | struct name members => exact absurd rfl (notStruct name members)
  | void => exact absurd rfl notVoid

private theorem lowerScalar_typed (scalar : isCondition base = true)
    (permits : setting.Permits declarator.callsFunction) (agrees : Agrees setting vars tree scope)
    (room : (after.layout scope).Le (setting.layout setting.region))
    (accepted : lowerScalar scope base declarator tree = .ok (commands, after)) :
    ∃ out, Commands.Typed setting inLoop vars commands out ∧ Agrees setting out after scope := by
  obtain ⟨value, slot, defined, rfl, initial⟩ := lowerScalar_eq_ok accepted
  have typed : value.Typed setting vars ∧ value.ty = base := by
    rcases initial with rfl | ⟨init, term, found, lowered, coerced⟩
    · exact ⟨.natural (.literal (Value.ty?_initial scalar)), rfl⟩
    · have quiet := (Setting.permits_or.mp permits).2.some found
      exact coerce_typed
        (lowerExpr_typed scope init tree term agrees.visible quiet lowered) coerced
  obtain ⟨valueTyped, rfl⟩ := typed
  obtain ⟨fresh, has, region, agreesAfter⟩ := agrees.defineScalar scalar defined room
  exact ⟨_, .cons (.declare valueTyped scalar fresh has region) .nil, agreesAfter⟩

private theorem lowerStructVariable_typed {structName : String} {members : List (String × Ty)}
    (object : (Ty.struct structName members).isObject = true)
    (permits : setting.Permits declarator.callsFunction) (agrees : Agrees setting vars tree scope)
    (room : (after.layout scope).Le (setting.layout setting.region))
    (accepted : lowerStructVariable scope (.struct structName members) structName members declarator
      tree = .ok (commands, after)) :
    ∃ out, Commands.Typed setting inLoop vars commands out ∧ Agrees setting out after scope := by
  obtain ⟨slot, defined, initial⟩ := lowerStructVariable_eq_ok accepted
  obtain ⟨fresh, has, region, agreesAfter⟩ := agrees.defineReference object defined room
  have created : Command.Typed setting inLoop vars (.newStruct slot structName members)
      (vars.withReference slot (.struct structName members)) :=
    .newStruct object fresh has region
  rcases initial with rfl | ⟨init, term, found, lowered, sameTy, rfl⟩
  · exact ⟨_, .cons created .nil, agreesAfter⟩
  · -- the initial value runs after the struct was created, when the new variable is known
    have quiet := (Setting.permits_or.mp permits).2.some found
    have visible := agrees.visible.mono (Variables.le_withReference fresh)
    have typed := lowerExpr_typed scope init tree term visible quiet lowered
    have place : Place.Typed setting (vars.withReference slot (.struct structName members))
        (.whole slot) term.ty := by
      rw [sameTy]
      exact .whole (if_pos rfl) has object
    have assigned : Term.Typed setting (vars.withReference slot (.struct structName members))
        (.mk term.ty declarator.span (.assign (.whole slot) term)) :=
      .natural (.assign place typed)
    rw [sameTy] at assigned
    exact ⟨_, .cons created (.cons (.expr assigned) .nil), agreesAfter⟩

private theorem lowerArray_typed {length : Expr}
    (permits : setting.Permits length.callsFunction) (agrees : Agrees setting vars tree scope)
    (room : (after.layout scope).Le (setting.layout setting.region))
    (accepted : lowerArray scope base declarator length tree = .ok (commands, after)) :
    ∃ out, Commands.Typed setting inLoop vars commands out ∧ Agrees setting out after scope := by
  obtain ⟨kind, term, index, slot, rfl, lowered, converted, defined, rfl⟩ :=
    lowerArray_eq_ok accepted
  have typed := lowerExpr_typed scope length tree term agrees.visible permits lowered
  obtain ⟨indexTyped, isIndex⟩ := asIndex_typed typed converted
  obtain ⟨fresh, has, region, agreesAfter⟩ := agrees.defineReference rfl defined room
  exact ⟨_, .cons (.newArray indexTyped isIndex fresh has region) .nil, agreesAfter⟩

private theorem lowerDeclarator_typed
    (declarable : base.isDeclarable = true) (notVoid : base ≠ .void)
    (permits : setting.Permits declarator.callsFunction) (agrees : Agrees setting vars tree scope)
    (room : (after.layout scope).Le (setting.layout setting.region))
    (accepted : lowerDeclarator scope base declarator tree = .ok (commands, after)) :
    ∃ out, Commands.Typed setting inLoop vars commands out ∧ Agrees setting out after scope := by
  unfold lowerDeclarator at accepted
  split at accepted
  · rename_i length found
    have quiet := (Setting.permits_or.mp permits).1.some found
    exact lowerArray_typed quiet agrees room accepted
  · split at accepted
    · exact lowerStructVariable_typed declarable permits agrees room accepted
    · rename_i notStruct
      exact lowerScalar_typed (isCondition_of_isDeclarable declarable notVoid notStruct)
        permits agrees room accepted

private theorem lowerDeclarators_typed {declarators : List Declarator}
    (declarable : base.isDeclarable = true)
    (permits : setting.Permits (declarators.any Declarator.callsFunction))
    (agrees : Agrees setting vars tree scope)
    (room : (after.layout scope).Le (setting.layout setting.region))
    (accepted : lowerDeclarators scope base declarators tree = .ok (commands, after)) :
    ∃ out, Commands.Typed setting inLoop vars commands out ∧ Agrees setting out after scope := by
  induction declarators generalizing tree vars commands with
  | nil =>
      cases accepted
      exact ⟨vars, .nil, agrees⟩
  | cons declarator rest ih =>
      obtain ⟨first, middle, others, notVoid, lowered, loweredRest, rfl⟩ :=
        lowerDeclarators_cons_eq_ok accepted
      rw [List.any_cons, Setting.permits_or] at permits
      have inside := (lowerDeclarator_grows lowered).inside agrees.inside
      have roomFirst := (lowerDeclarators_grows inside loweredRest).layout_le.trans room
      obtain ⟨between, firstTyped, agreesBetween⟩ :=
        lowerDeclarator_typed declarable notVoid permits.1 agrees roomFirst lowered
      obtain ⟨out, restTyped, agreesOut⟩ := ih permits.2 agreesBetween loweredRest
      exact ⟨out, firstTyped.append restTyped, agreesOut⟩

theorem lowerDeclaration_lowers {declaration : Declaration} (inLoop : Bool)
    (permits : setting.Permits declaration.callsFunction) (inside : scope < tree.scopes.size)
    (accepted : lowerDeclaration scope declaration tree = .ok (commands, after)) :
    Lowers setting scope tree after
      (fun vars out => Commands.Typed setting inLoop vars commands out) where
  grows := lowerDeclaration_grows inside accepted
  typed := by
    intro vars agrees room
    obtain ⟨base, middle, hint, resolved, rest⟩ := lowerDeclaration_eq_ok accepted
    obtain ⟨same, declarable⟩ := resolveSpecifier_spec _ _ _ _ _ _ _ resolved
    rcases rest with ⟨rfl, named⟩ | lowered
    · have sameAfter := defineTypes_sameSymbols same declarable named
      exact ⟨vars, .nil, agrees.sameSymbols sameAfter⟩
    · exact lowerDeclarators_typed (declarable agrees.types) permits (agrees.sameSymbols same)
        room lowered

end Declarations

/-! ### Statements -/

structure InFunction (setting : Setting) (context : Context) : Prop where
  calls : setting.calls = true
  ret : setting.ret? = some context.ret

namespace InFunction

variable {context : Context}

theorem permits (inFunction : InFunction setting context) (calls : Bool) :
    setting.Permits calls := by
  intro forbidden
  rw [inFunction.calls] at forbidden
  cases forbidden

theorem region (inFunction : InFunction setting context) : setting.region = .activation := by
  rw [Setting.region, inFunction.ret]

theorem loop (inFunction : InFunction setting context) : InFunction setting context.loop :=
  ⟨inFunction.calls, inFunction.ret⟩

end InFunction

private theorem lowerReturn_typed {context : Context} {value? : Option Expr} {span : Span}
    {command : Command} (inFunction : InFunction setting context)
    (visible : Visible setting vars tree scope)
    (accepted : lowerReturn context scope value? span tree = .ok command) :
    Command.Typed setting context.inLoop vars command vars := by
  unfold lowerReturn at accepted
  split at accepted
  · rename_i isVoid
    cases accepted
    refine .retVoid ?_
    rw [inFunction.ret, isVoid]
  · cases accepted
  · cases accepted
  · rename_i value notVoid
    obtain ⟨term, lowered, rest⟩ := bind_eq_ok.mp accepted
    obtain ⟨result, coerced, built⟩ := bind_eq_ok.mp rest
    cases built
    obtain ⟨typed, sameTy⟩ := coerce_typed
      (lowerExpr_typed scope value tree term visible
        (inFunction.permits _) lowered) coerced
    refine .ret typed ?_ ?_
    · rw [inFunction.ret, sameTy]
    · rw [sameTy]
      exact fun isVoid => notVoid isVoid

private theorem needLoop_typed {context : Context} {word : String} {command result : Command}
    {span : Span}
    (typed : Command.Typed setting true vars command vars)
    (accepted : needLoop context word command span = .ok result) :
    Command.Typed setting context.inLoop vars result vars := by
  unfold needLoop at accepted
  split at accepted
  · rename_i inLoop
    cases accepted
    rw [inLoop]
    exact typed
  · cases accepted

private theorem lowerForInit_lowers {context : Context} {init : ForInit} {commands : List Command}
    (inFunction : InFunction setting context) (inside : scope < tree.scopes.size)
    (accepted : lowerForInit scope init tree = .ok (commands, after)) :
    Lowers setting scope tree after
      (fun vars out => Commands.Typed setting context.inLoop vars commands out) := by
  cases init with
  | none =>
      cases accepted
      exact .here fun vars _ => .nil
  | decl span declaration =>
      obtain ⟨⟨declared, grown⟩, lowered, built⟩ := bind_eq_ok.mp accepted
      cases built
      have declares := lowerDeclaration_lowers context.inLoop
        (inFunction.permits _) inside lowered
      refine declares.imp ?_
      intro vars out typed
      exact .cons (.block inFunction.region typed) .nil
  | expr span expr =>
      obtain ⟨term, lowered, built⟩ := bind_eq_ok.mp accepted
      cases built
      refine .here fun vars agrees => .cons (.expr ?_) .nil
      exact lowerExpr_typed scope expr tree term agrees.visible
        (inFunction.permits _) lowered

private theorem lowerCondition_lowers {context : Context} {expr : Expr} {test : Term}
    (inFunction : InFunction setting context)
    (lowered : lowerCondition scope expr tree = .ok test) :
    Lowers setting scope tree tree (fun vars out => out = vars ∧
      test.Typed setting vars ∧ isCondition test.ty = true) :=
  .here fun _ agrees => ⟨rfl, lowerCondition_typed agrees.visible
    (inFunction.permits _) lowered⟩

/-- The parts of a `for` loop, in the order in which they are lowered. -/
theorem lowerStmt_forLoop_eq_ok {context : Context} {span : Span} {init : ForInit}
    {cond step : Option Expr} {body : Stmt} {command : Command}
    (accepted : lowerStmt context scope (.forLoop span init cond step body) tree =
      .ok (command, after)) :
    ∃ head start first declared test step? block blockStart bodyCommand,
      tree.child scope = (head, start) ∧ lowerForInit head init start = .ok (first, declared) ∧
      (test = .literal (.bool true) .bool span ∨
        ∃ expr, lowerCondition head expr declared = .ok test) ∧
      (∀ term, step? = some term → ∃ expr, lowerExpr head expr declared = .ok term) ∧
      declared.child head = (block, blockStart) ∧
      lowerStmt context.loop block body blockStart = .ok (bodyCommand, after) ∧
      command = .block (first ++ [.whileLoop test bodyCommand step?]) := by
  rw [lowerStmt] at accepted
  split at accepted
  rename_i head start opened
  obtain ⟨⟨first, declared⟩, loweredInit, rest⟩ := bind_eq_ok.mp accepted
  -- behind the condition both forms go on in the same way
  have continues (test : Term) (rest : (do
      let step ← step.mapM fun step => lowerExpr head step declared
      let lowered ← lowerStmt context.loop (declared.child head).1 body (declared.child head).2
      return (Command.block (first ++ [.whileLoop test lowered.1 step]), lowered.2) :
        Except Diagnostic (Command × ScopeTree)) = .ok (command, after)) :
      ∃ step? block blockStart bodyCommand,
        (∀ term, step? = some term → ∃ expr, lowerExpr head expr declared = .ok term) ∧
        declared.child head = (block, blockStart) ∧
        lowerStmt context.loop block body blockStart = .ok (bodyCommand, after) ∧
        command = .block (first ++ [.whileLoop test bodyCommand step?]) := by
    obtain ⟨step?, loweredStep, rest⟩ := bind_eq_ok.mp rest
    obtain ⟨⟨bodyCommand, last⟩, loweredBody, built⟩ := bind_eq_ok.mp rest
    cases built
    refine ⟨step?, _, _, bodyCommand, ?_, rfl, loweredBody, rfl⟩
    intro term found
    cases step with
    | none =>
        cases loweredStep
        cases found
    | some expr =>
        obtain ⟨lowered, loweredExpr, same⟩ := map_eq_ok.mp loweredStep
        rw [found] at same
        cases same
        exact ⟨expr, loweredExpr⟩
  simp only at rest
  split at rest
  · rename_i expr
    obtain ⟨test, loweredCond, rest⟩ := bind_eq_ok.mp rest
    obtain ⟨step?, block, blockStart, bodyCommand, parts⟩ := continues test rest
    exact ⟨head, start, first, declared, test, step?, block, blockStart, bodyCommand, opened,
      loweredInit, Or.inr ⟨expr, loweredCond⟩, parts⟩
  · obtain ⟨test, same, rest⟩ := bind_eq_ok.mp rest
    cases same
    obtain ⟨step?, block, blockStart, bodyCommand, parts⟩ := continues _ rest
    exact ⟨head, start, first, declared, _, step?, block, blockStart, bodyCommand, opened,
      loweredInit, Or.inl rfl, parts⟩

private theorem inside_of_child {block : ScopeId} {start : ScopeTree}
    (opened : tree.child scope = (block, start)) : block < start.scopes.size := by
  have bound := child_inside tree scope
  rw [opened] at bound
  exact bound

mutual

/-- A statement becomes a well-formed command of the function around it. -/
theorem lowerStmt_lowers :
    ∀ (stmt : Stmt) (context : Context) (scope : ScopeId) (tree after : ScopeTree)
      (command : Command), InFunction setting context → scope < tree.scopes.size →
      lowerStmt context scope stmt tree = .ok (command, after) →
      Lowers setting scope tree after
        (fun vars out => Command.Typed setting context.inLoop vars command out)
  | .block _ body, context, scope, tree, after, command, inFunction, inside, accepted => by
      rw [lowerStmt] at accepted
      split at accepted
      rename_i block start opened
      obtain ⟨⟨commands, last⟩, lowered, built⟩ := bind_eq_ok.mp accepted
      cases built
      have inner := lowerStmts_lowers body context block start after commands inFunction
        (inside_of_child opened) lowered
      refine inner.child inside opened ?_
      intro vars more typed
      exact ⟨more, typed.le, .refl more, .block inFunction.region typed⟩
  | .expr _ expr, context, scope, tree, after, command, inFunction, inside, accepted => by
      rw [lowerStmt] at accepted
      obtain ⟨term, lowered, built⟩ := bind_eq_ok.mp accepted
      cases built
      refine .here fun vars agrees => .expr ?_
      exact lowerExpr_typed scope expr tree term agrees.visible
        (inFunction.permits _) lowered
  | .decl _ declaration, context, scope, tree, after, command, inFunction, inside, accepted => by
      rw [lowerStmt] at accepted
      obtain ⟨⟨commands, last⟩, lowered, built⟩ := bind_eq_ok.mp accepted
      cases built
      have declares := lowerDeclaration_lowers context.inLoop
        (inFunction.permits _) inside lowered
      refine declares.imp ?_
      intro vars out typed
      exact .block inFunction.region typed
  | .branch _ cond yes no, context, scope, tree, after, command, inFunction, inside, accepted => by
      rw [lowerStmt] at accepted
      obtain ⟨test, loweredCond, rest⟩ := bind_eq_ok.mp accepted
      split at rest
      rename_i block start opened
      obtain ⟨⟨yesCommand, middle⟩, loweredYes, rest⟩ := bind_eq_ok.mp rest
      obtain ⟨⟨noCommand, last⟩, loweredNo, built⟩ := bind_eq_ok.mp rest
      cases built
      have tests := lowerCondition_lowers inFunction loweredCond
      have inner := lowerStmt_lowers yes context block start middle yesCommand inFunction
        (inside_of_child opened) loweredYes
      have first := inner.dropped inside opened fun _ _ typed => typed.le
      have second := lowerElse_lowers no context scope middle after noCommand inFunction
        (first.grows.inside inside) loweredNo
      have tested : Lowers setting scope tree middle (fun vars out => out = vars ∧
          test.Typed setting vars ∧ isCondition test.ty = true ∧
          ∃ more, Command.Typed setting context.inLoop vars yesCommand more) := by
        refine tests.trans inside first ?_
        rintro vars _ _ ⟨rfl, testTyped, condition⟩ ⟨rfl, yesTyped⟩
        exact ⟨rfl, testTyped, condition, yesTyped⟩
      refine tested.trans inside second ?_
      rintro vars _ _ ⟨rfl, testTyped, condition, _, yesTyped⟩ ⟨rfl, noTyped⟩
      cases noCommand with
      | none => exact .branchOnly inFunction.region testTyped condition yesTyped
      | some other =>
          obtain ⟨_, otherTyped⟩ := noTyped other rfl
          exact .branch inFunction.region testTyped condition yesTyped otherTyped
  | .whileLoop _ cond body, context, scope, tree, after, command, inFunction, inside,
      accepted => by
      rw [lowerStmt] at accepted
      obtain ⟨test, loweredCond, rest⟩ := bind_eq_ok.mp accepted
      split at rest
      rename_i block start opened
      obtain ⟨⟨bodyCommand, last⟩, loweredBody, built⟩ := bind_eq_ok.mp rest
      cases built
      have tests := lowerCondition_lowers inFunction loweredCond
      have inner := lowerStmt_lowers body context.loop block start after bodyCommand
        inFunction.loop (inside_of_child opened) loweredBody
      have loops := inner.dropped inside opened fun _ _ typed => typed.le
      refine tests.trans inside loops ?_
      rintro vars _ _ ⟨rfl, testTyped, condition⟩ ⟨rfl, _, bodyTyped⟩
      exact .whileLoop inFunction.region testTyped condition bodyTyped
        (fun _ impossible => by cases impossible)
  | .doLoop _ body cond, context, scope, tree, after, command, inFunction, inside, accepted => by
      rw [lowerStmt] at accepted
      split at accepted
      rename_i block start opened
      obtain ⟨⟨bodyCommand, middle⟩, loweredBody, rest⟩ := bind_eq_ok.mp accepted
      obtain ⟨test, loweredCond, built⟩ := bind_eq_ok.mp rest
      cases built
      have inner := lowerStmt_lowers body context.loop block start after bodyCommand
        inFunction.loop (inside_of_child opened) loweredBody
      have loops := inner.dropped inside opened fun _ _ typed => typed.le
      have tests := lowerCondition_lowers inFunction loweredCond
      refine loops.trans inside tests ?_
      rintro vars _ _ ⟨rfl, _, bodyTyped⟩ ⟨rfl, testTyped, condition⟩
      exact .doLoop inFunction.region bodyTyped testTyped condition
  | .forLoop span init cond step body, context, scope, tree, after, command, inFunction, inside,
      accepted => by
      obtain ⟨head, start, first, declared, test, step?, block, blockStart, bodyCommand, opened,
        loweredInit, loweredCond, loweredStep, openedBody, loweredBody, rfl⟩ :=
        lowerStmt_forLoop_eq_ok accepted
      have headInside := inside_of_child opened
      have begins := lowerForInit_lowers inFunction headInside loweredInit
      have declaredInside := begins.grows.inside headInside
      -- the condition and the step see the variables of the head, not those of the body
      have tests : Lowers setting head declared declared (fun vars out => out = vars ∧
          (test.Typed setting vars ∧ isCondition test.ty = true) ∧
          ∀ term, step? = some term → term.Typed setting vars) := by
        refine .here fun vars agrees => ⟨rfl, ?_, ?_⟩
        · rcases loweredCond with rfl | ⟨expr, lowered⟩
          · exact ⟨.natural (.literal rfl), rfl⟩
          · exact lowerCondition_typed agrees.visible (inFunction.permits _)
              lowered
        · intro term found
          obtain ⟨expr, lowered⟩ := loweredStep term found
          exact lowerExpr_typed head expr declared term agrees.visible
            (inFunction.permits _) lowered
      have inner := lowerStmt_lowers body context.loop block blockStart after bodyCommand
        inFunction.loop (inside_of_child openedBody) loweredBody
      have loops := inner.dropped declaredInside openedBody fun _ _ typed => typed.le
      have repeats : Lowers setting head declared after (fun vars out => out = vars ∧
          Command.Typed setting context.inLoop vars (.whileLoop test bodyCommand step?) vars) := by
        refine tests.trans declaredInside loops ?_
        rintro vars _ _ ⟨rfl, ⟨testTyped, condition⟩, stepTyped⟩ ⟨rfl, _, bodyTyped⟩
        exact ⟨rfl, .whileLoop inFunction.region testTyped condition bodyTyped stepTyped⟩
      have whole : Lowers setting head start after (fun vars out =>
          Commands.Typed setting context.inLoop vars
            (first ++ [.whileLoop test bodyCommand step?]) out) := by
        refine begins.trans headInside repeats ?_
        rintro vars between _ initTyped ⟨rfl, loopTyped⟩
        exact initTyped.append (.cons loopTyped .nil)
      refine whole.child inside opened ?_
      intro vars more typed
      exact ⟨more, typed.le, .refl more, .block inFunction.region typed⟩
  | .ret span value, context, scope, tree, after, command, inFunction, inside, accepted => by
      rw [lowerStmt] at accepted
      obtain ⟨result, lowered, built⟩ := bind_eq_ok.mp accepted
      cases built
      exact .here fun vars agrees => lowerReturn_typed inFunction agrees.visible lowered
  | .brk span, context, scope, tree, after, command, inFunction, inside, accepted => by
      rw [lowerStmt] at accepted
      obtain ⟨result, lowered, built⟩ := bind_eq_ok.mp accepted
      cases built
      exact .here fun vars _ => needLoop_typed .brk lowered
  | .cont span, context, scope, tree, after, command, inFunction, inside, accepted => by
      rw [lowerStmt] at accepted
      obtain ⟨result, lowered, built⟩ := bind_eq_ok.mp accepted
      cases built
      exact .here fun vars _ => needLoop_typed .cont lowered
  | .empty _, context, scope, tree, after, command, inFunction, inside, accepted => by
      cases accepted
      exact .here fun vars _ => .block inFunction.region .nil
termination_by structural stmt => stmt

private theorem lowerElse_lowers :
    ∀ (stmt? : Option Stmt) (context : Context) (scope : ScopeId) (tree after : ScopeTree)
      (command? : Option Command), InFunction setting context → scope < tree.scopes.size →
      lowerElse context scope stmt? tree = .ok (command?, after) →
      Lowers setting scope tree after (fun vars out => out = vars ∧
        ∀ command, command? = some command →
          ∃ inner, Command.Typed setting context.inLoop vars command inner)
  | none, context, scope, tree, after, command?, inFunction, inside, accepted => by
      cases accepted
      refine .here fun vars _ => ⟨rfl, ?_⟩
      intro command impossible
      cases impossible
  | some stmt, context, scope, tree, after, command?, inFunction, inside, accepted => by
      rw [lowerElse] at accepted
      split at accepted
      rename_i block start opened
      obtain ⟨⟨command, last⟩, lowered, built⟩ := bind_eq_ok.mp accepted
      cases built
      have inner := lowerStmt_lowers stmt context block start after command inFunction
        (inside_of_child opened) lowered
      refine inner.child inside opened ?_
      intro vars more typed
      refine ⟨vars, .refl vars, typed.le, rfl, ?_⟩
      intro other same
      cases same
      exact ⟨more, typed⟩
termination_by structural stmt? => stmt?

theorem lowerStmts_lowers :
    ∀ (stmts : List Stmt) (context : Context) (scope : ScopeId) (tree after : ScopeTree)
      (commands : List Command), InFunction setting context → scope < tree.scopes.size →
      lowerStmts context scope stmts tree = .ok (commands, after) →
      Lowers setting scope tree after
        (fun vars out => Commands.Typed setting context.inLoop vars commands out)
  | [], context, scope, tree, after, commands, inFunction, inside, accepted => by
      cases accepted
      exact .here fun vars _ => .nil
  | first :: rest, context, scope, tree, after, commands, inFunction, inside, accepted => by
      rw [lowerStmts] at accepted
      obtain ⟨⟨command, middle⟩, loweredFirst, continued⟩ := bind_eq_ok.mp accepted
      obtain ⟨⟨others, last⟩, loweredRest, built⟩ := bind_eq_ok.mp continued
      cases built
      have head := lowerStmt_lowers first context scope tree middle command inFunction inside
        loweredFirst
      have tail := lowerStmts_lowers rest context scope middle after others inFunction
        (head.grows.inside inside) loweredRest
      exact head.trans inside tail fun vars between out firstTyped restTyped =>
        .cons firstTyped restTyped
termination_by structural stmts => stmts

end

end Lowering
end MiniC
