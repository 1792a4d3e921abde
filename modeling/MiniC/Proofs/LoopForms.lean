import MiniC.Proofs.Lowering.Declarations
import MiniC.Proofs.Lowering.Renaming
import MiniC.Proofs.Machine.Loops

/-!
Loops of the source in other forms.

A `for` loop and the `while` loop that one would write for it are lowered in
different scopes: the step of the first stands outside the body, that of the
second in a block around it. Every name means the same there, so the commands
differ only in where they have the step.
-/

namespace MiniC

/-- A `continue` stands in the statement that binds to the loop around the statement. -/
inductive Stmt.Continues : Stmt → Prop where
  | cont (span : Span) : Continues (.cont span)
  | block {span : Span} {body : List Stmt} {stmt : Stmt} :
      stmt ∈ body → Continues stmt → Continues (.block span body)
  | yes {span : Span} {cond : Expr} {yes : Stmt} {no : Option Stmt} :
      Continues yes → Continues (.branch span cond yes no)
  | no {span : Span} {cond : Expr} {yes no : Stmt} :
      Continues no → Continues (.branch span cond yes (some no))

def ForInit.stmts : ForInit → List Stmt
  | .none => []
  | .decl span declaration => [.decl span declaration]
  | .expr span value => [.expr span value]

def Stmt.withStep (span : Span) (body : Stmt) (step : Option Expr) : Stmt :=
  .block span (.block span [body] :: step.toList.map (.expr span))

/-- A `for` loop written as a `while` loop. -/
def Stmt.asWhile (span : Span) (init : ForInit) (cond step : Option Expr) (body : Stmt) : Stmt :=
  .block span
    (init.stmts ++ [.whileLoop span (cond.getD (.bool span true)) (body.withStep span step)])

namespace Lowering

open ScopeTree

private theorem not_continues_of_isGlobal {command : Command} (global : command.isGlobal = true) :
    ¬ command.Continues := by
  intro continues
  cases continues <;> cases global

private theorem not_continues_declaration {scope : ScopeId} {declaration : Declaration}
    {tree after : ScopeTree} {commands : List Command}
    (accepted : lowerDeclaration scope declaration tree = .ok (commands, after)) :
    ¬ (Command.block commands).Continues := by
  intro continues
  cases continues with
  | block listed inner =>
      exact not_continues_of_isGlobal (lowerDeclaration_isGlobal accepted _ listed) inner

private theorem not_continues_forInit {scope : ScopeId} {init : ForInit} {tree after : ScopeTree}
    {commands : List Command} (accepted : lowerForInit scope init tree = .ok (commands, after)) :
    ∀ command ∈ commands, ¬ command.Continues := by
  cases init with
  | none =>
      cases accepted
      exact nofun
  | decl span declaration =>
      obtain ⟨_, lowered, built⟩ := bind_eq_ok.mp accepted
      cases built
      exact List.forall_mem_singleton.mpr (not_continues_declaration lowered)
  | expr span expr =>
      obtain ⟨_, _, built⟩ := bind_eq_ok.mp accepted
      cases built
      exact List.forall_mem_singleton.mpr (not_continues_of_isGlobal rfl)

private theorem not_continues_return {context : Context} {scope : ScopeId} {value? : Option Expr}
    {span : Span} {tree : ScopeTree} {command : Command}
    (accepted : lowerReturn context scope value? span tree = .ok command) :
    ¬ command.Continues := by
  intro continues
  unfold lowerReturn at accepted
  split at accepted
  · cases accepted
    cases continues
  · cases accepted
  · cases accepted
  · obtain ⟨_, _, built⟩ := bind_eq_ok.mp accepted
    obtain ⟨_, _, built⟩ := bind_eq_ok.mp built
    cases built
    cases continues

mutual

/-- A command continues only where its statement does. -/
theorem lowerStmt_continues : ∀ (stmt : Stmt) (context : Context) (scope : ScopeId)
    (tree after : ScopeTree) (command : Command),
    lowerStmt context scope stmt tree = .ok (command, after) → command.Continues → stmt.Continues
  | .block _ body, context, scope, tree, after, command, accepted, continues => by
      rw [lowerStmt] at accepted
      obtain ⟨_, lowered, built⟩ := bind_eq_ok.mp accepted
      cases built
      cases continues with
      | block listed inner =>
          obtain ⟨stmt, inBody, continues⟩ :=
            lowerStmts_continues body _ _ _ _ _ lowered _ listed inner
          exact .block inBody continues
  | .expr _ expr, context, scope, tree, after, command, accepted, continues => by
      rw [lowerStmt] at accepted
      obtain ⟨_, _, built⟩ := bind_eq_ok.mp accepted
      cases built
      cases continues
  | .decl _ declaration, context, scope, tree, after, command, accepted, continues => by
      rw [lowerStmt] at accepted
      obtain ⟨_, lowered, built⟩ := bind_eq_ok.mp accepted
      cases built
      exact absurd continues (not_continues_declaration lowered)
  | .branch _ cond yes no, context, scope, tree, after, command, accepted, continues => by
      rw [lowerStmt] at accepted
      obtain ⟨_, _, rest⟩ := bind_eq_ok.mp accepted
      obtain ⟨_, loweredYes, rest⟩ := bind_eq_ok.mp rest
      obtain ⟨⟨_, _⟩, loweredNo, built⟩ := bind_eq_ok.mp rest
      cases built
      cases continues with
      | yes inner => exact .yes (lowerStmt_continues yes _ _ _ _ _ loweredYes inner)
      | no inner =>
          obtain ⟨stmt, rfl, continues⟩ := lowerElse_continues no _ _ _ _ _ loweredNo inner
          exact .no continues
  | .whileLoop _ cond body, context, scope, tree, after, command, accepted, continues => by
      rw [lowerStmt] at accepted
      obtain ⟨_, _, rest⟩ := bind_eq_ok.mp accepted
      obtain ⟨_, lowered, built⟩ := bind_eq_ok.mp rest
      cases built
      cases continues
  | .doLoop _ body cond, context, scope, tree, after, command, accepted, continues => by
      rw [lowerStmt] at accepted
      obtain ⟨_, lowered, rest⟩ := bind_eq_ok.mp accepted
      obtain ⟨_, _, built⟩ := bind_eq_ok.mp rest
      cases built
      cases continues
  | .forLoop span init cond step body, context, scope, tree, after, command, accepted,
      continues => by
      obtain ⟨_, _, _, _, _, _, _, _, _, _, loweredInit, _, _, _, lowered, rfl⟩ :=
        lowerStmt_forLoop_eq_ok accepted
      cases continues with
      | block listed inner =>
          rcases List.mem_append.mp listed with inInit | isLoop
          · exact absurd inner (not_continues_forInit loweredInit _ inInit)
          · cases List.mem_singleton.mp isLoop
            cases inner
  | .ret span value, context, scope, tree, after, command, accepted, continues => by
      rw [lowerStmt] at accepted
      obtain ⟨_, lowered, built⟩ := bind_eq_ok.mp accepted
      cases built
      exact absurd continues (not_continues_return lowered)
  | .brk span, context, scope, tree, after, command, accepted, continues => by
      rw [lowerStmt] at accepted
      obtain ⟨_, lowered, built⟩ := bind_eq_ok.mp accepted
      cases built
      unfold needLoop at lowered
      split at lowered
      · cases lowered
        cases continues
      · cases lowered
  | .cont span, _, _, _, _, _, _, _ => .cont span
  | .empty _, context, scope, tree, after, command, accepted, continues => by
      rw [lowerStmt] at accepted
      cases accepted
      cases continues with
      | block listed inner => cases listed
termination_by structural stmt => stmt

private theorem lowerElse_continues : ∀ (no : Option Stmt) (context : Context) (scope : ScopeId)
    (tree after : ScopeTree) (command : Command),
    lowerElse context scope no tree = .ok (some command, after) → command.Continues →
    ∃ stmt, no = some stmt ∧ stmt.Continues
  | none, context, scope, tree, after, command, accepted, continues => by
      rw [lowerElse] at accepted
      cases accepted
  | some stmt, context, scope, tree, after, command, accepted, continues => by
      rw [lowerElse] at accepted
      obtain ⟨_, lowered, built⟩ := bind_eq_ok.mp accepted
      cases built
      exact ⟨stmt, rfl, lowerStmt_continues stmt _ _ _ _ _ lowered continues⟩
termination_by structural no => no

private theorem lowerStmts_continues : ∀ (stmts : List Stmt) (context : Context) (scope : ScopeId)
    (tree after : ScopeTree) (commands : List Command),
    lowerStmts context scope stmts tree = .ok (commands, after) →
    ∀ command ∈ commands, command.Continues → ∃ stmt ∈ stmts, stmt.Continues
  | [], context, scope, tree, after, commands, accepted => by
      rw [lowerStmts] at accepted
      cases accepted
      exact nofun
  | first :: rest, context, scope, tree, after, commands, accepted => by
      rw [lowerStmts] at accepted
      obtain ⟨_, lowered, continued⟩ := bind_eq_ok.mp accepted
      obtain ⟨_, loweredRest, built⟩ := bind_eq_ok.mp continued
      cases built
      intro command listed continues
      rcases List.mem_cons.mp listed with rfl | behind
      · exact ⟨first, List.mem_cons_self, lowerStmt_continues first _ _ _ _ _ lowered continues⟩
      · obtain ⟨stmt, inRest, continues⟩ :=
          lowerStmts_continues rest _ _ _ _ _ loweredRest command behind continues
        exact ⟨stmt, List.mem_cons_of_mem first inRest, continues⟩
termination_by structural stmts => stmts

end

/-! ### The `while` form -/

private theorem lowerStmts_init (context : Context) (scope : ScopeId) (init : ForInit)
    (rest : List Stmt)
    (tree : ScopeTree) :
    lowerStmts context scope (init.stmts ++ rest) tree = (do
      let (first, middle) ← lowerForInit scope init tree
      let (others, after) ← lowerStmts context scope rest middle
      return (first ++ others, after)) := by
  cases init with
  | none =>
      change lowerStmts context scope rest tree = lowerStmts context scope rest tree >>= pure
      rw [bind_pure]
  | decl span declaration =>
      change lowerStmts context scope (.decl span declaration :: rest) tree = _
      rw [lowerStmts, lowerStmt, lowerForInit]
      cases lowerDeclaration scope declaration tree <;> rfl
  | expr span expr =>
      change lowerStmts context scope (.expr span expr :: rest) tree = _
      rw [lowerStmts, lowerStmt, lowerForInit]
      cases lowerExpr scope expr tree <;> rfl

private theorem lowerStmts_step (context : Context) (scope : ScopeId) (span : Span)
    (step : Option Expr)
    (tree : ScopeTree) :
    lowerStmts context scope (step.toList.map (.expr span)) tree = (do
      let term ← step.mapM fun step => lowerExpr scope step tree
      return (term.toList.map .expr, tree)) := by
  cases step with
  | none => rfl
  | some step =>
      change lowerStmts context scope [.expr span step] tree = _
      rw [lowerStmts, lowerStmt]
      change _ = (some <$> lowerExpr scope step tree) >>= _
      cases lowerExpr scope step tree <;> rfl

private theorem lowerStmt_withStep (context : Context) (scope : ScopeId) (span : Span) (body : Stmt)
    (step : Option Expr) (tree : ScopeTree) :
    lowerStmt context scope (body.withStep span step) tree = (do
      let block := tree.child scope
      let (command, after) ← lowerStmt context (block.2.child block.1).1 body
        (block.2.child block.1).2
      let term ← step.mapM fun step => lowerExpr block.1 step after
      return (command.withStep term, after)) := by
  simp only [Stmt.withStep, lowerStmt, lowerStmts_step, lowerStmts, bind_assoc]
  rfl

private theorem lowerForCondition_eq (scope : ScopeId) (cond : Option Expr) (span : Span)
    (tree : ScopeTree) :
    lowerForCondition scope cond span tree =
      lowerCondition scope (cond.getD (.bool span true)) tree := by
  cases cond <;> rfl

private theorem lowerStmt_asWhile (context : Context) (scope : ScopeId) (span : Span)
    (init : ForInit)
    (cond step : Option Expr) (body : Stmt) (tree : ScopeTree) :
    lowerStmt context scope (.asWhile span init cond step body) tree = (do
      let head := tree.child scope
      let (first, middle) ← lowerForInit head.1 init head.2
      let test ← lowerForCondition head.1 cond span middle
      let inner := middle.child head.1
      let block := inner.2.child inner.1
      let (command, after) ← lowerStmt context.loop (block.2.child block.1).1 body
        (block.2.child block.1).2
      let term ← step.mapM fun step => lowerExpr block.1 step after
      return (.block (first ++ [.whileLoop test (command.withStep term) none]), after)) := by
  simp only [Stmt.asWhile, lowerStmt, lowerStmts_init, lowerStmts, lowerStmt_withStep,
    lowerForCondition_eq, bind_assoc]
  rfl

section Mirrored

variable {left right : ScopeId} {leftTree rightTree : ScopeTree}

private theorem lowerForInit_mirrored (mirrors : Mirrors .same left leftTree right rightTree)
    (init : ForInit) :
    Alike (SameCommands .same left leftTree right rightTree) (lowerForInit left init leftTree)
      (lowerForInit right init rightTree) := by
  have alike := lowerForInit_alike mirrors init fun mention _ => Renaming.same_admits mention
  change Alike _ _ (lowerForInit right (init.rename id) rightTree) at alike
  rw [init.rename_id] at alike
  exact alike

private theorem lowerForCondition_mirrored (sees : Sees .same left leftTree right rightTree)
    (cond : Option Expr) (span : Span) :
    Alike Eq (lowerForCondition left cond span leftTree)
      (lowerForCondition right cond span rightTree) := by
  have alike := lowerForCondition_alike sees cond span fun mention _ => Renaming.same_admits mention
  change Alike _ _ (lowerForCondition right (cond.map (Expr.rename id)) span rightTree) at alike
  rw [Expr.map_rename_id] at alike
  exact alike

private theorem lowerExpr?_mirrored (sees : Sees .same left leftTree right rightTree)
    (expr? : Option Expr) :
    Alike Eq (expr?.mapM fun expr => lowerExpr left expr leftTree)
      (expr?.mapM fun expr => lowerExpr right expr rightTree) := by
  have alike := lowerExpr?_alike sees expr? fun mention _ => Renaming.same_admits mention
  change Alike _ _ ((expr?.map (Expr.rename id)).mapM _) at alike
  rw [Expr.map_rename_id] at alike
  exact alike

private theorem lowerStmt_mirrored (mirrors : Mirrors .same left leftTree right rightTree)
    (stmt : Stmt)
    (context : Context) :
    Alike (SameCommands .same left leftTree right rightTree)
      (lowerStmt context left stmt leftTree) (lowerStmt context right stmt rightTree) := by
  have alike := lowerStmt_alike stmt context mirrors fun mention _ => Renaming.same_admits mention
  change Alike _ _ (lowerStmt context right (stmt.rename id) rightTree) at alike
  rw [stmt.rename_id] at alike
  exact alike

end Mirrored

/-- The two forms of a `for` loop differ in where the step stands. -/
inductive StepMoved (body : Stmt) : Command → Command → Prop where
  | mk (first : List Command) (test : Term) (command : Command) (step : Option Term) :
      (command.Continues → body.Continues) →
      StepMoved body (.block (first ++ [.whileLoop test command step]))
        (.block (first ++ [.whileLoop test (command.withStep step) none]))

theorem forLoop_alike {scope : ScopeId} {tree : ScopeTree}
    (inside : scope < tree.scopes.size)
    (context : Context) (span : Span) (init : ForInit) (cond step : Option Expr) (body : Stmt) :
    Alike (fun loop other => Mirrors .same scope loop.2 scope other.2 ∧
        StepMoved body loop.1 other.1)
      (lowerStmt context scope (.forLoop span init cond step body) tree)
      (lowerStmt context scope (.asWhile span init cond step body) tree) := by
  have outside := Mirrors.refl inside
  rw [lowerStmt_forLoop, lowerStmt_asWhile]
  refine (lowerForInit_mirrored outside.child init).bind ?_
  rintro ⟨first, leftMiddle⟩ ⟨_, rightMiddle⟩ ⟨rfl, inHead⟩
  have head := inHead.mirrors
  refine (lowerForCondition_mirrored head.toSees cond span).bindEq fun test => ?_
  -- what the step sees on the left, the block around the body sees on the right
  have block := head.toSees.inBlock.inBlock
  have bodies := block.child head.layouts_eq (by rw [child_frame, child_frame, head.frame_eq])
  have lowered := (lowerStmt_mirrored bodies body context.loop).withLeft fun result accepted =>
    lowerStmt_continues body _ _ _ _ _ accepted
  apply lowered.swap
  · rintro ⟨command, leftAfter⟩ ⟨_, rightAfter⟩ ⟨⟨rfl, inBody⟩, _⟩
    exact lowerExpr?_mirrored (block.later (.of_kept rfl inBody.rightKept)) step
  · rintro ⟨command, leftAfter⟩ ⟨_, rightAfter⟩ term ⟨⟨rfl, inBody⟩, continues⟩
    have leftWithin : Within leftMiddle leftAfter := .of_kept rfl inBody.leftKept
    have rightWithin : Within rightMiddle rightAfter :=
      ((Within.child _ _).trans (Within.child _ _)).trans (.of_kept rfl inBody.rightKept)
    have after := outside.moves ((Within.of_kept rfl inHead.leftKept).trans leftWithin)
      ((Within.of_kept rfl inHead.rightKept).trans rightWithin) inBody.mirrors.layouts_eq
    exact .ok ⟨after.mirrors, .mk first test command term continues⟩

end Lowering

open Lowering

/-- A `for` loop is lowered if the `while` loop that stands for it is, to a command of the same
meaning, unless its body has a `continue` that leaves the step out; and what follows it finds the
same names and slots. A `do` loop whose body is not left early is the body and a `while` loop. -/
theorem loops_in_other_forms :
    (∀ (context : Lowering.Context) (scope : ScopeId) (tree : ScopeTree),
      scope < tree.scopes.size →
      ∀ (span : Span) (init : ForInit) (cond step : Option Expr) (body : Stmt),
        ¬ body.Continues →
        Alike (fun loop other => Mirrors .same scope loop.2 scope other.2 ∧
            ∀ machine, Machine.Equivalent machine loop.1 other.1)
          (lowerStmt context scope (.forLoop span init cond step body) tree)
          (lowerStmt context scope (.asWhile span init cond step body) tree)) ∧
    ∀ (machine : Machine.Context) (body : Command) (cond : Term),
      Machine.Uninterrupted machine body →
      Machine.Equivalent machine (.doLoop body cond) (.block [body, .whileLoop cond body none]) := by
  constructor
  · intro context scope tree inside span init cond step body straight
    apply (forLoop_alike inside context span init cond step body).imp
    rintro ⟨_, loopTree⟩ ⟨_, otherTree⟩ ⟨mirrors, first, test, command, term, continues⟩
    refine ⟨mirrors, fun machine => ?_⟩
    exact Machine.equivalent_withStep first test term fun inBody => straight (continues inBody)
  · intro machine body cond whole
    exact Machine.equivalent_doLoop cond whole

def leavingBody : Stmt :=
  let place : Span := ⟨0, 0⟩
  .block place [.branch place (.ident place "i") (.brk place) none]

/-- A loop that counts to three, in a form that makes a statement of its parts. -/
def counting (form : Span → ForInit → Option Expr → Option Expr → Stmt → Stmt) : Stmt :=
  let place : Span := ⟨0, 0⟩
  let number (value : UInt64) : Expr := .int place ⟨value, false, false, false⟩
  let i : Expr := .ident place "i"
  form place (.decl place ⟨false, .int, [⟨"i", none, some (number 0), place⟩], place⟩)
    (some (.binary place .lt i (number 3))) (some (.incDec place true false i)) leavingBody

def functionStart : ScopeId × ScopeTree := initialTree.functionScope ScopeTree.root

theorem counting_in_other_forms :
    (∃ loop after other later,
      lowerStmt ⟨.void, false⟩ functionStart.1 (counting .forLoop) functionStart.2 =
        .ok (loop, after) ∧
      lowerStmt ⟨.void, false⟩ functionStart.1 (counting .asWhile) functionStart.2 =
        .ok (other, later) ∧
      ∀ machine, Machine.Equivalent machine loop other) ∧
    ∀ machine term, Machine.Equivalent machine (.doLoop (.expr term) term)
      (.block [.expr term, .whileLoop term (.expr term) none]) := by
  have inside : functionStart.1 < functionStart.2.scopes.size :=
    ScopeTree.functionScope_inside initialTree ScopeTree.root
  have straight : ¬ leavingBody.Continues := by
    intro continues
    cases continues with
    | block listed inner =>
        cases List.mem_singleton.mp listed
        cases inner with
        | yes inBreak => cases inBreak
  have whole (machine : Machine.Context) (term : Term) :
      Machine.Uninterrupted machine (.expr term) := by
    intro fuel state last
    cases fuel with
    | zero => exact ⟨nofun, nofun⟩
    | succ fuel =>
        rw [Machine.exec_expr]
        constructor
        · intro done
          cases Machine.stepped_normal done
        · intro done
          cases Machine.stepped_normal done
  constructor
  · have checked : ((lowerStmt ⟨.void, false⟩ functionStart.1 (counting .forLoop)
        functionStart.2).toOption.any fun _ => true) = true := by
      decide +kernel
    obtain ⟨⟨loop, after⟩, accepted, _⟩ := eq_ok_of_any checked
    have alike : Alike _ (lowerStmt ⟨.void, false⟩ functionStart.1 (counting .forLoop)
        functionStart.2) (lowerStmt ⟨.void, false⟩ functionStart.1 (counting .asWhile)
        functionStart.2) :=
      loops_in_other_forms.1 _ _ _ inside _ _ _ _ _ straight
    rw [accepted] at alike ⊢
    generalize lowerStmt _ _ (counting .asWhile) _ = result at alike ⊢
    cases alike with
    | ok related => exact ⟨loop, after, _, _, rfl, rfl, related.2⟩
  · intro machine term
    exact loops_in_other_forms.2 machine (.expr term) term (whole machine term)

end MiniC
