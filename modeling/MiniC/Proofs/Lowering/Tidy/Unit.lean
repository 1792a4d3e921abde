import MiniC.Proofs.Lowering.Tidy.Expr

/-!
The faults of declarations, statements and functions are told on one line.

Lowering keeps the scope tree tidy, so tidy items are lowered, or refused with a fault on one line.
-/

namespace MiniC.Lowering

open Text (OneLine)

def TidyAfter {α : Type} (result : α × ScopeTree) : Prop := result.2.Tidy

variable {tree : ScopeTree} (tidyTree : tree.Tidy)

include tidyTree

private theorem defineSlot_meets (scope : ScopeId) {name : String} (named : OneLine name) {ty : Ty}
    (tidy : ty.Tidy) (span : Span) : Meets TidyAfter (defineSlot tree scope name ty span) := by
  cases result : defineSlot tree scope name ty span with
  | ok defined =>
      obtain ⟨slot, after⟩ := defined
      obtain ⟨_, rfl⟩ := defineSlot_eq_ok result
      exact .ok (tidyTree.withSymbol scope tidy _)
  | error fault =>
      unfold defineSlot at result
      split at result
      · cases result
        exact .error (Diagnostic.oneLine_duplicate named span)
      · split at result
        · cases result
        · cases result
        · cases result
          exact .error (.between rfl named rfl)

section Declarators

variable (scope : ScopeId) {base : Ty} (tidyBase : base.Tidy) {declarator : Declarator}
  (tidy : declarator.Tidy)

include tidyBase tidy

private theorem lowerArray_meets {length : Expr} (tidyLength : length.Tidy) :
    Meets TidyAfter (lowerArray scope base declarator length tree) := by
  unfold lowerArray
  dsimp only
  split
  · rename_i kind
    have tidyArray : (Ty.array (.num kind)).Tidy := trivial
    split
    · exact .error (.between rfl tidy.name rfl)
    · apply (lowerExpr_meets scope length tree tidyLength tidyTree).bind
      intro size tidySize
      apply (asIndex_meets (.between rfl tidy.name rfl) tidySize).bind
      intro index _
      exact (defineSlot_meets tidyTree scope tidy.name tidyArray _).bind fun _ after => .ok after
  · exact .error (.append (.between rfl tidy.name rfl) tidyBase.text)

private theorem lowerStructVariable_meets (structName : String) (members : List (String × Ty)) :
    Meets TidyAfter (lowerStructVariable scope base structName members declarator tree) := by
  unfold lowerStructVariable
  dsimp only
  apply (Meets.mapM tidy.init fun init tidyInit =>
    lowerExpr_meets scope init tree tidyInit tidyTree).bind
  intro init? tidyInit
  apply (defineSlot_meets tidyTree scope tidy.name tidyBase _).bind
  rintro ⟨slot, after⟩ tidyAfter
  dsimp only
  split
  · exact .ok tidyAfter
  · rename_i init
    split
    · exact .ok tidyAfter
    · exact .error (.append (.between rfl tidyBase.text rfl) (tidyInit init rfl).text)

private theorem lowerScalar_meets : Meets TidyAfter (lowerScalar scope base declarator tree) := by
  have defined (value : Term) : Meets TidyAfter
      (defineSlot tree scope declarator.name base declarator.span >>= fun defined =>
        pure ([Command.expr (.mk base declarator.span (.assign (.scalar defined.1) value))],
          defined.2)) :=
    (defineSlot_meets tidyTree scope tidy.name tidyBase _).bind fun _ after => .ok after
  unfold lowerScalar
  dsimp only
  split
  · rename_i init same
    apply (lowerExpr_meets scope init tree (tidy.init init same) tidyTree).bind
    intro term tidyTerm
    exact (coerce_meets tidyTerm tidyBase).bind fun value _ => defined value
  · exact defined _

private theorem lowerDeclarator_meets :
    Meets TidyAfter (lowerDeclarator scope base declarator tree) := by
  unfold lowerDeclarator
  split
  · rename_i length same
    exact lowerArray_meets tidyTree scope tidyBase tidy (tidy.length length same)
  · split
    · exact lowerStructVariable_meets tidyTree scope tidyBase tidy _ _
    · exact lowerScalar_meets tidyTree scope tidyBase tidy

end Declarators

section Lists

variable (scope : ScopeId) {base : Ty} (tidyBase : base.Tidy) {declarators : List Declarator}

include tidyBase

private theorem lowerDeclarators_meets (tidy : ∀ declarator ∈ declarators, declarator.Tidy) :
    Meets TidyAfter (lowerDeclarators scope base declarators tree) := by
  induction declarators generalizing tree with
  | nil => exact .ok tidyTree
  | cons declarator rest ih =>
      obtain ⟨first, others⟩ := List.forall_mem_cons.mp tidy
      rw [lowerDeclarators]
      split
      · exact .error (.between rfl first.name rfl)
      · apply (lowerDeclarator_meets tidyTree scope tidyBase first).bind
        rintro ⟨commands, after⟩ tidyAfter
        exact (ih tidyAfter others).bind fun _ last => .ok last

private theorem defineTypes_meets :
    Meets ScopeTree.Tidy (defineTypes scope base declarators tree) := by
  induction declarators generalizing tree with
  | nil => exact .ok tidyTree
  | cons declarator rest ih =>
      rw [defineTypes]
      split
      · exact .error (.literal rfl)
      · exact ih (tidyTree.defineType scope _ tidyBase)

end Lists

private theorem lowerDeclaration_meets (scope : ScopeId) {declaration : Declaration}
    (tidy : declaration.Tidy) : Meets TidyAfter (lowerDeclaration scope declaration tree) := by
  have hinted : ∀ name ∈ (if declaration.isTypedef then
      declaration.declarators.head?.map Declarator.name else none), OneLine name := by
    intro name hint
    split at hint
    · obtain ⟨declarator, first, rfl⟩ := Option.map_eq_some_iff.mp hint
      exact (tidy.declarators declarator (List.mem_of_head? first)).name
    · cases hint
  unfold lowerDeclaration
  dsimp only
  apply (resolveSpecifier_meets scope hinted declaration.span declaration.spec tree tidy.spec
    tidyTree).bind
  rintro ⟨base, after⟩ ⟨tidyBase, tidyAfter⟩
  dsimp only
  split
  · exact (defineTypes_meets tidyAfter scope tidyBase).bind fun _ last => .ok last
  · exact lowerDeclarators_meets tidyAfter scope tidyBase tidy.declarators

private theorem lowerReturn_meets {context : Context} (tidyRet : context.ret.Tidy) (scope : ScopeId)
    {value? : Option Expr} (tidy : ∀ value ∈ value?, Expr.Tidy value) (span : Span) :
    Meets (fun _ => True) (lowerReturn context scope value? span tree) := by
  unfold lowerReturn
  split
  · exact .ok trivial
  · exact .error (.literal rfl)
  · exact .error (.append (.literal rfl) tidyRet.text)
  · rename_i value _
    apply (lowerExpr_meets scope value tree (tidy value rfl) tidyTree).bind
    intro term tidyTerm
    exact (coerce_meets tidyTerm tidyRet).bind fun _ _ => .ok trivial

omit tidyTree in
private theorem needLoop_meets (context : Context) {word : String} (oneLine : OneLine word)
    (command : Command) (span : Span) :
    Meets (fun _ => True) (needLoop context word command span) := by
  unfold needLoop
  split
  · exact .ok trivial
  · exact .error (.between rfl oneLine rfl)

private theorem lowerForInit_meets (scope : ScopeId) {init : ForInit} (tidy : init.Tidy) :
    Meets TidyAfter (lowerForInit scope init tree) := by
  cases init with
  | none => exact .ok tidyTree
  | decl span declaration =>
      exact (lowerDeclaration_meets tidyTree scope tidy).bind fun _ after => .ok after
  | expr span expr =>
      exact (lowerExpr_meets scope expr tree tidy tidyTree).bind fun _ _ => .ok tidyTree

omit tidyTree in
mutual

private theorem lowerStmt_meets (context : Context) (tidyRet : context.ret.Tidy) (scope : ScopeId) :
    ∀ (stmt : Stmt) (tree : ScopeTree), stmt.Tidy → tree.Tidy →
      Meets TidyAfter (lowerStmt context scope stmt tree)
  | .block _ body, tree, tidy, tidyTree => by
      rw [lowerStmt]
      exact (lowerStmts_meets context tidyRet _ body _ tidy (tidyTree.child scope)).bind
        fun _ after => .ok after
  | .expr _ expr, tree, tidy, tidyTree => by
      rw [lowerStmt]
      exact (lowerExpr_meets scope expr tree tidy tidyTree).bind fun _ _ => .ok tidyTree
  | .decl _ declaration, tree, tidy, tidyTree => by
      rw [lowerStmt]
      exact (lowerDeclaration_meets tidyTree scope tidy).bind fun _ after => .ok after
  | .branch _ cond yes no, tree, tidy, tidyTree => by
      rw [lowerStmt]
      apply (lowerCondition_meets scope tidy.1 tidyTree).bind
      intro cond _
      apply (lowerStmt_meets context tidyRet _ yes _ tidy.2.1 (tidyTree.child scope)).bind
      rintro ⟨yes, after⟩ tidyAfter
      exact (lowerElse_meets context tidyRet scope no after tidy.2.2 tidyAfter).bind
        fun _ last => .ok last
  | .whileLoop _ cond body, tree, tidy, tidyTree => by
      rw [lowerStmt]
      apply (lowerCondition_meets scope tidy.1 tidyTree).bind
      intro cond _
      exact (lowerStmt_meets context.loop tidyRet _ body _ tidy.2 (tidyTree.child scope)).bind
        fun _ after => .ok after
  | .doLoop _ body cond, tree, tidy, tidyTree => by
      rw [lowerStmt]
      apply (lowerStmt_meets context.loop tidyRet _ body _ tidy.2 (tidyTree.child scope)).bind
      rintro ⟨body, after⟩ tidyAfter
      exact (lowerCondition_meets scope tidy.1 tidyAfter).bind fun _ _ => .ok tidyAfter
  | .forLoop span init cond step body, tree, tidy, tidyTree => by
      rw [lowerStmt]
      obtain ⟨tidyInit, tidyCond, tidyStep, tidyBody⟩ := tidy
      apply (lowerForInit_meets (tidyTree.child scope) _ tidyInit).bind
      rintro ⟨first, after⟩ tidyAfter
      -- What follows the condition is the same with a condition and without one.
      have looped (cond : Term) : Meets TidyAfter (do
          let step ← step.mapM fun step => lowerExpr (tree.child scope).1 step after
          let (inner, tree) := after.child (tree.child scope).1
          let (body, tree) ← lowerStmt context.loop inner body tree
          return (Command.block (first ++ [.whileLoop cond body step]), tree)) := by
        apply (Meets.mapM tidyStep fun step tidy =>
          lowerExpr_meets _ step after tidy tidyAfter).bind
        intro step _
        exact (lowerStmt_meets context.loop tidyRet _ body _ tidyBody (tidyAfter.child _)).bind
          fun _ last => .ok last
      cases cond with
      | none => exact looped _
      | some cond =>
          exact (lowerCondition_meets _ (tidyCond cond rfl) tidyAfter).bind
            fun cond _ => looped cond
  | .ret span value, tree, tidy, tidyTree => by
      rw [lowerStmt]
      exact (lowerReturn_meets tidyTree tidyRet scope tidy span).bind fun _ _ => .ok tidyTree
  | .brk span, tree, _, tidyTree => by
      rw [lowerStmt]
      exact (needLoop_meets context (.literal rfl) .brk span).bind fun _ _ => .ok tidyTree
  | .cont span, tree, _, tidyTree => by
      rw [lowerStmt]
      exact (needLoop_meets context (.literal rfl) .cont span).bind fun _ _ => .ok tidyTree
  | .empty _, tree, _, tidyTree => .ok tidyTree
termination_by structural stmt => stmt

private theorem lowerElse_meets (context : Context) (tidyRet : context.ret.Tidy) (scope : ScopeId) :
    ∀ (stmt? : Option Stmt) (tree : ScopeTree), Stmt.ElseTidy stmt? → tree.Tidy →
      Meets TidyAfter (lowerElse context scope stmt? tree)
  | none, tree, _, tidyTree => .ok tidyTree
  | some stmt, tree, tidy, tidyTree => by
      rw [lowerElse]
      exact (lowerStmt_meets context tidyRet _ stmt _ tidy (tidyTree.child scope)).bind
        fun _ after => .ok after
termination_by structural stmt? => stmt?

private theorem lowerStmts_meets (context : Context) (tidyRet : context.ret.Tidy)
    (scope : ScopeId) :
    ∀ (stmts : List Stmt) (tree : ScopeTree), Stmt.AllTidy stmts → tree.Tidy →
      Meets TidyAfter (lowerStmts context scope stmts tree)
  | [], tree, _, tidyTree => .ok tidyTree
  | first :: rest, tree, tidy, tidyTree => by
      rw [lowerStmts]
      apply (lowerStmt_meets context tidyRet scope first tree tidy.1 tidyTree).bind
      rintro ⟨first, after⟩ tidyAfter
      exact (lowerStmts_meets context tidyRet scope rest after tidy.2 tidyAfter).bind
        fun _ last => .ok last
termination_by structural stmts => stmts

end

private theorem paramType_meets {param : Param} (tidy : param.Tidy) :
    Meets (fun found => found.1.Tidy ∧ found.2.Tidy) (paramType param tree) := by
  unfold paramType
  apply (resolveSpecifier_meets _ forall_mem_none param.span param.spec tree tidy.spec
    tidyTree).bind
  rintro ⟨ty, after⟩ ⟨tidyTy, tidyAfter⟩
  dsimp only
  split
  · split
    · exact .ok ⟨tidyTy, tidyAfter⟩
    · exact .error (.append (.between rfl tidy.name rfl) (.append (.literal rfl) tidyTy.text))
  · split
    · exact .error (.between rfl tidy.name rfl)
    · exact .ok ⟨tidyTy, tidyAfter⟩

private theorem paramTypes_meets {params : List Param} (tidy : ∀ param ∈ params, param.Tidy) :
    Meets (fun found => Ty.AllTidy found.1 ∧ found.2.Tidy) (paramTypes params tree) := by
  induction params generalizing tree with
  | nil => exact .ok ⟨trivial, tidyTree⟩
  | cons param rest ih =>
      obtain ⟨first, others⟩ := List.forall_mem_cons.mp tidy
      rw [paramTypes]
      apply (paramType_meets tidyTree first).bind
      rintro ⟨ty, after⟩ ⟨tidyTy, tidyAfter⟩
      apply (ih tidyAfter others).bind
      rintro ⟨tys, last⟩ ⟨tidyTys, tidyLast⟩
      exact .ok ⟨⟨tidyTy, tidyTys⟩, tidyLast⟩

private theorem storeArguments_meets (scope : ScopeId) (index : Nat) {params : List Param}
    (tidy : ∀ param ∈ params, param.Tidy) {tys : List Ty} (tidyTys : Ty.AllTidy tys) :
    Meets TidyAfter (storeArguments scope index params tys tree) := by
  induction params generalizing index tys tree with
  | nil => exact .ok tidyTree
  | cons param params ih =>
      cases tys with
      | nil => exact .ok tidyTree
      | cons ty tys =>
          obtain ⟨first, others⟩ := List.forall_mem_cons.mp tidy
          rw [storeArguments]
          split
          · exact ih tidyTree (index + 1) others tidyTys.2
          · apply (defineSlot_meets tidyTree scope first.name tidyTys.1 param.span).bind
            rintro ⟨slot, after⟩ tidyAfter
            exact (ih tidyAfter (index + 1) others tidyTys.2).bind fun _ last => .ok last

omit tidyTree

private theorem declareFunction_meets {definition : FunctionDef} (tidy : definition.Tidy)
    {params : List Ty}
    {ret : Ty} (tidyParams : Ty.AllTidy params) (tidyRet : ret.Tidy) {state : State}
    (tidyState : state.tree.Tidy) :
    Meets (fun found => found.2.tree.Tidy) (declareFunction definition params ret state) := by
  have tidyTy : (Ty.func params ret).Tidy := ⟨tidyParams, tidyRet⟩
  have duplicate : Meets (fun found : FunctionId × State => found.2.tree.Tidy)
      (.error (.duplicate definition.name definition.span)) :=
    .error (Diagnostic.oneLine_duplicate tidy.name _)
  unfold declareFunction
  dsimp only
  split
  · rename_i symbol found
    have tidySymbol : symbol.ty.Tidy := tidyState.resolveLocal? found
    split
    · split
      · exact .error (.append (.append (.append (.between rfl tidy.name rfl) tidySymbol.text)
          (.literal rfl)) tidyTy.text)
      · split
        · exact duplicate
        · exact .ok tidyState
    · exact duplicate
  · split
    · exact duplicate
    · rename_i defined
      exact .ok (tidyState.insert? tidyTy defined)

private theorem lowerFunction_meets {definition : FunctionDef} (tidy : definition.Tidy)
    {state : State}
    (tidyState : state.tree.Tidy) :
    Meets (fun after => after.tree.Tidy) (lowerFunction definition state) := by
  unfold lowerFunction
  apply (resolveSpecifier_meets _ forall_mem_none _ definition.returns _ tidy.returns
    tidyState).bind
  rintro ⟨ret, tree⟩ ⟨tidyRet, tidyTree⟩
  apply (paramTypes_meets tidyTree tidy.params).bind
  rintro ⟨params, tree⟩ ⟨tidyParams, tidyTree⟩
  apply (declareFunction_meets tidy tidyParams tidyRet tidyTree).bind
  rintro ⟨id, declared⟩ tidyDeclared
  dsimp only
  split
  · exact .ok tidyDeclared
  · rename_i body same
    apply (storeArguments_meets (tidyDeclared.functionScope _) _ 0 tidy.params tidyParams).bind
    rintro ⟨prologue, tree⟩ tidyTree
    exact (lowerStmts_meets _ tidyRet _ body tree (tidy.body body same) tidyTree).bind
      fun _ after => .ok after

/-! ### The whole source -/

theorem initialTree_tidy : initialTree.Tidy := by
  have symbols : ∀ entry ∈ predeclared, entry.2.ty.Tidy := by simp [predeclared, Ty.Tidy]
  have types : ∀ entry ∈ predeclaredTypes, entry.2.Tidy := by simp [predeclaredTypes, Ty.Tidy]
  rw [initialTree_eq]
  intro id
  cases id with
  | zero => exact ⟨symbols, types⟩
  | succ id => exact ⟨List.forall_mem_nil _, List.forall_mem_nil _⟩

private theorem lowerItem_meets {item : Item} (tidy : item.Tidy) {state : State}
    (tidyState : state.tree.Tidy) :
    Meets (fun after => after.tree.Tidy) (lowerItem item state) := by
  cases item with
  | function definition => exact lowerFunction_meets tidy tidyState
  | declaration declaration =>
      exact (lowerDeclaration_meets tidyState _ tidy).bind fun _ after => .ok after

theorem lowerItems_meets {items : List Item} (tidy : ∀ item ∈ items, item.Tidy)
    {state : State}
    (tidyState : state.tree.Tidy) :
    Meets (fun after => after.tree.Tidy) (lowerItems items state) := by
  induction items generalizing state with
  | nil => exact .ok tidyState
  | cons item rest ih =>
      obtain ⟨first, others⟩ := List.forall_mem_cons.mp tidy
      rw [lowerItems]
      exact (lowerItem_meets first tidyState).bind fun _ after => ih others after

end MiniC.Lowering

namespace MiniC

theorem lower_oneLine {items : List Item} {fault : Diagnostic} (tidy : ∀ item ∈ items, item.Tidy)
    (refused : lower items = .error fault) : Text.OneLine fault.message := by
  have meets : Lowering.Meets (fun _ => True) (lower items) :=
    (Lowering.lowerItems_meets tidy Lowering.initialTree_tidy).bind fun _ _ => .ok trivial
  rw [refused] at meets
  cases meets with
  | error oneLine => exact oneLine

end MiniC
