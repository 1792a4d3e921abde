import MiniC.Proofs.Lowering.Tidy.Rules
import MiniC.Proofs.Syntax.Tidy.Rules

/-!
The faults of expressions are told on one line.

In a tidy scope tree the term of a tidy expression has a tidy type, and whatever stands in the way
of a term is told on one line.
-/

namespace MiniC

open Text (OneLine)

def Term.Tidy (term : Term) : Prop := term.ty.Tidy

theorem Builtin.oneLine_name (builtin : Builtin) : OneLine builtin.signature.name := by
  cases builtin <;> exact .literal rfl

private theorem Builtin.tidy_ret (builtin : Builtin) : builtin.signature.ret.Tidy := by
  cases builtin <;> trivial

namespace Lowering

variable {tree : ScopeTree} {scope : ScopeId} {left right operand term : Term}

private theorem convert_tidy (term : Term) (kind : Kind) : (convert term kind).Tidy := by
  rw [Term.Tidy, convert_ty]
  trivial

theorem coerce_meets (tidy : term.Tidy) {target : Ty} (tidyTarget : target.Tidy) :
    Meets Term.Tidy (coerce term target) := by
  unfold coerce
  split
  · exact .ok tidy
  · split
    · exact .ok (convert_tidy _ _)
    · exact .ok (convert_tidy _ _)
    · exact .ok trivial
    · exact .error (.append (.between rfl tidy.text rfl) tidyTarget.text)

private theorem widen_tidy {ty : Ty} (tidy : ty.Tidy) : (widen ty).Tidy := by
  unfold widen
  split
  · trivial
  · exact tidy

private theorem oneLine_invalidOperands (op : BinaryOp) {first second : Ty} (tidyFirst : first.Tidy)
    (tidySecond : second.Tidy) (span : Span) :
    OneLine (invalidOperands op first second span).message :=
  .append (.append (.append (.between rfl op.oneLine_symbol rfl) tidyFirst.text) (.literal rfl))
    tidySecond.text

section Binary

variable (op : BinaryOp) (tidyLeft : left.Tidy) (tidyRight : right.Tidy) (span : Span)

include tidyLeft tidyRight

private theorem commonKind_meets : Meets (fun _ => True) (commonKind op left right span) := by
  unfold commonKind
  split
  · exact .ok trivial
  · exact .error (.append (.between rfl op.oneLine_symbol rfl)
      (Ty.oneLine_noCommonKind (widen_tidy tidyLeft) (widen_tidy tidyRight)))

private theorem binary_meets : Meets Term.Tidy (binary op left right span) := by
  have invalid : Meets Term.Tidy (.error (invalidOperands op left.ty right.ty span)) :=
    .error (oneLine_invalidOperands op tidyLeft tidyRight span)
  unfold binary
  dsimp only
  split
  · split
    · exact .ok trivial
    · exact invalid
  · generalize (if left.ty = .bool ∧ right.ty = .bool then _ else none) = boolFn?
    split
    · exact .ok trivial
    · exact (commonKind_meets op tidyLeft tidyRight span).bind fun _ _ => .ok trivial
  · apply (commonKind_meets op tidyLeft tidyRight span).bind
    intro kind _
    split
    · exact .ok trivial
    · exact invalid
  · split
    · split
      · exact .ok trivial
      · exact invalid
    · exact invalid

end Binary

private theorem unary_meets (op : UnaryOp) (tidy : operand.Tidy) (span : Span) :
    Meets Term.Tidy (unary op operand span) := by
  unfold unary
  split
  · split
    · exact .ok trivial
    · exact .error (.append (.literal rfl) tidy.text)
  · split
    · exact .error (.append (.literal rfl) tidy.text)
    · split
      · exact .ok (convert_tidy _ _)
      · split
        · exact .ok trivial
        · exact .error (.append (.literal rfl) tidy.text)
      · exact .ok trivial

private theorem unify_meets (tidyLeft : left.Tidy) (tidyRight : right.Tidy) (span : Span) :
    Meets (fun unified => unified.2.2.Tidy) (unify left right span) := by
  unfold unify
  split
  · exact .ok tidyLeft
  · split
    · exact .ok trivial
    · exact .error (.append (.between rfl tidyLeft.text rfl) tidyRight.text)

private theorem cast_meets (tidy : operand.Tidy) {target : Ty} (tidyTarget : target.Tidy)
    (span : Span) :
    Meets Term.Tidy (cast operand target span) := by
  have invalid : Meets Term.Tidy
      (.error (.mismatch s!"cannot cast {operand.ty.text} to {target.text}" span)) :=
    .error (.append (.between rfl tidy.text rfl) tidyTarget.text)
  unfold cast
  dsimp only
  split
  · split
    · exact .ok (convert_tidy _ _)
    · exact invalid
  · split
    · exact coerce_meets tidy tidyTarget
    · exact invalid
  · cases operand
    exact .ok trivial
  · exact invalid

private theorem conditionTerm_meets (tidy : term.Tidy) : Meets Term.Tidy (conditionTerm term) := by
  unfold conditionTerm
  split
  · exact .ok tidy
  · exact .error (.append (.literal rfl) tidy.text)

mutual

theorem resolveSpecifier_meets (scope : ScopeId) {hint : Option String}
    (named : ∀ name ∈ hint, OneLine name) (span : Span) : ∀ (spec : Specifier) (tree : ScopeTree),
      spec.Tidy → tree.Tidy →
      Meets (fun found => found.1.Tidy ∧ found.2.Tidy) (resolveSpecifier scope hint span spec tree)
  | .int, _, _, tidyTree => .ok ⟨trivial, tidyTree⟩
  | .unsignedInt, _, _, tidyTree => .ok ⟨trivial, tidyTree⟩
  | .long, _, _, tidyTree => .ok ⟨trivial, tidyTree⟩
  | .unsignedLong, _, _, tidyTree => .ok ⟨trivial, tidyTree⟩
  | .float, _, _, tidyTree => .ok ⟨trivial, tidyTree⟩
  | .double, _, _, tidyTree => .ok ⟨trivial, tidyTree⟩
  | .bool, _, _, tidyTree => .ok ⟨trivial, tidyTree⟩
  | .void, _, _, tidyTree => .ok ⟨trivial, tidyTree⟩
  | .named name, tree, tidy, tidyTree => by
      rw [resolveSpecifier]
      split
      · rename_i found
        exact .ok ⟨tidyTree.resolveType? found, tidyTree⟩
      · exact .error (Diagnostic.oneLine_unknown tidy span)
  | .struct tag? specs _, tree, tidy, tidyTree => by
      rw [resolveSpecifier]
      apply (resolveMembers_meets scope specs [] tree tidy.2 trivial tidyTree).bind
      rintro ⟨members, after⟩ ⟨tidyMembers, tidyAfter⟩
      cases tag? with
      | some tag =>
          have tidyTy : (Ty.struct tag members).Tidy := ⟨tidy.1 tag rfl, tidyMembers⟩
          exact .ok ⟨tidyTy, tidyAfter.defineType scope tag tidyTy⟩
      | none =>
          refine .ok ⟨⟨?_, tidyMembers⟩, tidyAfter⟩
          cases hint with
          | some name => exact named name rfl
          | none => exact .literal rfl
termination_by structural spec => spec

private theorem resolveMembers_meets (scope : ScopeId) :
    ∀ (specs : List Member) (found : List (String × Ty)) (tree : ScopeTree),
      Member.AllTidy specs → Ty.MembersTidy found → tree.Tidy →
      Meets (fun found => Ty.MembersTidy found.1 ∧ found.2.Tidy)
        (resolveMembers scope specs found tree)
  | [], _, _, _, tidyFound, tidyTree => .ok ⟨tidyFound, tidyTree⟩
  | .mk spec name isArray span :: rest, found, tree, tidy, tidyFound, tidyTree => by
      rw [resolveMembers]
      apply (resolveSpecifier_meets scope forall_mem_none span spec tree tidy.1.1 tidyTree).bind
      rintro ⟨ty, after⟩ ⟨tidyTy, tidyAfter⟩
      dsimp only
      split
      · exact .error (.between rfl tidy.1.2 rfl)
      · split
        · exact .error (Diagnostic.oneLine_duplicate tidy.1.2 span)
        · exact resolveMembers_meets scope rest _ after tidy.2
            (tidyFound.append ⟨tidyTy, trivial⟩) tidyAfter
termination_by structural specs => specs

end

def TidyPlace (place : Place × Ty) : Prop := place.2.Tidy

section Names

variable (tidyTree : tree.Tidy) {name : String} (named : OneLine name)

include tidyTree named

private theorem resolve_meets (scope : ScopeId) (span : Span) :
    Meets (fun symbol => symbol.ty.Tidy) (resolve tree scope name span) := by
  unfold resolve
  split
  · rename_i found
    exact .ok (tidyTree.resolve? found)
  · exact .error (Diagnostic.oneLine_unknown named span)

private theorem identTerm_meets (scope : ScopeId) (span : Span) :
    Meets Term.Tidy (identTerm tree scope name span) := by
  unfold identTerm
  apply (resolve_meets tidyTree named scope span).bind
  intro symbol tidy
  split
  · exact .ok tidy
  · exact .ok tidy
  · exact .ok tidy
  · exact .error (.between rfl named rfl)

private theorem identPlace_meets (scope : ScopeId) (span : Span) :
    Meets TidyPlace (identPlace tree scope name span) := by
  unfold identPlace
  apply (resolve_meets tidyTree named scope span).bind
  intro symbol tidy
  split
  · exact .ok tidy
  · exact .ok tidy
  · exact .error (.between rfl named rfl)

private theorem callee_meets (scope : ScopeId) (nameSpan : Span) (count : Nat) (span : Span) :
    Meets (fun found => Ty.AllTidy found.2.1 ∧ found.2.2.Tidy)
      (callee tree scope name nameSpan count span) := by
  unfold callee
  apply (resolve_meets tidyTree named scope nameSpan).bind
  intro symbol tidy
  split
  · rename_i same
    rw [same] at tidy
    split
    · exact .ok tidy
    · exact .error (.append (.append (.append (.between rfl named rfl) (.natural _)) (.literal rfl))
        (.natural _))
  · exact .error (.between rfl named rfl)

end Names

theorem asIndex_meets {refusal : String} (oneLine : OneLine refusal) (tidy : term.Tidy) :
    Meets Term.Tidy (asIndex refusal term) := by
  unfold asIndex
  split
  · exact .ok (convert_tidy _ _)
  · exact .error (.append (.append oneLine (.literal rfl)) tidy.text)

section Places

variable (tidyTree : tree.Tidy) (scope : ScopeId) {base : Expr} (tidyBase : base.Tidy)

include tidyTree tidyBase

private theorem referenceVariable_meets :
    Meets (fun found => found.2.Tidy) (referenceVariable tree scope base) := by
  unfold referenceVariable
  split
  · rename_i span name
    apply (resolve_meets tidyTree tidyBase scope span).bind
    intro symbol tidy
    split
    · exact .ok tidy
    · exact .error (.append (.append (.between rfl tidyBase rfl) tidy.text) (.literal rfl))
  · exact .error (.literal rfl)

private theorem elementPlace_meets {index : Except Diagnostic Term}
    (meets : Meets Term.Tidy index) :
    Meets TidyPlace (elementPlace tree scope base index) := by
  unfold elementPlace
  apply (referenceVariable_meets tidyTree scope tidyBase).bind
  rintro ⟨slot, ty⟩ tidy
  dsimp only
  split
  · apply meets.bind
    intro term tidyTerm
    exact (asIndex_meets (.literal rfl) tidyTerm).bind fun _ _ => .ok tidy
  · exact .error (.between rfl tidy.text rfl)

private theorem fieldPlace_meets {name : String} (named : OneLine name) (span : Span) :
    Meets TidyPlace (fieldPlace tree scope base name span) := by
  unfold fieldPlace
  apply (referenceVariable_meets tidyTree scope tidyBase).bind
  rintro ⟨slot, ty⟩ tidy
  dsimp only
  split
  · split
    · rename_i found
      exact .ok (tidy.2.memberAt? found)
    · exact .error (Diagnostic.oneLine_unknownMember tidy.text named span)
  · exact .error (.append (.literal rfl) tidy.text)

end Places

private theorem storable_meets (tidy : term.Tidy) {ty : Ty} (tidyTy : ty.Tidy) :
    Meets Term.Tidy (storable term ty) := by
  unfold storable
  split
  · split
    · exact .ok tidy
    · exact .error (.append (.between rfl tidy.text rfl) tidyTy.text)
  · exact coerce_meets tidy tidyTy

private theorem updateTerm_meets (op : BinaryOp) {target : Place × Ty}
    (tidyTarget : TidyPlace target)
    (targetSpan : Span) (tidy : right.Tidy) (yieldsOld : Bool) (span : Span) :
    Meets Term.Tidy (updateTerm op target targetSpan right yieldsOld span) := by
  obtain ⟨place, ty⟩ := target
  have symbol := op.oneLine_symbol
  unfold updateTerm
  dsimp only
  split
  · exact .error (.append (.between rfl symbol rfl) tidyTarget.text)
  · exact .error (.append (.append (.append (.between rfl symbol rfl) tidyTarget.text)
      (.literal rfl)) tidy.text)
  · split
    · split
      · exact .error (oneLine_invalidOperands op tidyTarget tidy span)
      · exact .ok tidyTarget
    · split
      · exact .error (oneLine_invalidOperands op tidyTarget tidy span)
      · exact .ok tidyTarget
    · exact .error (.between rfl symbol rfl)

private theorem argument_meets (tidy : term.Tidy) {param : Ty} (tidyParam : param.Tidy) :
    Meets Term.Tidy (argument term param) := by
  have refused : Meets Term.Tidy (.error
      (.mismatch s!"argument of type {term.ty.text} where {param.text} is expected" term.span)) :=
    .error (.append (.append (.between rfl tidy.text rfl) tidyParam.text) (.literal rfl))
  unfold argument
  split
  · split
    · exact .ok tidy
    · exact refused
  · split
    · exact .ok tidy
    · exact refused
  · exact coerce_meets tidy tidyParam

private theorem arguments_meets {args : List Term} (tidy : ∀ arg ∈ args, arg.Tidy)
    {params : List Ty}
    (tidyParams : Ty.AllTidy params) : Meets (fun _ => True) (arguments args params) := by
  induction args generalizing params with
  | nil => exact .ok trivial
  | cons arg args ih =>
      cases params with
      | nil => exact .ok trivial
      | cons param params =>
          obtain ⟨first, rest⟩ := List.forall_mem_cons.mp tidy
          rw [arguments]
          apply (argument_meets first tidyParams.1).bind
          intro _ _
          exact (ih rest tidyParams.2).bind fun _ _ => .ok trivial

private theorem oneLine_arityMismatch (builtin : Builtin) (count : Nat) (span : Span) :
    OneLine (arityMismatch builtin.signature count span).message := by
  have least : OneLine (if builtin.signature.variadic then "at least " else "") := by
    split <;> exact .literal rfl
  unfold arityMismatch
  exact .append (.append (.append (.append (.between rfl builtin.oneLine_name rfl) least)
    (.natural _)) (.literal rfl)) (.natural _)

private theorem builtinArgument_meets (builtin : Builtin) (position : Nat)
    (param? : Option ParamKind)
    (tidy : term.Tidy) :
    Meets (fun _ => True) (builtinArgument builtin.signature position param? term) := by
  have refused {wanted : String} (oneLine : OneLine wanted) : Meets (fun _ : Term => True)
      (.error (.mismatch
      s!"argument {position + 1} of '{builtin.signature.name}' must be {wanted}, not {term.ty.text}"
      term.span)) :=
    .error (.append (.append (.append (.append (.append (.between rfl (.natural _) rfl)
      builtin.oneLine_name) (.literal rfl)) oneLine) (.literal rfl)) tidy.text)
  unfold builtinArgument
  dsimp only
  split
  · split
    · exact .ok trivial
    · exact refused (Kind.oneLine_name _)
  · split
    · exact .ok trivial
    · exact refused (.literal rfl)
  · split
    · exact .ok trivial
    · exact refused (.literal rfl)
  · split
    · exact .ok trivial
    · exact .ok trivial
    · exact .ok trivial
    · exact refused (.literal rfl)

private theorem builtinArguments_meets (builtin : Builtin) (position : Nat)
    (params : List ParamKind)
    {args : List Term} (tidy : ∀ arg ∈ args, arg.Tidy) :
    Meets (fun _ => True) (builtinArguments builtin.signature position params args) := by
  induction args generalizing position params with
  | nil => exact .ok trivial
  | cons arg args ih =>
      obtain ⟨first, rest⟩ := List.forall_mem_cons.mp tidy
      rw [builtinArguments]
      apply (builtinArgument_meets builtin position _ first).bind
      intro _ _
      exact (ih _ _ rest).bind fun _ _ => .ok trivial

private theorem syncArguments_meets (tidyTree : tree.Tidy) (scope : ScopeId) (span : Span) :
    Meets (fun _ => True) (syncArguments tree scope span) := by
  unfold syncArguments
  split
  · exact .ok trivial
  · rename_i symbol found
    dsimp only
    split
    · exact .ok trivial
    · exact .error (.append (.literal rfl) (tidyTree.resolve? found).text)

/-! ### Expressions -/

mutual

theorem lowerExpr_meets (scope : ScopeId) : ∀ (expr : Expr) (tree : ScopeTree), expr.Tidy →
    tree.Tidy → Meets Term.Tidy (lowerExpr scope expr tree)
  | .int _ _, _, _, _ => .ok trivial
  | .float _ _ single, _, _, _ => by
      rw [lowerExpr]
      split
      · exact .ok trivial
      · exact .ok trivial
  | .char _ _, _, _, _ => .ok trivial
  | .str _ _, _, _, _ => .ok trivial
  | .bool _ _, _, _, _ => .ok trivial
  | .ident span _, _, tidy, tidyTree => identTerm_meets tidyTree tidy scope span
  | .binary span op left right, tree, tidy, tidyTree => by
      rw [lowerExpr]
      apply (lowerExpr_meets scope left tree tidy.1 tidyTree).bind
      intro left tidyLeft
      apply (lowerExpr_meets scope right tree tidy.2 tidyTree).bind
      intro right tidyRight
      exact binary_meets op tidyLeft tidyRight span
  | .assign span none target value, tree, tidy, tidyTree => by
      rw [lowerExpr]
      apply (lowerPlace_meets scope target tree tidy.1 tidyTree).bind
      rintro ⟨place, ty⟩ tidyPlace
      dsimp only
      split
      · exact .error (.literal rfl)
      · apply (lowerExpr_meets scope value tree tidy.2 tidyTree).bind
        intro value tidyValue
        exact (storable_meets tidyValue tidyPlace).bind fun _ _ => .ok tidyPlace
  | .assign span (some op) target value, tree, tidy, tidyTree => by
      rw [lowerExpr]
      apply (lowerExpr_meets scope value tree tidy.2 tidyTree).bind
      intro rhs tidyRhs
      apply (lowerPlace_meets scope target tree tidy.1 tidyTree).bind
      intro place tidyPlace
      exact updateTerm_meets op tidyPlace _ tidyRhs false span
  | .unary span op operand, tree, tidy, tidyTree => by
      rw [lowerExpr]
      apply (lowerExpr_meets scope operand tree tidy tidyTree).bind
      intro operand tidyOperand
      exact unary_meets op tidyOperand span
  | .incDec span _ before operand, tree, tidy, tidyTree => by
      rw [lowerExpr]
      have one : (Term.literal (.i32 1) (.num .i32) span).Tidy := trivial
      apply (lowerPlace_meets scope operand tree tidy tidyTree).bind
      intro place tidyPlace
      exact updateTerm_meets _ tidyPlace _ one (!before) span
  | .call span name nameSpan args, tree, tidy, tidyTree => by
      rw [lowerExpr]
      split
      · rename_i builtin _
        dsimp only
        split
        · exact .error (oneLine_arityMismatch builtin _ span)
        · split
          · exact (syncArguments_meets tidyTree scope span).bind fun _ _ => .ok builtin.tidy_ret
          · apply (lowerExprs_meets scope args tree tidy.2 tidyTree).bind
            intro terms tidyTerms
            exact (builtinArguments_meets builtin 0 _ tidyTerms).bind fun _ _ =>
              .ok builtin.tidy_ret
      · apply (callee_meets tidyTree tidy.1 scope nameSpan args.length span).bind
        rintro ⟨id, params, ret⟩ ⟨tidyParams, tidyRet⟩
        apply (lowerExprs_meets scope args tree tidy.2 tidyTree).bind
        intro terms tidyTerms
        exact (arguments_meets tidyTerms tidyParams).bind fun _ _ => .ok tidyRet
  | .subscript _ base index, tree, tidy, tidyTree => by
      rw [lowerExpr]
      exact (elementPlace_meets tidyTree scope tidy.1
        (lowerExpr_meets scope index tree tidy.2 tidyTree)).map fun _ tidyPlace => tidyPlace
  | .field span owner name, tree, tidy, tidyTree => by
      rw [lowerExpr]
      exact (fieldPlace_meets tidyTree scope tidy.1 tidy.2 span).map fun _ tidyPlace => tidyPlace
  | .conditional span cond yes no, tree, tidy, tidyTree => by
      rw [lowerExpr]
      apply (lowerExpr_meets scope cond tree tidy.1 tidyTree).bind
      intro cond tidyCond
      apply (conditionTerm_meets tidyCond).bind
      intro _ _
      apply (lowerExpr_meets scope yes tree tidy.2.1 tidyTree).bind
      intro yes tidyYes
      apply (lowerExpr_meets scope no tree tidy.2.2 tidyTree).bind
      intro no tidyNo
      exact (unify_meets tidyYes tidyNo span).bind fun _ tidyTy => .ok tidyTy
  | .cast span spec operand, tree, tidy, tidyTree => by
      rw [lowerExpr]
      apply (resolveSpecifier_meets scope forall_mem_none span spec tree tidy.1 tidyTree).bind
      rintro ⟨target, inner⟩ ⟨tidyTarget, tidyInner⟩
      apply (lowerExpr_meets scope operand inner tidy.2 tidyInner).bind
      intro operand tidyOperand
      exact cast_meets tidyOperand tidyTarget span
  | .comma _ left right, tree, tidy, tidyTree => by
      rw [lowerExpr]
      apply (lowerExpr_meets scope left tree tidy.1 tidyTree).bind
      intro left _
      apply (lowerExpr_meets scope right tree tidy.2 tidyTree).bind
      intro right tidyRight
      exact .ok tidyRight
termination_by structural expr => expr

private theorem lowerExprs_meets (scope : ScopeId) : ∀ (exprs : List Expr) (tree : ScopeTree),
    Expr.AllTidy exprs → tree.Tidy →
    Meets (fun terms => ∀ term ∈ terms, Term.Tidy term) (lowerExprs scope exprs tree)
  | [], _, _, _ => .ok (List.forall_mem_nil _)
  | first :: rest, tree, tidy, tidyTree => by
      rw [lowerExprs]
      apply (lowerExpr_meets scope first tree tidy.1 tidyTree).bind
      intro first tidyFirst
      apply (lowerExprs_meets scope rest tree tidy.2 tidyTree).bind
      intro rest tidyRest
      exact .ok (List.forall_mem_cons.mpr ⟨tidyFirst, tidyRest⟩)
termination_by structural exprs => exprs

private theorem lowerPlace_meets (scope : ScopeId) : ∀ (expr : Expr) (tree : ScopeTree), expr.Tidy →
    tree.Tidy → Meets TidyPlace (lowerPlace scope expr tree)
  | .ident span _, _, tidy, tidyTree => identPlace_meets tidyTree tidy scope span
  | .subscript _ _ index, tree, tidy, tidyTree =>
      elementPlace_meets tidyTree scope tidy.1 (lowerExpr_meets scope index tree tidy.2 tidyTree)
  | .field span _ _, _, tidy, tidyTree => fieldPlace_meets tidyTree scope tidy.1 tidy.2 span
  | .int _ _, _, _, _ | .float _ _ _, _, _, _ | .char _ _, _, _, _ | .str _ _, _, _, _
  | .bool _ _, _, _, _ | .binary _ _ _ _, _, _, _ | .assign _ _ _ _, _, _, _
  | .unary _ _ _, _, _, _ | .incDec _ _ _ _, _, _, _ | .call _ _ _ _, _, _, _
  | .conditional _ _ _ _, _, _, _ | .cast _ _ _, _, _, _ | .comma _ _ _, _, _, _ =>
      .error (.literal rfl)
termination_by structural expr => expr

end

theorem lowerCondition_meets (scope : ScopeId) {expr : Expr} (tidy : expr.Tidy)
    (tidyTree : tree.Tidy) : Meets Term.Tidy (lowerCondition scope expr tree) :=
  (lowerExpr_meets scope expr tree tidy tidyTree).bind fun _ tidyTerm =>
    conditionTerm_meets tidyTerm

end Lowering
end MiniC
