import MiniC.Proofs.Lowering.Mirror

/-!
Lowering the same text in scopes that mirror each other.

An expression only looks names up, so it lowers to the same term wherever the
names mean the same. Declarations and statements lower to the same commands, and
leave scopes behind that mirror each other again.
-/

namespace MiniC

private theorem Builtin.name_of_find? {name : String} {builtin : Builtin}
    (found : Builtin.find? name = some builtin) : builtin.signature.name = name := by
  have named := List.find?_some found
  exact of_decide_eq_true named

namespace Lowering

open ScopeTree

variable {names : Renaming} {left right : ScopeId} {leftTree rightTree : ScopeTree}

private theorem resolve_alike (sees : Sees names left leftTree right rightTree) {name : String}
    (known : names.Known name) (span : Span) :
    Alike (fun first second => second.content = first.content)
      (resolve leftTree left name span) (resolve rightTree right (names.map name) span) := by
  have same := sees.symbols name known
  unfold resolve
  cases found : leftTree.resolve? left name with
  | none =>
      rw [found, Option.map_none, Option.map_eq_none_iff] at same
      rw [same]
      exact .error _ _
  | some symbol =>
      rw [found, Option.map_some, Option.map_eq_some_iff] at same
      obtain ⟨other, otherFound, sameContent⟩ := same
      rw [otherFound]
      exact .ok sameContent

/-- A function is called by its own name. -/
theorem resolve_function_alike (sees : Sees names left leftTree right rightTree) {name : String}
    (admitted : names.Admits (.call name)) (span : Span) :
    Alike (fun first second => second.content = first.content)
      (resolve leftTree left name span) (resolve rightTree right name span) := by
  obtain ⟨known, fixed, _⟩ := admitted
  have alike := resolve_alike sees known span
  rw [fixed] at alike
  exact alike

theorem content_eq {first second : Symbol} (same : second.content = first.content) :
    second.ty = first.ty ∧ second.storage = first.storage :=
  Prod.mk.inj same

private theorem identTerm_alike (sees : Sees names left leftTree right rightTree) {name : String}
    (known : names.Known name) (span : Span) :
    Alike Eq (identTerm leftTree left name span)
      (identTerm rightTree right (names.map name) span) := by
  unfold identTerm
  refine (resolve_alike sees known span).bind ?_
  intro symbol other same
  obtain ⟨sameTy, sameStorage⟩ := content_eq same
  rw [sameTy, sameStorage]
  cases symbol.storage with
  | function id => exact .error _ _
  | _ => exact .refl _

private theorem identPlace_alike (sees : Sees names left leftTree right rightTree) {name : String}
    (known : names.Known name) (span : Span) :
    Alike Eq (identPlace leftTree left name span)
      (identPlace rightTree right (names.map name) span) := by
  unfold identPlace
  refine (resolve_alike sees known span).bind ?_
  intro symbol other same
  obtain ⟨sameTy, sameStorage⟩ := content_eq same
  rw [sameTy, sameStorage]
  cases symbol.storage with
  | scalar slot => exact .refl _
  | reference slot => exact .refl _
  | _ => exact .error _ _

private theorem referenceVariable_alike (sees : Sees names left leftTree right rightTree)
    (expr : Expr)
    (admitted : ∀ mention ∈ expr.mentions, names.Admits mention) :
    Alike Eq (referenceVariable leftTree left expr)
      (referenceVariable rightTree right (expr.rename names.map)) := by
  cases expr with
  | ident span name =>
      refine (resolve_alike sees (admitted (.var name) List.mem_cons_self) span).bind ?_
      intro symbol other same
      obtain ⟨sameTy, sameStorage⟩ := content_eq same
      rw [sameTy, sameStorage]
      cases symbol.storage with
      | reference slot => exact .refl _
      | _ => exact .error _ _
  | _ => exact .error _ _

private theorem elementPlace_alike (sees : Sees names left leftTree right rightTree) (base : Expr)
    {index other : Except Diagnostic Term} (same : Alike Eq index other)
    (admitted : ∀ mention ∈ base.mentions, names.Admits mention) :
    Alike Eq (elementPlace leftTree left base index)
      (elementPlace rightTree right (base.rename names.map) other) := by
  unfold elementPlace
  refine (referenceVariable_alike sees base admitted).bindEq ?_
  rintro ⟨slot, ty⟩
  cases ty with
  | array element =>
      refine same.bindEq ?_
      intro term
      exact .refl _
  | _ => exact .error _ _

private theorem fieldPlace_alike (sees : Sees names left leftTree right rightTree) (owner : Expr)
    (name : String) (span : Span)
    (admitted : ∀ mention ∈ owner.mentions, names.Admits mention) :
    Alike Eq (fieldPlace leftTree left owner name span)
      (fieldPlace rightTree right (owner.rename names.map) name span) := by
  unfold fieldPlace
  refine (referenceVariable_alike sees owner admitted).bindEq ?_
  rintro ⟨slot, ty⟩
  cases ty with
  | struct tag members => exact .refl _
  | _ => exact .error _ _

private theorem callee_alike (sees : Sees names left leftTree right rightTree) {name : String}
    (admitted : names.Admits (.call name)) (nameSpan : Span) (count : Nat) (span : Span) :
    Alike Eq (callee leftTree left name nameSpan count span)
      (callee rightTree right name nameSpan count span) := by
  unfold callee
  refine (resolve_function_alike sees admitted nameSpan).bind ?_
  intro symbol other same
  obtain ⟨sameTy, sameStorage⟩ := content_eq same
  rw [sameTy, sameStorage]
  exact .refl _

private theorem syncArguments_alike (sees : Sees names left leftTree right rightTree)
    (known : names.Known "r") (fixed : names.map "r" = "r") (span : Span) :
    Alike Eq (syncArguments leftTree left span) (syncArguments rightTree right span) := by
  have same := sees.symbols "r" known
  rw [fixed] at same
  unfold syncArguments
  cases found : leftTree.resolve? left "r" with
  | none =>
      rw [found, Option.map_none, Option.map_eq_none_iff] at same
      rw [same]
      exact .refl _
  | some symbol =>
      rw [found, Option.map_some, Option.map_eq_some_iff] at same
      obtain ⟨other, otherFound, sameContent⟩ := same
      obtain ⟨sameTy, sameStorage⟩ := content_eq sameContent
      simp only [otherFound, sameTy, sameStorage]
      exact .refl _

/-! ### Expressions -/

mutual

/-- An expression lowers to the same term wherever the names mean the same. -/
theorem lowerExpr_alike : ∀ (expr : Expr) {leftTree rightTree : ScopeTree},
    Sees names left leftTree right rightTree →
    (∀ mention ∈ expr.mentions, names.Admits mention) →
    Alike Eq (lowerExpr left expr leftTree) (lowerExpr right (expr.rename names.map) rightTree)
  | .int span literal, _, _, _, _ => .refl _
  | .float span value single, _, _, _, _ => .refl _
  | .char span code, _, _, _, _ => .refl _
  | .str span text, _, _, _, _ => .refl _
  | .bool span value, _, _, _, _ => .refl _
  | .ident span name, _, _, sees, admitted =>
      identTerm_alike sees (admitted (.var name) List.mem_cons_self) span
  | .binary span op first second, _, _, sees, admitted => by
      obtain ⟨admitsFirst, admitsSecond⟩ := List.forall_mem_append.mp admitted
      refine (lowerExpr_alike first sees admitsFirst).bindEq fun _ => ?_
      exact (lowerExpr_alike second sees admitsSecond).bindEq fun _ => .refl _
  | .assign span none target value, _, _, sees, admitted => by
      obtain ⟨admitsTarget, admitsValue⟩ := List.forall_mem_append.mp admitted
      refine (lowerPlace_alike target sees admitsTarget).bindEq ?_
      rintro ⟨place, ty⟩
      have stored : Alike Eq
          (lowerExpr left value _ >>= fun value => storable value ty >>= fun value =>
            (pure (.mk ty span (.assign place value)) : Except Diagnostic Term))
          (lowerExpr right (value.rename names.map) _ >>= fun value => storable value ty >>=
            fun value => pure (.mk ty span (.assign place value))) :=
        (lowerExpr_alike value sees admitsValue).bindEq fun _ => .refl _
      cases ty with
      | array element => exact .error _ _
      | _ => exact stored
  | .assign span (some op) target value, _, _, sees, admitted => by
      obtain ⟨admitsTarget, admitsValue⟩ := List.forall_mem_append.mp admitted
      refine (lowerExpr_alike value sees admitsValue).bindEq fun rhs => ?_
      refine (lowerPlace_alike target sees admitsTarget).bindEq fun place => ?_
      rw [Expr.span_rename]
      exact .refl _
  | .unary span op operand, _, _, sees, admitted =>
      (lowerExpr_alike operand sees admitted).bindEq fun _ => .refl _
  | .incDec span increment before operand, _, _, sees, admitted => by
      refine (lowerPlace_alike operand sees admitted).bindEq fun place => ?_
      rw [Expr.span_rename]
      exact .refl _
  | .call span name nameSpan args, leftTree, rightTree, sees, admitted => by
      have admitsName := admitted (.call name) List.mem_cons_self
      have admitsArgs : ∀ mention ∈ Expr.mentionsAll args, names.Admits mention :=
        fun mention listed => admitted mention (List.mem_cons_of_mem _ listed)
      have sameArgs := lowerExprs_alike args sees admitsArgs
      rw [Expr.rename, lowerExpr, lowerExpr, Expr.length_renameAll]
      cases found : Builtin.find? name with
      | none =>
          refine (callee_alike sees admitsName nameSpan args.length span).bindEq ?_
          rintro ⟨id, params, ret⟩
          exact sameArgs.bindEq fun _ => .refl _
      | some builtin =>
          simp only
          split
          · exact .error _ _
          · split
            · rename_i isSync
              have isName : name = "sync_r" := by
                rw [← Builtin.name_of_find? found, isSync]
                rfl
              obtain ⟨known, fixed⟩ := admitsName.2.2 isName
              exact (syncArguments_alike sees known fixed span).bindEq fun _ => .refl _
            · exact sameArgs.bindEq fun _ => .refl _
  | .subscript span base index, _, _, sees, admitted => by
      obtain ⟨admitsBase, admitsIndex⟩ := List.forall_mem_append.mp admitted
      exact (elementPlace_alike sees base (lowerExpr_alike index sees admitsIndex) admitsBase).map _
  | .field span owner name, _, _, sees, admitted =>
      (fieldPlace_alike sees owner name span admitted).map _
  | .conditional span cond yes no, _, _, sees, admitted => by
      obtain ⟨admitsCond, admitsRest⟩ := List.forall_mem_append.mp admitted
      obtain ⟨admitsYes, admitsNo⟩ := List.forall_mem_append.mp admitsRest
      refine (lowerExpr_alike cond sees admitsCond).bindEq fun condTerm => ?_
      refine (Alike.refl (conditionTerm condTerm)).bindEq fun _ => ?_
      refine (lowerExpr_alike yes sees admitsYes).bindEq fun _ => ?_
      exact (lowerExpr_alike no sees admitsNo).bindEq fun _ => .refl _
  | .cast span spec operand, _, _, sees, admitted => by
      refine (resolveSpecifier_alike Sees.namesTypes none span spec sees).bind ?_
      rintro ⟨target, _⟩ ⟨_, _⟩ ⟨rfl, inner⟩
      exact (lowerExpr_alike operand inner admitted).bindEq fun _ => .refl _
  | .comma span first second, _, _, sees, admitted => by
      obtain ⟨admitsFirst, admitsSecond⟩ := List.forall_mem_append.mp admitted
      refine (lowerExpr_alike first sees admitsFirst).bindEq fun _ => ?_
      exact (lowerExpr_alike second sees admitsSecond).bindEq fun _ => .refl _
termination_by structural expr => expr

private theorem lowerExprs_alike : ∀ (exprs : List Expr) {leftTree rightTree : ScopeTree},
    Sees names left leftTree right rightTree →
    (∀ mention ∈ Expr.mentionsAll exprs, names.Admits mention) →
    Alike Eq (lowerExprs left exprs leftTree)
      (lowerExprs right (Expr.renameAll names.map exprs) rightTree)
  | [], _, _, _, _ => .refl _
  | first :: rest, _, _, sees, admitted => by
      obtain ⟨admitsFirst, admitsRest⟩ := List.forall_mem_append.mp admitted
      refine (lowerExpr_alike first sees admitsFirst).bindEq fun _ => ?_
      exact (lowerExprs_alike rest sees admitsRest).bindEq fun _ => .refl _
termination_by structural exprs => exprs

private theorem lowerPlace_alike : ∀ (expr : Expr) {leftTree rightTree : ScopeTree},
    Sees names left leftTree right rightTree →
    (∀ mention ∈ expr.mentions, names.Admits mention) →
    Alike Eq (lowerPlace left expr leftTree) (lowerPlace right (expr.rename names.map) rightTree)
  | .ident span name, _, _, sees, admitted =>
      identPlace_alike sees (admitted (.var name) List.mem_cons_self) span
  | .subscript span base index, _, _, sees, admitted => by
      obtain ⟨admitsBase, admitsIndex⟩ := List.forall_mem_append.mp admitted
      exact elementPlace_alike sees base (lowerExpr_alike index sees admitsIndex) admitsBase
  | .field span owner name, _, _, sees, admitted =>
      fieldPlace_alike sees owner name span admitted
  | .int _ _, _, _, _, _ => .error _ _
  | .float _ _ _, _, _, _, _ => .error _ _
  | .char _ _, _, _, _, _ => .error _ _
  | .str _ _, _, _, _, _ => .error _ _
  | .bool _ _, _, _, _, _ => .error _ _
  | .binary _ _ _ _, _, _, _, _ => .error _ _
  | .assign _ _ _ _, _, _, _, _ => .error _ _
  | .unary _ _ _, _, _, _, _ => .error _ _
  | .incDec _ _ _ _, _, _, _, _ => .error _ _
  | .call _ _ _ _, _, _, _, _ => .error _ _
  | .conditional _ _ _ _, _, _, _, _ => .error _ _
  | .cast _ _ _, _, _, _, _ => .error _ _
  | .comma _ _ _, _, _, _, _ => .error _ _
termination_by structural expr => expr

end

private theorem lowerCondition_alike (sees : Sees names left leftTree right rightTree) (expr : Expr)
    (admitted : ∀ mention ∈ expr.mentions, names.Admits mention) :
    Alike Eq (lowerCondition left expr leftTree)
      (lowerCondition right (expr.rename names.map) rightTree) :=
  (lowerExpr_alike expr sees admitted).bindEq fun _ => .refl _

theorem lowerExpr?_alike (sees : Sees names left leftTree right rightTree) (expr? : Option Expr)
    (admitted : ∀ mention ∈ expr?.elim [] Expr.mentions, names.Admits mention) :
    Alike Eq (expr?.mapM fun expr => lowerExpr left expr leftTree)
      ((expr?.map (Expr.rename names.map)).mapM fun expr => lowerExpr right expr rightTree) := by
  cases expr? with
  | none => exact .refl _
  | some expr => exact (lowerExpr_alike expr sees admitted).map some

/-! ### Declarations and statements -/

/-- The same commands, and scopes that mirror each other again. -/
def SameCommands (names : Renaming) (left : ScopeId) (leftTree : ScopeTree) (right : ScopeId)
    (rightTree : ScopeTree) {α : Type} (first second : α × ScopeTree) : Prop :=
  first.1 = second.1 ∧ Moves names left leftTree right rightTree first.2 second.2

private theorem asIndex_alike (refusal other : String) (term : Term) :
    Alike Eq (asIndex refusal term) (asIndex other term) := by
  unfold asIndex
  cases integerKind? term.ty with
  | none => exact .error _ _
  | some kind => exact .refl _

private theorem lowerArray_alike (mirrors : Mirrors names left leftTree right rightTree) (base : Ty)
    (declarator : Declarator) (length : Expr) (known : names.Known declarator.name)
    (admitted : ∀ mention ∈ length.mentions, names.Admits mention) :
    Alike (SameCommands names left leftTree right rightTree)
      (lowerArray left base declarator length leftTree)
      (lowerArray right base (declarator.rename names.map) (length.rename names.map)
        rightTree) := by
  unfold lowerArray
  cases base with
  | num kind =>
      simp only [Declarator.rename, Option.isSome_map]
      split
      · exact .error _ _
      · refine (lowerExpr_alike length mirrors.toSees admitted).bindEq fun term => ?_
        refine (asIndex_alike _ _ term).bindEq fun index => ?_
        refine (defineSlot_alike mirrors known _ declarator.span).bind ?_
        rintro ⟨slot, _⟩ ⟨_, _⟩ ⟨rfl, moves⟩
        exact .ok ⟨rfl, moves⟩
  | _ => exact .error _ _

private theorem lowerStructVariable_alike (mirrors : Mirrors names left leftTree right rightTree)
    (base : Ty) (tag : String) (members : List (String × Ty)) (declarator : Declarator)
    (known : names.Known declarator.name)
    (admitted : ∀ mention ∈ declarator.init?.elim [] Expr.mentions, names.Admits mention) :
    Alike (SameCommands names left leftTree right rightTree)
      (lowerStructVariable left base tag members declarator leftTree)
      (lowerStructVariable right base tag members (declarator.rename names.map) rightTree) := by
  unfold lowerStructVariable
  refine (lowerExpr?_alike mirrors.toSees declarator.init? admitted).bindEq fun init? => ?_
  refine (defineSlot_alike mirrors known base declarator.span).bind ?_
  rintro ⟨slot, _⟩ ⟨_, _⟩ ⟨rfl, moves⟩
  cases init? with
  | none => exact .ok ⟨rfl, moves⟩
  | some init =>
      simp only
      split
      · exact .ok ⟨rfl, moves⟩
      · exact .error _ _

private theorem lowerScalar_alike (mirrors : Mirrors names left leftTree right rightTree)
    (base : Ty)
    (declarator : Declarator) (known : names.Known declarator.name)
    (admitted : ∀ mention ∈ declarator.init?.elim [] Expr.mentions, names.Admits mention) :
    Alike (SameCommands names left leftTree right rightTree)
      (lowerScalar left base declarator leftTree)
      (lowerScalar right base (declarator.rename names.map) rightTree) := by
  have defined (value : Term) : Alike (SameCommands names left leftTree right rightTree)
      (defineSlot leftTree left declarator.name base declarator.span >>= fun defined =>
        pure ([Command.expr (.mk base declarator.span (.assign (.scalar defined.1) value))],
          defined.2))
      (defineSlot rightTree right (names.map declarator.name) base declarator.span >>=
        fun defined =>
          pure ([Command.expr (.mk base declarator.span (.assign (.scalar defined.1) value))],
            defined.2)) := by
    refine (defineSlot_alike mirrors known base declarator.span).bind ?_
    rintro ⟨slot, _⟩ ⟨_, _⟩ ⟨rfl, moves⟩
    exact .ok ⟨rfl, moves⟩
  unfold lowerScalar
  simp only [Declarator.rename]
  cases initAt : declarator.init? with
  | none => exact defined (.literal (.initial base) base declarator.span)
  | some init =>
      rw [initAt] at admitted
      refine (lowerExpr_alike init mirrors.toSees admitted).bindEq fun term => ?_
      exact (Alike.refl (coerce term base)).bindEq defined

private theorem lowerDeclarator_alike (mirrors : Mirrors names left leftTree right rightTree)
    (base : Ty)
    (declarator : Declarator)
    (admitted : ∀ mention ∈ declarator.mentions, names.Admits mention) :
    Alike (SameCommands names left leftTree right rightTree)
      (lowerDeclarator left base declarator leftTree)
      (lowerDeclarator right base (declarator.rename names.map) rightTree) := by
  have known : names.Known declarator.name := admitted (.var _) List.mem_cons_self
  obtain ⟨admitsLength, admitsInit⟩ := List.forall_mem_append.mp
    fun mention listed => admitted mention (List.mem_cons_of_mem _ listed)
  unfold lowerDeclarator
  simp only [Declarator.rename]
  cases lengthAt : declarator.length? with
  | some length =>
      rw [lengthAt] at admitsLength
      exact lowerArray_alike mirrors base declarator length known admitsLength
  | none =>
      cases base with
      | struct tag members =>
          exact lowerStructVariable_alike mirrors _ tag members declarator known admitsInit
      | _ => exact lowerScalar_alike mirrors _ declarator known admitsInit

private theorem lowerDeclarators_alike (mirrors : Mirrors names left leftTree right rightTree)
    (base : Ty)
    (declarators : List Declarator)
    (admitted : ∀ mention ∈ declarators.flatMap Declarator.mentions, names.Admits mention) :
    Alike (SameCommands names left leftTree right rightTree)
      (lowerDeclarators left base declarators leftTree)
      (lowerDeclarators right base (declarators.map (Declarator.rename names.map))
        rightTree) := by
  induction declarators generalizing leftTree rightTree with
  | nil => exact .ok ⟨rfl, .refl mirrors⟩
  | cons declarator rest ih =>
      rw [List.flatMap_cons] at admitted
      obtain ⟨admitsFirst, admitsRest⟩ := List.forall_mem_append.mp admitted
      rw [List.map_cons, lowerDeclarators, lowerDeclarators]
      by_cases isVoid : base = .void
      · rw [if_pos isVoid, if_pos isVoid]
        exact .error _ _
      · rw [if_neg isVoid, if_neg isVoid]
        refine (lowerDeclarator_alike mirrors base declarator admitsFirst).bind ?_
        rintro ⟨first, leftMiddle⟩ ⟨_, rightMiddle⟩ ⟨rfl, moves⟩
        refine (ih moves.mirrors admitsRest).bind ?_
        rintro ⟨others, leftAfter⟩ ⟨_, rightAfter⟩ ⟨rfl, further⟩
        exact .ok ⟨rfl, moves.trans further⟩

private theorem defineTypes_alike {leftAfter rightAfter : ScopeTree}
    (moves : Moves names left leftTree right rightTree leftAfter rightAfter) (base : Ty)
    (declarators : List Declarator) :
    Alike (Moves names left leftTree right rightTree)
      (defineTypes left base declarators leftAfter)
      (defineTypes right base declarators rightAfter) := by
  induction declarators generalizing leftAfter rightAfter with
  | nil => exact .ok moves
  | cons declarator rest ih =>
      rw [defineTypes, defineTypes]
      split
      · exact .error _ _
      · exact ih (moves.defineType declarator.name base)

theorem lowerDeclaration_alike (mirrors : Mirrors names left leftTree right rightTree)
    (declaration : Declaration)
    (admitted : ∀ mention ∈ declaration.mentions, names.Admits mention) :
    Alike (SameCommands names left leftTree right rightTree)
      (lowerDeclaration left declaration leftTree)
      (lowerDeclaration right (declaration.rename names.map) rightTree) := by
  unfold Declaration.mentions at admitted
  unfold lowerDeclaration Declaration.rename
  cases typedef : declaration.isTypedef with
  | true =>
      simp only [if_true, typedef]
      refine (resolveSpecifier_alike Moves.namesTypes _ _ _ (.refl mirrors)).bind ?_
      rintro ⟨base, leftMiddle⟩ ⟨_, rightMiddle⟩ ⟨rfl, moves⟩
      refine (defineTypes_alike moves base declaration.declarators).bind ?_
      intro leftAfter rightAfter moves
      exact .ok ⟨rfl, moves⟩
  | false =>
      simp only [typedef, Bool.false_eq_true, if_false] at admitted ⊢
      refine (resolveSpecifier_alike Moves.namesTypes _ _ _ (.refl mirrors)).bind ?_
      rintro ⟨base, leftMiddle⟩ ⟨_, rightMiddle⟩ ⟨rfl, moves⟩
      refine (lowerDeclarators_alike moves.mirrors base _ admitted).imp ?_
      rintro ⟨commands, leftAfter⟩ ⟨_, rightAfter⟩ ⟨rfl, further⟩
      exact ⟨rfl, moves.trans further⟩

private theorem lowerReturn_alike (sees : Sees names left leftTree right rightTree)
    (context : Context)
    (value? : Option Expr) (span : Span)
    (admitted : ∀ mention ∈ value?.elim [] Expr.mentions, names.Admits mention) :
    Alike Eq (lowerReturn context left value? span leftTree)
      (lowerReturn context right (value?.map (Expr.rename names.map)) span rightTree) := by
  unfold lowerReturn
  cases value? with
  | none =>
      cases context.ret with
      | void => exact .refl _
      | _ => exact .error _ _
  | some value =>
      have returned (ty : Ty) : Alike Eq
          (lowerExpr left value leftTree >>= fun term => coerce term ty >>= fun value =>
            (pure (.ret (some value)) : Except Diagnostic Command))
          (lowerExpr right (value.rename names.map) rightTree >>= fun term => coerce term ty >>=
            fun value => pure (.ret (some value))) :=
        (lowerExpr_alike value sees admitted).bindEq fun _ => .refl _
      cases context.ret with
      | void => exact .error _ _
      | _ => exact returned _

theorem lowerForInit_alike (mirrors : Mirrors names left leftTree right rightTree)
    (init : ForInit) (admitted : ∀ mention ∈ init.mentions, names.Admits mention) :
    Alike (SameCommands names left leftTree right rightTree)
      (lowerForInit left init leftTree)
      (lowerForInit right (init.rename names.map) rightTree) := by
  cases init with
  | none => exact .ok ⟨rfl, .refl mirrors⟩
  | decl span declaration =>
      refine (lowerDeclaration_alike mirrors declaration admitted).bind ?_
      rintro ⟨commands, leftAfter⟩ ⟨_, rightAfter⟩ ⟨rfl, moves⟩
      exact .ok ⟨rfl, moves⟩
  | expr span value =>
      refine (lowerExpr_alike value mirrors.toSees admitted).bindEq fun term => ?_
      exact .ok ⟨rfl, .refl mirrors⟩

def lowerForCondition (scope : ScopeId) (cond : Option Expr) (span : Span) (tree : ScopeTree) :
    Except Diagnostic Term :=
  match cond with
  | some cond => lowerCondition scope cond tree
  | none => .ok (.literal (.bool true) .bool span)

theorem lowerForCondition_alike (sees : Sees names left leftTree right rightTree)
    (cond : Option Expr) (span : Span)
    (admitted : ∀ mention ∈ cond.elim [] Expr.mentions, names.Admits mention) :
    Alike Eq (lowerForCondition left cond span leftTree)
      (lowerForCondition right (cond.map (Expr.rename names.map)) span rightTree) := by
  cases cond with
  | none => exact .refl _
  | some cond => exact lowerCondition_alike sees cond admitted

theorem lowerStmt_forLoop (context : Context) (scope : ScopeId) (span : Span) (init : ForInit)
    (cond step : Option Expr) (body : Stmt) (tree : ScopeTree) :
    lowerStmt context scope (.forLoop span init cond step body) tree = (do
      let (first, middle) ← lowerForInit (tree.child scope).1 init (tree.child scope).2
      let condTerm ← lowerForCondition (tree.child scope).1 cond span middle
      let stepTerm ← step.mapM fun step => lowerExpr (tree.child scope).1 step middle
      let (command, after) ← lowerStmt context.loop (middle.child (tree.child scope).1).1 body
        (middle.child (tree.child scope).1).2
      return (.block (first ++ [.whileLoop condTerm command stepTerm]), after)) := by
  rw [lowerStmt]
  cases cond <;> rfl

mutual

/-- A statement lowers to the same command in scopes that mirror each other. -/
theorem lowerStmt_alike : ∀ (stmt : Stmt) (context : Context) {left right : ScopeId}
    {leftTree rightTree : ScopeTree}, Mirrors names left leftTree right rightTree →
    (∀ mention ∈ stmt.mentions, names.Admits mention) →
    Alike (SameCommands names left leftTree right rightTree)
      (lowerStmt context left stmt leftTree)
      (lowerStmt context right (stmt.rename names.map) rightTree)
  | .block _ body, context, _, _, _, _, mirrors, admitted => by
      rw [Stmt.rename, lowerStmt, lowerStmt]
      refine (lowerStmts_alike body context mirrors.child admitted).bind ?_
      rintro ⟨commands, leftAfter⟩ ⟨_, rightAfter⟩ ⟨rfl, moves⟩
      exact .ok ⟨rfl, .of_child mirrors moves⟩
  | .expr _ expr, context, _, _, _, _, mirrors, admitted => by
      rw [Stmt.rename, lowerStmt, lowerStmt]
      refine (lowerExpr_alike expr mirrors.toSees admitted).bindEq fun term => ?_
      exact .ok ⟨rfl, .refl mirrors⟩
  | .decl _ declaration, context, _, _, _, _, mirrors, admitted => by
      rw [Stmt.rename, lowerStmt, lowerStmt]
      refine (lowerDeclaration_alike mirrors declaration admitted).bind ?_
      rintro ⟨commands, leftAfter⟩ ⟨_, rightAfter⟩ ⟨rfl, moves⟩
      exact .ok ⟨rfl, moves⟩
  | .branch _ cond yes no, context, _, _, _, _, mirrors, admitted => by
      obtain ⟨admitsCond, admitsBoth⟩ := List.forall_mem_append.mp admitted
      obtain ⟨admitsYes, admitsNo⟩ := List.forall_mem_append.mp admitsBoth
      rw [Stmt.rename, lowerStmt, lowerStmt]
      refine (lowerCondition_alike mirrors.toSees cond admitsCond).bindEq fun condTerm => ?_
      refine (lowerStmt_alike yes context mirrors.child admitsYes).bind ?_
      rintro ⟨first, leftMiddle⟩ ⟨_, rightMiddle⟩ ⟨rfl, inYes⟩
      have moves := Moves.of_child mirrors inYes
      refine (lowerElse_alike no context moves.mirrors admitsNo).bind ?_
      rintro ⟨second, leftAfter⟩ ⟨_, rightAfter⟩ ⟨rfl, further⟩
      exact .ok ⟨rfl, moves.trans further⟩
  | .whileLoop _ cond body, context, _, _, _, _, mirrors, admitted => by
      obtain ⟨admitsCond, admitsBody⟩ := List.forall_mem_append.mp admitted
      rw [Stmt.rename, lowerStmt, lowerStmt]
      refine (lowerCondition_alike mirrors.toSees cond admitsCond).bindEq fun condTerm => ?_
      refine (lowerStmt_alike body context.loop mirrors.child admitsBody).bind ?_
      rintro ⟨command, leftAfter⟩ ⟨_, rightAfter⟩ ⟨rfl, moves⟩
      exact .ok ⟨rfl, .of_child mirrors moves⟩
  | .doLoop _ body cond, context, _, _, _, _, mirrors, admitted => by
      obtain ⟨admitsBody, admitsCond⟩ := List.forall_mem_append.mp admitted
      rw [Stmt.rename, lowerStmt, lowerStmt]
      refine (lowerStmt_alike body context.loop mirrors.child admitsBody).bind ?_
      rintro ⟨command, leftAfter⟩ ⟨_, rightAfter⟩ ⟨rfl, inBody⟩
      have moves := Moves.of_child mirrors inBody
      refine (lowerCondition_alike moves.mirrors.toSees cond admitsCond).bindEq fun condTerm => ?_
      exact .ok ⟨rfl, moves⟩
  | .forLoop span init cond step body, context, _, _, _, _, mirrors, admitted => by
      obtain ⟨admitsInit, admitted⟩ := List.forall_mem_append.mp admitted
      obtain ⟨admitsCond, admitted⟩ := List.forall_mem_append.mp admitted
      obtain ⟨admitsStep, admitsBody⟩ := List.forall_mem_append.mp admitted
      rw [Stmt.rename, lowerStmt_forLoop, lowerStmt_forLoop]
      refine (lowerForInit_alike mirrors.child init admitsInit).bind ?_
      rintro ⟨first, leftMiddle⟩ ⟨_, rightMiddle⟩ ⟨rfl, inHead⟩
      refine (lowerForCondition_alike inHead.mirrors.toSees cond span admitsCond).bindEq
        fun condTerm => ?_
      refine (lowerExpr?_alike inHead.mirrors.toSees step admitsStep).bindEq fun stepTerm => ?_
      refine (lowerStmt_alike body context.loop inHead.mirrors.child admitsBody).bind ?_
      rintro ⟨command, leftAfter⟩ ⟨_, rightAfter⟩ ⟨rfl, inBody⟩
      exact .ok ⟨rfl, .of_child mirrors (inHead.trans (.of_child inHead.mirrors inBody))⟩
  | .ret span value, context, _, _, _, _, mirrors, admitted => by
      rw [Stmt.rename, lowerStmt, lowerStmt]
      refine (lowerReturn_alike mirrors.toSees context value span admitted).bindEq
        fun command => ?_
      exact .ok ⟨rfl, .refl mirrors⟩
  | .brk span, context, _, _, _, _, mirrors, _ => by
      rw [Stmt.rename, lowerStmt, lowerStmt]
      refine (Alike.refl (needLoop context "break" .brk span)).bindEq fun command => ?_
      exact .ok ⟨rfl, .refl mirrors⟩
  | .cont span, context, _, _, _, _, mirrors, _ => by
      rw [Stmt.rename, lowerStmt, lowerStmt]
      refine (Alike.refl (needLoop context "continue" .cont span)).bindEq fun command => ?_
      exact .ok ⟨rfl, .refl mirrors⟩
  | .empty _, _, _, _, _, _, mirrors, _ => .ok ⟨rfl, .refl mirrors⟩
termination_by structural stmt => stmt

private theorem lowerElse_alike : ∀ (no : Option Stmt) (context : Context) {left right : ScopeId}
    {leftTree rightTree : ScopeTree}, Mirrors names left leftTree right rightTree →
    (∀ mention ∈ Stmt.mentionsElse no, names.Admits mention) →
    Alike (SameCommands names left leftTree right rightTree)
      (lowerElse context left no leftTree)
      (lowerElse context right (Stmt.renameElse names.map no) rightTree)
  | none, _, _, _, _, _, mirrors, _ => .ok ⟨rfl, .refl mirrors⟩
  | some stmt, context, _, _, _, _, mirrors, admitted => by
      rw [Stmt.renameElse, lowerElse, lowerElse]
      refine (lowerStmt_alike stmt context mirrors.child admitted).bind ?_
      rintro ⟨command, leftAfter⟩ ⟨_, rightAfter⟩ ⟨rfl, moves⟩
      exact .ok ⟨rfl, .of_child mirrors moves⟩
termination_by structural no => no

theorem lowerStmts_alike : ∀ (stmts : List Stmt) (context : Context) {left right : ScopeId}
    {leftTree rightTree : ScopeTree}, Mirrors names left leftTree right rightTree →
    (∀ mention ∈ Stmt.mentionsAll stmts, names.Admits mention) →
    Alike (SameCommands names left leftTree right rightTree)
      (lowerStmts context left stmts leftTree)
      (lowerStmts context right (Stmt.renameAll names.map stmts) rightTree)
  | [], _, _, _, _, _, mirrors, _ => .ok ⟨rfl, .refl mirrors⟩
  | first :: rest, context, _, _, _, _, mirrors, admitted => by
      obtain ⟨admitsFirst, admitsRest⟩ := List.forall_mem_append.mp admitted
      rw [Stmt.renameAll, lowerStmts, lowerStmts]
      refine (lowerStmt_alike first context mirrors admitsFirst).bind ?_
      rintro ⟨command, leftMiddle⟩ ⟨_, rightMiddle⟩ ⟨rfl, moves⟩
      refine (lowerStmts_alike rest context moves.mirrors admitsRest).bind ?_
      rintro ⟨commands, leftAfter⟩ ⟨_, rightAfter⟩ ⟨rfl, further⟩
      exact .ok ⟨rfl, moves.trans further⟩
termination_by structural stmts => stmts

end

end Lowering
end MiniC
