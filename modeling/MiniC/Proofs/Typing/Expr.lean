import MiniC.Proofs.Typing.Scope

/-!
Expressions become well-formed terms.

The scope is only read. Each way to find a place or to check a list of arguments
has its own statement; the expression itself is an induction over the syntax.
-/

namespace MiniC

mutual

def Expr.callsFunction : Expr → Bool
  | .int _ _ | .float _ _ _ | .char _ _ | .str _ _ | .bool _ _ | .ident _ _ => false
  | .binary _ _ left right => left.callsFunction || right.callsFunction
  | .assign _ _ target value => target.callsFunction || value.callsFunction
  | .unary _ _ operand => operand.callsFunction
  | .incDec _ _ _ operand => operand.callsFunction
  | .call _ name _ args => (Builtin.find? name).isNone || callFunction args
  | .subscript _ base index => base.callsFunction || index.callsFunction
  | .field _ owner _ => owner.callsFunction
  | .conditional _ cond yes no => cond.callsFunction || yes.callsFunction || no.callsFunction
  | .cast _ _ operand => operand.callsFunction
  | .comma _ left right => left.callsFunction || right.callsFunction
termination_by structural expr => expr

def callFunction : List Expr → Bool
  | [] => false
  | first :: rest => first.callsFunction || callFunction rest
termination_by structural exprs => exprs

end

def Typing.Setting.Permits (setting : Typing.Setting) (calls : Bool) : Prop :=
  setting.calls = false → calls = false

theorem Typing.Setting.permits_or {setting : Typing.Setting} {first second : Bool} :
    setting.Permits (first || second) ↔ setting.Permits first ∧ setting.Permits second := by
  simp only [Permits, Bool.or_eq_false_iff]
  exact forall_and

namespace Lowering

open ScopeTree Typing

variable {setting : Setting} {vars : Variables} {tree : ScopeTree} {scope : ScopeId}

private theorem resolve_eq_ok {name : String} {span : Span} {symbol : Symbol}
    (found : resolve tree scope name span = .ok symbol) :
    tree.resolve? scope name = some symbol := by
  unfold resolve at found
  split at found
  · rename_i resolved
    cases found
    exact resolved
  · cases found

private theorem identTerm_typed {name : String} {span : Span} {term : Term}
    (visible : Visible setting vars tree scope)
    (accepted : identTerm tree scope name span = .ok term) : term.Typed setting vars := by
  unfold identTerm at accepted
  obtain ⟨symbol, found, rest⟩ := bind_eq_ok.mp accepted
  have typed := visible name symbol (resolve_eq_ok found)
  unfold SymbolTyped at typed
  cases storage : symbol.storage with
  | scalar slot =>
      simp only [storage] at typed rest
      cases rest
      exact .natural (.load (.scalar typed.1 typed.2.1 typed.2.2))
  | reference slot =>
      simp only [storage] at typed rest
      cases rest
      exact .natural (.load (.whole typed.1 typed.2.1 typed.2.2))
  | constant value =>
      simp only [storage] at typed rest
      cases rest
      exact .natural (.literal typed)
  | function id =>
      simp only [storage] at rest
      cases rest

private theorem identPlace_typed {name : String} {span : Span} {place : Place} {ty : Ty}
    (visible : Visible setting vars tree scope)
    (accepted : identPlace tree scope name span = .ok (place, ty)) :
    place.Typed setting vars ty := by
  unfold identPlace at accepted
  obtain ⟨symbol, found, rest⟩ := bind_eq_ok.mp accepted
  have typed := visible name symbol (resolve_eq_ok found)
  unfold SymbolTyped at typed
  cases storage : symbol.storage with
  | scalar slot =>
      simp only [storage] at typed rest
      cases rest
      exact .scalar typed.1 typed.2.1 typed.2.2
  | reference slot =>
      simp only [storage] at typed rest
      cases rest
      exact .whole typed.1 typed.2.1 typed.2.2
  | constant value =>
      simp only [storage] at rest
      cases rest
  | function id =>
      simp only [storage] at rest
      cases rest

private theorem referenceVariable_typed {expr : Expr} {slot : Slot} {ty : Ty}
    (visible : Visible setting vars tree scope)
    (accepted : referenceVariable tree scope expr = .ok (slot, ty)) :
    vars.reference slot = some ty ∧ setting.HasReference slot ∧ ty.isObject = true := by
  unfold referenceVariable at accepted
  split at accepted
  · rename_i span name
    obtain ⟨symbol, found, rest⟩ := bind_eq_ok.mp accepted
    have typed := visible name symbol (resolve_eq_ok found)
    unfold SymbolTyped at typed
    split at rest
    · rename_i other storage
      simp only [storage] at typed
      cases rest
      exact typed
    · cases rest
  · cases accepted

private theorem elementPlace_typed {base : Expr} {index : Except Diagnostic Term} {place : Place}
    {ty : Ty}
    (visible : Visible setting vars tree scope)
    (indexTyped : ∀ term, index = .ok term → term.Typed setting vars)
    (accepted : elementPlace tree scope base index = .ok (place, ty)) :
    place.Typed setting vars ty := by
  unfold elementPlace at accepted
  obtain ⟨⟨slot, owner⟩, found, rest⟩ := bind_eq_ok.mp accepted
  obtain ⟨known, has, object⟩ := referenceVariable_typed visible found
  simp only at rest
  split at rest
  · obtain ⟨term, lowered, rest⟩ := bind_eq_ok.mp rest
    obtain ⟨position, converted, rest⟩ := bind_eq_ok.mp rest
    cases rest
    obtain ⟨typed, isIndex⟩ := asIndex_typed (indexTyped term lowered) converted
    cases ty with
    | num kind => exact .element known has typed isIndex
    | bool => cases object
    | str => cases object
    | array inner => cases object
    | func params ret => cases object
    | struct name members => cases object
    | void => cases object
  · cases rest

private theorem memberAt?_getElem? {name : String} {members : List (String × Ty)} {index : Nat}
    {ty : Ty}
    (found : Ty.memberAt? name members = some (index, ty)) :
    members[index]? = some (name, ty) := by
  induction members generalizing index with
  | nil => cases found
  | cons member rest ih =>
      rw [Ty.memberAt?] at found
      split at found
      · rename_i same
        cases found
        rw [List.getElem?_cons_zero, ← same]
      · obtain ⟨⟨position, memberTy⟩, later, same⟩ := Option.map_eq_some_iff.mp found
        cases same
        rw [List.getElem?_cons_succ]
        exact ih later

private theorem fieldPlace_typed {owner : Expr} {name : String} {span : Span} {place : Place}
    {ty : Ty}
    (visible : Visible setting vars tree scope)
    (accepted : fieldPlace tree scope owner name span = .ok (place, ty)) :
    place.Typed setting vars ty := by
  unfold fieldPlace at accepted
  obtain ⟨⟨slot, ownerTy⟩, found, rest⟩ := bind_eq_ok.mp accepted
  obtain ⟨known, has, object⟩ := referenceVariable_typed visible found
  simp only at rest
  split at rest
  · rename_i struct members
    split at rest
    · rename_i index memberTy member
      cases rest
      have listed := memberAt?_getElem? member
      have declarable : (Ty.struct struct members).isDeclarable = true := object
      have scalar := isDeclarable_struct_iff.mp declarable _ (List.mem_of_getElem? listed)
      exact .field known has listed scalar
    · cases rest
  · cases rest

/-! ### Assignments and arguments -/

private theorem storable_typed {value result : Term} {ty : Ty} (typed : value.Typed setting vars)
    (accepted : storable value ty = .ok result) :
    result.Typed setting vars ∧ result.ty = ty := by
  unfold storable at accepted
  split at accepted
  · split at accepted
    · rename_i same
      cases accepted
      exact ⟨typed, same⟩
    · cases accepted
  · exact coerce_typed typed accepted

theorem not_isShift_of_arithmetic {op : BinaryOp} {arith : ArithOp}
    (family : op.family = .arithmetic arith) : isShift arith = false := by
  cases op <;> cases family <;> rfl

/-- The parts of an update. It computes in the common kind of its target and its operand; the count
of a shift keeps its own. -/
theorem updateTerm_eq_ok {op : BinaryOp} {place : Place} {ty : Ty} {targetSpan span : Span}
    {rhs result : Term} {yieldsOld : Bool}
    (accepted : updateTerm op (place, ty) targetSpan rhs yieldsOld span = .ok result) :
    ∃ arith kind operand count fn, ty = .num kind ∧ (arithKind? rhs.ty).isSome = true ∧
      BinaryFn.arith? arith operand = some fn ∧
      (count = operand ∨ (isShift arith = true ∧ count.isInteger = true)) ∧
      result = .mk (.num kind) span (.update place fn operand (convert rhs count) yieldsOld) := by
  unfold updateTerm at accepted
  simp only at accepted
  split at accepted
  · cases accepted
  · cases accepted
  · rename_i targetKind rhsKind target operand
    have numeric := arithKind?_isSome_of_eq operand
    have targetTy : ty = .num targetKind := by
      cases ty with
      | num kind => exact congrArg Ty.num (Option.some.inj target)
      | _ => cases target
    subst targetTy
    split at accepted
    · rename_i arith family
      split at accepted
      · cases accepted
      · rename_i fn found
        cases accepted
        obtain ⟨available, _⟩ := Option.filter_eq_some_iff.mp found
        refine ⟨arith, targetKind, _, _, fn, rfl, numeric, available, Or.inl ?_, rfl⟩
        rw [not_isShift_of_arithmetic family]
        rfl
    · rename_i arith family
      split at accepted
      · cases accepted
      · rename_i fn found
        cases accepted
        obtain ⟨available, allowed⟩ := Option.filter_eq_some_iff.mp found
        refine ⟨arith, targetKind, _, _, fn, rfl, numeric, available, ?_, rfl⟩
        by_cases shift : isShift arith = true
        · rw [if_pos shift]
          simp only [Bool.not_true, Bool.false_or, Bool.and_eq_true] at allowed
          exact Or.inr ⟨shift, allowed.2⟩
        · rw [if_neg shift]
          exact Or.inl rfl
    · cases accepted

private theorem updateTerm_typed {op : BinaryOp} {place : Place} {ty : Ty} {targetSpan span : Span}
    {rhs result : Term} {yieldsOld : Bool} (placeTyped : place.Typed setting vars ty)
    (rhsTyped : rhs.Typed setting vars)
    (accepted : updateTerm op (place, ty) targetSpan rhs yieldsOld span = .ok result) :
    result.Typed setting vars := by
  obtain ⟨arith, kind, operand, count, fn, rfl, numeric, available, counts, rfl⟩ :=
    updateTerm_eq_ok accepted
  obtain ⟨rfl, supported⟩ := arith?_eq_some available
  refine .natural (.update placeTyped (convert_typed count rhsTyped numeric) ⟨supported, rfl, ?_⟩)
  rw [convert_ty]
  rcases counts with same | ⟨shift, integer⟩
  · exact Or.inl (congrArg Ty.num same)
  · exact Or.inr ⟨shift, count, integer, rfl⟩

private theorem argument_typed {arg result : Term} {param : Ty} (typed : arg.Typed setting vars)
    (accepted : argument arg param = .ok result) :
    result.Typed setting vars ∧ result.ty = param := by
  unfold argument at accepted
  split at accepted
  · split at accepted
    · rename_i same
      cases accepted
      exact ⟨typed, same⟩
    · cases accepted
  · split at accepted
    · rename_i same
      cases accepted
      exact ⟨typed, same⟩
    · cases accepted
  · exact coerce_typed typed accepted

private theorem arguments_typed {args result : List Term} {params : List Ty}
    (typed : ∀ arg ∈ args, arg.Typed setting vars) (count : args.length = params.length)
    (accepted : arguments args params = .ok result) : Terms.Typed setting vars result params := by
  induction args generalizing params result with
  | nil =>
      cases params with
      | nil =>
          cases accepted
          exact .nil
      | cons param rest => cases count
  | cons arg rest ih =>
      cases params with
      | nil => cases count
      | cons param others =>
          rw [arguments] at accepted
          obtain ⟨first, acceptedFirst, continued⟩ := bind_eq_ok.mp accepted
          obtain ⟨results, acceptedRest, done⟩ := bind_eq_ok.mp continued
          cases done
          obtain ⟨firstTyped, rfl⟩ := argument_typed (typed arg List.mem_cons_self) acceptedFirst
          refine .cons firstTyped (ih ?_ (Nat.succ.inj count) acceptedRest)
          intro other listed
          exact typed other (List.mem_cons_of_mem arg listed)

private theorem terms_typed_of_forall {args : List Term}
    (typed : ∀ arg ∈ args, arg.Typed setting vars) :
    Terms.Typed setting vars args (args.map Term.ty) := by
  induction args with
  | nil => exact .nil
  | cons arg rest ih =>
      refine .cons (typed arg List.mem_cons_self) (ih ?_)
      intro other listed
      exact typed other (List.mem_cons_of_mem arg listed)

private theorem builtinArgument_typed {signature : Signature} {position : Nat}
    {param? : Option ParamKind}
    {arg result : Term} (typed : arg.Typed setting vars)
    (accepted : builtinArgument signature position param? arg = .ok result) :
    result.Typed setting vars := by
  unfold builtinArgument at accepted
  simp only at accepted
  split at accepted
  · split at accepted
    · rename_i numeric
      cases accepted
      exact convert_typed _ typed numeric
    · cases accepted
  · split at accepted
    · cases accepted
      exact typed
    · cases accepted
  · split at accepted
    · cases accepted
      exact typed
    · cases accepted
  · split at accepted
    · rename_i isBool
      cases accepted
      exact convert_typed _ typed (by rw [isBool]; rfl)
    · cases accepted
      exact typed
    · cases accepted
      exact typed
    · cases accepted

private theorem builtinArguments_typed {signature : Signature} {position : Nat}
    {params : List ParamKind}
    {args result : List Term} (typed : ∀ arg ∈ args, arg.Typed setting vars)
    (accepted : builtinArguments signature position params args = .ok result) :
    ∀ arg ∈ result, arg.Typed setting vars := by
  induction args generalizing position params result with
  | nil =>
      cases accepted
      intro arg listed
      cases listed
  | cons arg rest ih =>
      rw [builtinArguments] at accepted
      obtain ⟨first, acceptedFirst, continued⟩ := bind_eq_ok.mp accepted
      obtain ⟨results, acceptedRest, done⟩ := bind_eq_ok.mp continued
      cases done
      intro other listed
      rcases List.mem_cons.mp listed with rfl | later
      · exact builtinArgument_typed (typed arg List.mem_cons_self) acceptedFirst
      · exact ih (fun arg member => typed arg (List.mem_cons_of_mem _ member)) acceptedRest other
          later

private theorem syncArguments_typed {span : Span} {result : List Term}
    (visible : Visible setting vars tree scope)
    (accepted : syncArguments tree scope span = .ok result) :
    ∀ arg ∈ result, arg.Typed setting vars := by
  intro arg listed
  unfold syncArguments at accepted
  split at accepted
  · cases accepted
    cases listed
  · rename_i symbol found
    have typed := visible "r" symbol found
    simp only at accepted
    split at accepted
    · rename_i slot _ storage
      simp only [SymbolTyped, storage] at typed
      cases accepted
      rw [List.mem_singleton.mp listed]
      exact .natural (.load (.whole typed.1 typed.2.1 typed.2.2))
    · cases accepted

private theorem callee_signature {name : String} {nameSpan span : Span} {count : Nat}
    {id : FunctionId}
    {params : List Ty} {ret : Ty} (visible : Visible setting vars tree scope)
    (accepted : callee tree scope name nameSpan count span = .ok (id, params, ret)) :
    setting.signature? id = some (params, ret) ∧ count = params.length := by
  unfold callee at accepted
  obtain ⟨symbol, found, rest⟩ := bind_eq_ok.mp accepted
  have typed := visible name symbol (resolve_eq_ok found)
  split at rest
  · rename_i storage ty
    split at rest
    · rename_i sameCount
      cases rest
      simp only [SymbolTyped, storage] at typed
      exact ⟨typed params ret ty, sameCount⟩
    · cases rest
  · cases rest

private theorem conditionTerm_eq_ok {term result : Term}
    (accepted : conditionTerm term = .ok result) :
    result = term ∧ isCondition term.ty = true := by
  unfold conditionTerm at accepted
  split at accepted
  · rename_i condition
    cases accepted
    exact ⟨rfl, condition⟩
  · cases accepted

/-! ### Expressions -/

mutual

/-- An expression becomes a well-formed term wherever its symbols mean what the surroundings say. -/
theorem lowerExpr_typed (scope : ScopeId) :
    ∀ (expr : Expr) (tree : ScopeTree) (term : Term), Visible setting vars tree scope →
      setting.Permits expr.callsFunction → lowerExpr scope expr tree = .ok term →
      term.Typed setting vars
  | .int span literal, tree, term, visible, permits, accepted => by
      cases accepted
      exact .natural (.literal (Value.ty?_convert _ _))
  | .float span value single, tree, term, visible, permits, accepted => by
      rw [lowerExpr] at accepted
      split at accepted
      · cases accepted
        exact .natural (.literal rfl)
      · cases accepted
        exact .natural (.literal rfl)
  | .char span code, tree, term, visible, permits, accepted => by
      cases accepted
      exact .natural (.literal rfl)
  | .str span text, tree, term, visible, permits, accepted => by
      cases accepted
      exact .natural (.literal rfl)
  | .bool span value, tree, term, visible, permits, accepted => by
      cases accepted
      exact .natural (.literal rfl)
  | .ident span name, tree, term, visible, permits, accepted => by
      rw [lowerExpr] at accepted
      exact identTerm_typed visible accepted
  | .binary span op left right, tree, term, visible, permits, accepted => by
      rw [lowerExpr] at accepted
      rw [Expr.callsFunction, Setting.permits_or] at permits
      obtain ⟨first, loweredLeft, rest⟩ := bind_eq_ok.mp accepted
      obtain ⟨second, loweredRight, built⟩ := bind_eq_ok.mp rest
      exact binary_typed (lowerExpr_typed scope left tree first visible permits.1 loweredLeft)
        (lowerExpr_typed scope right tree second visible permits.2 loweredRight) built
  | .assign span none target value, tree, term, visible, permits, accepted => by
      rw [lowerExpr] at accepted
      rw [Expr.callsFunction, Setting.permits_or] at permits
      obtain ⟨⟨place, ty⟩, loweredTarget, rest⟩ := bind_eq_ok.mp accepted
      have placeTyped :=
        lowerPlace_typed scope target tree place ty visible permits.1 loweredTarget
      simp only at rest
      split at rest
      · cases rest
      · obtain ⟨source, loweredValue, rest⟩ := bind_eq_ok.mp rest
        obtain ⟨stored, fits, built⟩ := bind_eq_ok.mp rest
        cases built
        obtain ⟨typed, rfl⟩ := storable_typed
          (lowerExpr_typed scope value tree source visible permits.2 loweredValue) fits
        exact .natural (.assign placeTyped typed)
  | .assign span (some op) target value, tree, term, visible, permits, accepted => by
      rw [lowerExpr] at accepted
      rw [Expr.callsFunction, Setting.permits_or] at permits
      obtain ⟨rhs, loweredValue, rest⟩ := bind_eq_ok.mp accepted
      obtain ⟨⟨place, ty⟩, loweredTarget, built⟩ := bind_eq_ok.mp rest
      exact updateTerm_typed
        (lowerPlace_typed scope target tree place ty visible permits.1 loweredTarget)
        (lowerExpr_typed scope value tree rhs visible permits.2 loweredValue) built
  | .unary span op operand, tree, term, visible, permits, accepted => by
      rw [lowerExpr] at accepted
      rw [Expr.callsFunction] at permits
      obtain ⟨inner, lowered, built⟩ := bind_eq_ok.mp accepted
      have innerTyped := lowerExpr_typed scope operand tree inner visible permits lowered
      exact unary_typed innerTyped built
  | .incDec span increment before operand, tree, term, visible, permits, accepted => by
      rw [lowerExpr] at accepted
      rw [Expr.callsFunction] at permits
      obtain ⟨⟨place, ty⟩, lowered, built⟩ := bind_eq_ok.mp accepted
      have placeTyped := lowerPlace_typed scope operand tree place ty visible permits lowered
      exact updateTerm_typed placeTyped (.natural (.literal rfl)) built
  | .call span name nameSpan args, tree, term, visible, permits, accepted => by
      rw [lowerExpr] at accepted
      rw [Expr.callsFunction, Setting.permits_or] at permits
      split at accepted
      · rename_i builtin found
        simp only at accepted
        split at accepted
        · cases accepted
        · split at accepted
          · obtain ⟨taken, synced, built⟩ := bind_eq_ok.mp accepted
            cases built
            exact .natural (.builtin (terms_typed_of_forall (syncArguments_typed visible synced)))
          · obtain ⟨terms, lowered, rest⟩ := bind_eq_ok.mp accepted
            obtain ⟨taken, fits, built⟩ := bind_eq_ok.mp rest
            cases built
            have typed := (lowerExprs_typed scope args tree terms visible permits.2 lowered).1
            exact .natural (.builtin (terms_typed_of_forall (builtinArguments_typed typed fits)))
      · rename_i unknown
        have calls : setting.calls = true := by
          cases allowed : setting.calls with
          | true => rfl
          | false =>
              have none := permits.1 allowed
              rw [unknown] at none
              cases none
        obtain ⟨⟨id, params, ret⟩, named, rest⟩ := bind_eq_ok.mp accepted
        obtain ⟨terms, lowered, rest⟩ := bind_eq_ok.mp rest
        obtain ⟨taken, fits, built⟩ := bind_eq_ok.mp rest
        cases built
        obtain ⟨signature, count⟩ := callee_signature visible named
        obtain ⟨typed, length⟩ :=
          lowerExprs_typed scope args tree terms visible permits.2 lowered
        exact .natural
          (.call calls signature (arguments_typed typed (length.trans count) fits))
  | .subscript span base index, tree, term, visible, permits, accepted => by
      rw [lowerExpr] at accepted
      rw [Expr.callsFunction, Setting.permits_or] at permits
      obtain ⟨⟨place, ty⟩, found, rfl⟩ := map_eq_ok.mp accepted
      refine .natural (.load (elementPlace_typed visible ?_ found))
      intro position lowered
      exact lowerExpr_typed scope index tree position visible permits.2 lowered
  | .field span owner name, tree, term, visible, permits, accepted => by
      rw [lowerExpr] at accepted
      obtain ⟨⟨place, ty⟩, found, rfl⟩ := map_eq_ok.mp accepted
      exact .natural (.load (fieldPlace_typed visible found))
  | .conditional span cond yes no, tree, term, visible, permits, accepted => by
      rw [lowerExpr] at accepted
      rw [Expr.callsFunction, Setting.permits_or, Setting.permits_or] at permits
      obtain ⟨test, loweredCond, rest⟩ := bind_eq_ok.mp accepted
      obtain ⟨checked, conditional, rest⟩ := bind_eq_ok.mp rest
      obtain ⟨first, loweredYes, rest⟩ := bind_eq_ok.mp rest
      obtain ⟨second, loweredNo, rest⟩ := bind_eq_ok.mp rest
      obtain ⟨⟨yes', no', ty⟩, unified, built⟩ := bind_eq_ok.mp rest
      cases built
      obtain ⟨rfl, condition⟩ := conditionTerm_eq_ok conditional
      obtain ⟨yesTyped, noTyped, rfl, sameTy⟩ := unify_typed
        (lowerExpr_typed scope yes tree first visible permits.1.2 loweredYes)
        (lowerExpr_typed scope no tree second visible permits.2 loweredNo) unified
      exact .natural (.conditional
        (lowerExpr_typed scope cond tree checked visible permits.1.1 loweredCond)
        yesTyped noTyped condition sameTy)
  | .cast span spec operand, tree, term, visible, permits, accepted => by
      rw [lowerExpr] at accepted
      rw [Expr.callsFunction] at permits
      obtain ⟨⟨target, inner⟩, resolved, rest⟩ := bind_eq_ok.mp accepted
      obtain ⟨value, lowered, built⟩ := bind_eq_ok.mp rest
      obtain ⟨same, _⟩ := resolveSpecifier_spec scope none span spec tree inner target resolved
      have valueTyped :=
        lowerExpr_typed scope operand inner value (visible.sameSymbols same) permits lowered
      exact cast_typed valueTyped built
  | .comma span left right, tree, term, visible, permits, accepted => by
      rw [lowerExpr] at accepted
      rw [Expr.callsFunction, Setting.permits_or] at permits
      obtain ⟨first, loweredLeft, rest⟩ := bind_eq_ok.mp accepted
      obtain ⟨second, loweredRight, built⟩ := bind_eq_ok.mp rest
      cases built
      exact .natural (.comma
        (lowerExpr_typed scope left tree first visible permits.1 loweredLeft)
        (lowerExpr_typed scope right tree second visible permits.2 loweredRight))
termination_by structural expr => expr

private theorem lowerExprs_typed (scope : ScopeId) :
    ∀ (exprs : List Expr) (tree : ScopeTree) (terms : List Term), Visible setting vars tree scope →
      setting.Permits (callFunction exprs) → lowerExprs scope exprs tree = .ok terms →
      (∀ term ∈ terms, term.Typed setting vars) ∧ terms.length = exprs.length
  | [], tree, terms, visible, permits, accepted => by
      cases accepted
      refine ⟨?_, rfl⟩
      intro term listed
      cases listed
  | first :: rest, tree, terms, visible, permits, accepted => by
      rw [lowerExprs] at accepted
      rw [callFunction, Setting.permits_or] at permits
      obtain ⟨head, loweredFirst, continued⟩ := bind_eq_ok.mp accepted
      obtain ⟨tail, loweredRest, built⟩ := bind_eq_ok.mp continued
      cases built
      obtain ⟨typed, length⟩ :=
        lowerExprs_typed scope rest tree tail visible permits.2 loweredRest
      refine ⟨?_, congrArg Nat.succ length⟩
      intro term listed
      rcases List.mem_cons.mp listed with rfl | later
      · exact lowerExpr_typed scope first tree term visible permits.1 loweredFirst
      · exact typed term later
termination_by structural exprs => exprs

private theorem lowerPlace_typed (scope : ScopeId) :
    ∀ (expr : Expr) (tree : ScopeTree) (place : Place) (ty : Ty),
      Visible setting vars tree scope → setting.Permits expr.callsFunction →
      lowerPlace scope expr tree = .ok (place, ty) → place.Typed setting vars ty
  | .ident span name, tree, place, ty, visible, permits, accepted => by
      rw [lowerPlace] at accepted
      exact identPlace_typed visible accepted
  | .subscript span base index, tree, place, ty, visible, permits, accepted => by
      rw [lowerPlace] at accepted
      rw [Expr.callsFunction, Setting.permits_or] at permits
      refine elementPlace_typed visible ?_ accepted
      intro position lowered
      exact lowerExpr_typed scope index tree position visible permits.2 lowered
  | .field span owner name, tree, place, ty, visible, permits, accepted => by
      rw [lowerPlace] at accepted
      exact fieldPlace_typed visible accepted
  | .int _ _, tree, place, ty, visible, permits, accepted => by cases accepted
  | .float _ _ _, tree, place, ty, visible, permits, accepted => by cases accepted
  | .char _ _, tree, place, ty, visible, permits, accepted => by cases accepted
  | .str _ _, tree, place, ty, visible, permits, accepted => by cases accepted
  | .bool _ _, tree, place, ty, visible, permits, accepted => by cases accepted
  | .binary _ _ _ _, tree, place, ty, visible, permits, accepted => by cases accepted
  | .assign _ _ _ _, tree, place, ty, visible, permits, accepted => by cases accepted
  | .unary _ _ _, tree, place, ty, visible, permits, accepted => by cases accepted
  | .incDec _ _ _ _, tree, place, ty, visible, permits, accepted => by cases accepted
  | .call _ _ _ _, tree, place, ty, visible, permits, accepted => by cases accepted
  | .conditional _ _ _ _, tree, place, ty, visible, permits, accepted => by cases accepted
  | .cast _ _ _, tree, place, ty, visible, permits, accepted => by cases accepted
  | .comma _ _ _, tree, place, ty, visible, permits, accepted => by cases accepted
termination_by structural expr => expr

end

theorem lowerCondition_typed {expr : Expr} {term : Term}
    (visible : Visible setting vars tree scope)
    (permits : setting.Permits expr.callsFunction)
    (accepted : lowerCondition scope expr tree = .ok term) :
    term.Typed setting vars ∧ isCondition term.ty = true := by
  unfold lowerCondition at accepted
  obtain ⟨inner, lowered, checked⟩ := bind_eq_ok.mp accepted
  obtain ⟨rfl, condition⟩ := conditionTerm_eq_ok checked
  exact ⟨lowerExpr_typed scope expr tree term visible permits lowered, condition⟩

end Lowering
end MiniC
