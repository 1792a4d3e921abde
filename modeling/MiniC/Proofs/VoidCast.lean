import MiniC.Proofs.Soundness.State
import MiniC.Proofs.Typing.Expr

/-!
Casts to the empty type.

Such a cast leaves the node of its operand as it is and changes the type of the
term alone. No form of a term looks at that type when it is evaluated but one: an
update converts its result to it. So the cast has no effect of its own, unless the
operand is an update that computes in another kind than that of its target.
-/

namespace MiniC

open Lowering Machine

/-- An update that computes in another kind than the one its term has. -/
def Term.mixesKinds : Term → Bool
  | .mk (.num kind) _ (.update _ _ operand _ _) => kind ≠ operand
  | _ => false

/-- What is known of an update without knowing the variables: its operator exists for the kind that
it computes in. Its term has a numeric type, or the empty one that a cast gave it. -/
def Term.UpdateBuilt (term : Term) : Prop :=
  ∀ place fn operand rhs yieldsOld, term.node = .update place fn operand rhs yieldsOld →
    (∃ op, fn = .arith op operand ∧ (operand.isInteger || op.onFloats) = true) ∧
      (term.ty = .void ∨ ∃ kind, term.ty = .num kind)

private theorem Term.updateBuilt_of_not {term : Term} (other : term.node.isUpdate = false) :
    term.UpdateBuilt := by
  intro place fn operand rhs yieldsOld same
  rw [same] at other
  cases other

namespace Lowering

private theorem updateTerm_updateBuilt {op : BinaryOp} {target : Place × Ty}
    {targetSpan span : Span}
    {rhs result : Term} {yieldsOld : Bool}
    (accepted : updateTerm op target targetSpan rhs yieldsOld span = .ok result) :
    result.UpdateBuilt := by
  obtain ⟨place, ty⟩ := target
  obtain ⟨arith, kind, operand, count, fn, rfl, _, available, _, rfl⟩ := updateTerm_eq_ok accepted
  intro place fn operand rhs yieldsOld same
  cases same
  exact ⟨⟨arith, arith?_eq_some available⟩, Or.inr ⟨kind, rfl⟩⟩

private theorem convert_updateBuilt {term : Term} (kind : Kind) (built : term.UpdateBuilt) :
    (convert term kind).UpdateBuilt := by
  unfold convert
  split
  · exact built
  · split
    · exact Term.updateBuilt_of_not rfl
    · exact Term.updateBuilt_of_not rfl

private theorem coerce_updateBuilt {term result : Term} {target : Ty} (built : term.UpdateBuilt)
    (accepted : coerce term target = .ok result) : result.UpdateBuilt := by
  unfold coerce at accepted
  split at accepted
  · cases accepted
    exact built
  · split at accepted
    · cases accepted
      exact convert_updateBuilt _ built
    · cases accepted
      exact convert_updateBuilt _ built
    · cases accepted
      exact Term.updateBuilt_of_not rfl
    · cases accepted

private theorem unary_updateBuilt {op : UnaryOp} {operand result : Term} {span : Span}
    (built : operand.UpdateBuilt) (accepted : unary op operand span = .ok result) :
    result.UpdateBuilt := by
  unfold unary at accepted
  split at accepted
  · split at accepted
    · cases accepted
      exact Term.updateBuilt_of_not rfl
    · cases accepted
  · split at accepted
    · cases accepted
    · split at accepted
      · cases accepted
        exact convert_updateBuilt _ built
      · split at accepted
        · cases accepted
          exact Term.updateBuilt_of_not rfl
        · cases accepted
      · cases accepted
        exact Term.updateBuilt_of_not rfl

private theorem withTy_void_updateBuilt {term : Term} (built : term.UpdateBuilt) :
    (term.withTy .void).UpdateBuilt := by
  obtain ⟨ty, span, node⟩ := term
  intro place fn operand rhs yieldsOld same
  exact ⟨(built place fn operand rhs yieldsOld same).1, Or.inl rfl⟩

private theorem cast_updateBuilt {operand result : Term} {target : Ty} {span : Span}
    (built : operand.UpdateBuilt) (accepted : cast operand target span = .ok result) :
    result.UpdateBuilt := by
  unfold cast at accepted
  simp only at accepted
  split at accepted
  · split at accepted
    · cases accepted
      exact convert_updateBuilt _ built
    · cases accepted
  · split at accepted
    · exact coerce_updateBuilt built accepted
    · cases accepted
  · cases accepted
    exact withTy_void_updateBuilt built
  · cases accepted

private theorem binary_not_update {op : BinaryOp} {left right result : Term} {span : Span}
    (accepted : binary op left right span = .ok result) : result.node.isUpdate = false := by
  unfold binary at accepted
  simp only at accepted
  split at accepted
  · split at accepted
    · cases accepted
      rfl
    · cases accepted
  · split at accepted
    · cases accepted
      rfl
    · obtain ⟨kind, _, built⟩ := bind_eq_ok.mp accepted
      cases built
      rfl
  · obtain ⟨kind, _, continued⟩ := bind_eq_ok.mp accepted
    split at continued
    · cases continued
      rfl
    · cases continued
  · split at accepted
    · split at accepted
      · cases accepted
        rfl
      · cases accepted
    · cases accepted

private theorem identTerm_not_update {tree : ScopeTree} {scope : ScopeId} {name : String}
    {span : Span}
    {term : Term} (accepted : identTerm tree scope name span = .ok term) :
    term.node.isUpdate = false := by
  obtain ⟨symbol, _, continued⟩ := bind_eq_ok.mp accepted
  split at continued
  · cases continued
    rfl
  · cases continued
    rfl
  · cases continued
    rfl
  · cases continued

/-- Every update comes from a compound assignment, `++` or `--`; a unary plus and a cast may hand it
on. -/
theorem lowerExpr_updateBuilt (scope : ScopeId) : ∀ (expr : Expr) (tree : ScopeTree) (term : Term),
    lowerExpr scope expr tree = .ok term → term.UpdateBuilt
  | .int _ _, _, _, accepted => by
      cases accepted
      exact Term.updateBuilt_of_not rfl
  | .float _ _ single, _, _, accepted => by
      rw [lowerExpr] at accepted
      split at accepted
      · cases accepted
        exact Term.updateBuilt_of_not rfl
      · cases accepted
        exact Term.updateBuilt_of_not rfl
  | .char _ _, _, _, accepted => by
      cases accepted
      exact Term.updateBuilt_of_not rfl
  | .str _ _, _, _, accepted => by
      cases accepted
      exact Term.updateBuilt_of_not rfl
  | .bool _ _, _, _, accepted => by
      cases accepted
      exact Term.updateBuilt_of_not rfl
  | .ident _ _, _, _, accepted => by
      rw [lowerExpr] at accepted
      exact Term.updateBuilt_of_not (identTerm_not_update accepted)
  | .binary _ _ _ _, _, _, accepted => by
      rw [lowerExpr] at accepted
      obtain ⟨left, _, continued⟩ := bind_eq_ok.mp accepted
      obtain ⟨right, _, built⟩ := bind_eq_ok.mp continued
      exact Term.updateBuilt_of_not (binary_not_update built)
  | .assign _ none _ _, _, _, accepted => by
      rw [lowerExpr] at accepted
      obtain ⟨⟨place, ty⟩, _, continued⟩ := bind_eq_ok.mp accepted
      simp only at continued
      split at continued
      · cases continued
      · obtain ⟨value, _, stored⟩ := bind_eq_ok.mp continued
        obtain ⟨converted, _, built⟩ := bind_eq_ok.mp stored
        cases built
        exact Term.updateBuilt_of_not rfl
  | .assign _ (some _) _ _, _, _, accepted => by
      rw [lowerExpr] at accepted
      obtain ⟨rhs, _, continued⟩ := bind_eq_ok.mp accepted
      obtain ⟨place, _, built⟩ := bind_eq_ok.mp continued
      exact updateTerm_updateBuilt built
  | .unary _ _ operand, tree, _, accepted => by
      rw [lowerExpr] at accepted
      obtain ⟨inner, lowered, built⟩ := bind_eq_ok.mp accepted
      exact unary_updateBuilt (lowerExpr_updateBuilt scope operand tree inner lowered) built
  | .incDec _ _ _ _, _, _, accepted => by
      rw [lowerExpr] at accepted
      obtain ⟨place, _, built⟩ := bind_eq_ok.mp accepted
      exact updateTerm_updateBuilt built
  | .call _ name _ args, tree, _, accepted => by
      rw [lowerExpr] at accepted
      split at accepted
      · simp only at accepted
        split at accepted
        · cases accepted
        · split at accepted
          · obtain ⟨terms, _, built⟩ := bind_eq_ok.mp accepted
            cases built
            exact Term.updateBuilt_of_not rfl
          · obtain ⟨terms, _, continued⟩ := bind_eq_ok.mp accepted
            obtain ⟨converted, _, built⟩ := bind_eq_ok.mp continued
            cases built
            exact Term.updateBuilt_of_not rfl
      · obtain ⟨⟨id, params, ret⟩, _, continued⟩ := bind_eq_ok.mp accepted
        obtain ⟨terms, _, rest⟩ := bind_eq_ok.mp continued
        obtain ⟨converted, _, built⟩ := bind_eq_ok.mp rest
        cases built
        exact Term.updateBuilt_of_not rfl
  | .subscript _ _ _, _, _, accepted => by
      rw [lowerExpr] at accepted
      obtain ⟨⟨place, ty⟩, _, rfl⟩ := map_eq_ok.mp accepted
      exact Term.updateBuilt_of_not rfl
  | .field _ _ _, _, _, accepted => by
      rw [lowerExpr] at accepted
      obtain ⟨⟨place, ty⟩, _, rfl⟩ := map_eq_ok.mp accepted
      exact Term.updateBuilt_of_not rfl
  | .conditional _ _ _ _, _, _, accepted => by
      rw [lowerExpr] at accepted
      obtain ⟨condition, _, continued⟩ := bind_eq_ok.mp accepted
      obtain ⟨cond, _, arms⟩ := bind_eq_ok.mp continued
      obtain ⟨yes, _, rest⟩ := bind_eq_ok.mp arms
      obtain ⟨no, _, unified⟩ := bind_eq_ok.mp rest
      obtain ⟨⟨first, second, ty⟩, _, built⟩ := bind_eq_ok.mp unified
      cases built
      exact Term.updateBuilt_of_not rfl
  | .cast _ _ operand, _, _, accepted => by
      rw [lowerExpr] at accepted
      obtain ⟨⟨target, inner⟩, _, continued⟩ := bind_eq_ok.mp accepted
      obtain ⟨value, lowered, built⟩ := bind_eq_ok.mp continued
      exact cast_updateBuilt (lowerExpr_updateBuilt scope operand inner value lowered) built
  | .comma _ _ _, _, _, accepted => by
      rw [lowerExpr] at accepted
      obtain ⟨left, _, continued⟩ := bind_eq_ok.mp accepted
      obtain ⟨right, _, built⟩ := bind_eq_ok.mp continued
      cases built
      exact Term.updateBuilt_of_not rfl
termination_by structural expr => expr

end Lowering

namespace Machine

variable {context : Machine.Context} {fuel : Nat} {state : State}

/-- The first part of an update: where it writes, what is there, and the operand. -/
def updateOperands (context : Machine.Context) (fuel : Nat) (place : Place) (rhs : Term) :
    Step (Location × Value × Value) := do
  let location ← locate context fuel place
  let old ← load location
  let rhs ← eval context fuel rhs
  return (location, old, rhs)

/-- The second part, which writes a value and yields it or the old one. -/
def writeBack (yieldsOld : Bool) (location : Location) (old fresh : Value) : Step Value := do
  let _ ← store location fresh
  return if yieldsOld then old else fresh

theorem eval_update (ty : Ty) (span : Span) (place : Place) (fn : BinaryFn) (operand : Kind)
    (rhs : Term) (yieldsOld : Bool) :
    eval context (fuel + 1) (.mk ty span (.update place fn operand rhs yieldsOld)) state =
      (updateOperands context fuel place rhs >>= fun (location, old, value) =>
        writeBack yieldsOld location old (updated fn operand ty old value)) state := by
  rw [eval]
  change Step.bind (locate context fuel place) _ state =
    Step.bind (Step.bind (locate context fuel place) _) _ state
  unfold Step.bind
  cases locate context fuel place state with
  | failed failure after => rfl
  | exhausted => rfl
  | done location located =>
      change Step.bind (load location) _ located =
        Step.bind (Step.bind (load location) _) _ located
      unfold Step.bind
      cases load location located with
      | failed failure after => rfl
      | exhausted => rfl
      | done old loaded =>
          change Step.bind (eval context fuel rhs) _ loaded =
            Step.bind (Step.bind (eval context fuel rhs) _) _ loaded
          unfold Step.bind
          cases eval context fuel rhs loaded with
          | failed failure after => rfl
          | exhausted => rfl
          | done value after => rfl

/-- No other node looks at the type of its term. -/
theorem eval_withTy_of_not_update (term : Term) (ty : Ty) (other : term.node.isUpdate = false) :
    eval context fuel (term.withTy ty) state = eval context fuel term state := by
  obtain ⟨shown, span, node⟩ := term
  cases fuel with
  | zero => rfl
  | succ less =>
      cases node with
      | update place fn operand rhs yieldsOld => cases other
      | _ => rfl

end Machine

/-! ### Casts -/

theorem Value.convert_of_ty? {value : Value} {kind : Kind} (typed : value.ty? = some (.num kind)) :
    value.convert kind = value := by
  cases value with
  | i32 number => cases typed; rfl
  | u32 number => cases typed; rfl
  | i64 number => cases typed; rfl
  | u64 number => cases typed; rfl
  | f32 number => cases typed; rfl
  | f64 number => cases typed; rfl
  | bool truth => cases typed
  | str text => cases typed
  | array address => cases typed
  | struct address => cases typed
  | void => cases typed

/-- Two evaluations that end alike, except that they write values of different types to one
location: the first a value of the given type, the second one of another. -/
inductive StoresOther (ty : Ty) : Outcome Value → Outcome Value → Prop where
  | failed (failure : Failure) (after : Machine.State) :
      StoresOther ty (.failed failure after) (.failed failure after)
  | exhausted : StoresOther ty .exhausted .exhausted
  | done {location : Location} {between first second : Machine.State} {fresh raw : Value}
      {stored storedRaw value valueRaw : Value} :
      fresh.ty? = some ty → raw.ty? ≠ some ty →
      store location fresh between = .done stored first →
      store location raw between = .done storedRaw second →
      StoresOther ty (.done value first) (.done valueRaw second)

section Casts

variable {term : Term} {context : Machine.Context} {fuel : Nat} {state : Machine.State}

private theorem eval_withTy_void (built : term.UpdateBuilt) (same : term.mixesKinds = false) :
    eval context fuel (term.withTy .void) state = eval context fuel term state := by
  cases isUpdate : term.node.isUpdate with
  | false => exact eval_withTy_of_not_update term .void isUpdate
  | true =>
      obtain ⟨ty, span, node⟩ := term
      cases node with
      | update place fn operand rhs yieldsOld =>
          obtain ⟨⟨op, rfl, supported⟩, shown⟩ := built place fn operand rhs yieldsOld rfl
          rcases shown with isVoid | ⟨kind, isNum⟩
          · cases isVoid
            rfl
          · cases isNum
            have sameKind : kind = operand := by simpa [Term.mixesKinds] using same
            subst sameKind
            have unchanged (old rhs : Value) :
                updated (.arith op kind) kind .void old rhs =
                  updated (.arith op kind) kind (.num kind) old rhs := by
              have typed : (op.apply kind (old.convert kind) rhs).ty? = some (.num kind) :=
                ArithOp.ty?_apply supported _ _
              exact (Value.convert_of_ty? typed).symm
            cases fuel with
            | zero => rfl
            | succ less =>
                rw [Term.withTy, eval_update, eval_update]
                simp only [unchanged]
      | _ => cases isUpdate

private theorem writeBack_storesOther {op : ArithOp} {kind operand : Kind} {yieldsOld : Bool}
    {location : Location} {old rhs : Value} (different : kind ≠ operand)
    (supported : (operand.isInteger || op.onFloats) = true) :
    StoresOther (.num kind)
      (writeBack yieldsOld location old (updated (.arith op operand) operand (.num kind) old rhs)
        state)
      (writeBack yieldsOld location old (updated (.arith op operand) operand .void old rhs)
        state) := by
  have fresh : (updated (.arith op operand) operand (.num kind) old rhs).ty? = some (.num kind) :=
    Value.ty?_convert kind _
  have raw : (updated (.arith op operand) operand .void old rhs).ty? = some (.num operand) :=
    ArithOp.ty?_apply supported _ _
  obtain ⟨stored, first, store₁⟩ := store_eq_done location
    (updated (.arith op operand) operand (.num kind) old rhs) state
  obtain ⟨storedRaw, second, store₂⟩ := store_eq_done location
    (updated (.arith op operand) operand .void old rhs) state
  have otherTy : (updated (.arith op operand) operand .void old rhs).ty? ≠ some (.num kind) := by
    rw [raw]
    intro same
    cases same
    exact different rfl
  change StoresOther _ (Step.bind (store location _) _ state) (Step.bind (store location _) _ state)
  unfold Step.bind
  rw [store₁, store₂]
  exact .done fresh otherTy store₁ store₂

private theorem eval_withTy_void_of_mixesKinds (built : term.UpdateBuilt)
    (mixes : term.mixesKinds = true) :
    StoresOther term.ty (eval context fuel term state)
      (eval context fuel (term.withTy .void) state) := by
  obtain ⟨ty, span, node⟩ := term
  cases ty with
  | num kind =>
      cases node with
      | update place fn operand rhs yieldsOld =>
          have different : kind ≠ operand := of_decide_eq_true mixes
          obtain ⟨⟨op, rfl, supported⟩, _⟩ := built place fn operand rhs yieldsOld rfl
          cases fuel with
          | zero => exact .exhausted
          | succ less =>
              rw [Term.withTy, eval_update, eval_update]
              change StoresOther _ (Step.bind (updateOperands context less place rhs) _ state)
                (Step.bind (updateOperands context less place rhs) _ state)
              unfold Step.bind
              cases updateOperands context less place rhs state with
              | failed failure after => exact .failed failure after
              | exhausted => exact .exhausted
              | done found between =>
                  obtain ⟨location, old, value⟩ := found
                  exact writeBack_storesOther different supported
      | _ => cases mixes
  | _ => cases mixes

/-- A cast to the empty type lowers whenever its operand does, and evaluates like it in every state:
the same failure, or the same value, variables, heap, record and output. The one exception is an
operand that lowers to an update in another kind than its target's. There the cast fails where the
operand fails, and otherwise writes a value of the wrong kind to the same location. -/
theorem eval_void_cast {scope : ScopeId} {tree : ScopeTree} {expr : Expr}
    (lowered : lowerExpr scope expr tree = .ok term) (span : Span) :
    ∃ cast, lowerExpr scope (.cast span .void expr) tree = .ok cast ∧ cast.ty = .void ∧
      (term.mixesKinds = false → ∀ context fuel state,
        eval context fuel cast state = eval context fuel term state) ∧
      (term.mixesKinds = true → ∀ context fuel state,
        StoresOther term.ty (eval context fuel term state) (eval context fuel cast state)) := by
  have built := lowerExpr_updateBuilt scope expr tree term lowered
  refine ⟨term.withTy .void, ?_, ?_, ?_, ?_⟩
  · rw [lowerExpr, resolveSpecifier]
    change (lowerExpr scope expr tree >>= fun operand => cast operand .void span) = _
    rw [lowered]
    rfl
  · obtain ⟨ty, place, node⟩ := term
    rfl
  · intro same context fuel state
    exact eval_withTy_void built same
  · intro mixes context fuel state
    exact eval_withTy_void_of_mixesKinds built mixes

end Casts

def oneInt : ScopeTree :=
  ⟨#[⟨none, ScopeTree.globalFrame, [("x", ⟨"x", .num .i32, .scalar ⟨.global, 0⟩⟩)], []⟩], #[⟨1, 0⟩]⟩

def largestInt : Machine.State :=
  ⟨⟨#[.i32 2147483647], #[], []⟩, .empty, ⟨.empty, .unlimited, none⟩⟩

/-- The update of the variable by one, as an `int` or as a `long`. -/
def addOne (long : Bool) : Expr :=
  let place : Span := ⟨0, 0⟩
  .assign place (some .add) (.ident place "x") (.int place ⟨1, false, long, false⟩)

theorem eval_void_cast_addOne : ∃ term cast,
    lowerExpr ScopeTree.root (addOne false) oneInt = .ok term ∧
      lowerExpr ScopeTree.root (.cast ⟨0, 0⟩ .void (addOne false)) oneInt = .ok cast ∧
      ∀ context fuel state, eval context fuel cast state = eval context fuel term state := by
  have checked : ((lowerExpr ScopeTree.root (addOne false) oneInt).toOption.any fun term =>
      term.mixesKinds = false) = true := by
    decide +kernel
  obtain ⟨term, lowered, sameKind⟩ := eq_ok_of_any checked
  obtain ⟨cast, accepted, _, same, _⟩ := eval_void_cast lowered ⟨0, 0⟩
  exact ⟨term, cast, lowered, accepted, same (of_decide_eq_true sameKind)⟩

def leaves (ty : Ty) : Outcome Value → Bool
  | .done _ after => (after.scalar ⟨.global, 0⟩).ty? = some ty
  | _ => false

private theorem eq_done_of_leaves {ty : Ty} {outcome : Outcome Value}
    (holds : leaves ty outcome = true) :
    ∃ value after, outcome = .done value after ∧ (after.scalar ⟨.global, 0⟩).ty? = some ty := by
  cases outcome with
  | done value after => exact ⟨value, after, rfl, of_decide_eq_true holds⟩
  | failed failure after => cases holds
  | exhausted => cases holds

/-- Where the second update is cast, the variable no longer holds an `int`. -/
theorem void_cast_stores_long : ∃ term cast value valueCast after afterCast,
    lowerExpr ScopeTree.root (addOne true) oneInt = .ok term ∧
      lowerExpr ScopeTree.root (.cast ⟨0, 0⟩ .void (addOne true)) oneInt = .ok cast ∧
      eval ⟨⟨#[], ⟨1, 0⟩, [], none⟩, 10, 0⟩ 10 term largestInt = .done value after ∧
      eval ⟨⟨#[], ⟨1, 0⟩, [], none⟩, 10, 0⟩ 10 cast largestInt = .done valueCast afterCast ∧
      (after.scalar ⟨.global, 0⟩).ty? = some (.num .i32) ∧
      (afterCast.scalar ⟨.global, 0⟩).ty? = some (.num .i64) := by
  have checked : ((lowerExpr ScopeTree.root (addOne true) oneInt).toOption.any fun term =>
      (lowerExpr ScopeTree.root (.cast ⟨0, 0⟩ .void (addOne true)) oneInt).toOption.any fun cast =>
        leaves (.num .i32) (eval ⟨⟨#[], ⟨1, 0⟩, [], none⟩, 10, 0⟩ 10 term largestInt) ∧
          leaves (.num .i64) (eval ⟨⟨#[], ⟨1, 0⟩, [], none⟩, 10, 0⟩ 10 cast largestInt)) =
            true := by
    decide +kernel
  obtain ⟨term, lowered, rest⟩ := eq_ok_of_any checked
  obtain ⟨cast, accepted, ends⟩ := eq_ok_of_any rest
  obtain ⟨int, long⟩ := of_decide_eq_true ends
  obtain ⟨value, after, result, afterTy⟩ := eq_done_of_leaves int
  obtain ⟨valueCast, afterCast, resultCast, afterCastTy⟩ := eq_done_of_leaves long
  exact ⟨term, cast, value, valueCast, after, afterCast, lowered, accepted, result, resultCast,
    afterTy, afterCastTy⟩

end MiniC
