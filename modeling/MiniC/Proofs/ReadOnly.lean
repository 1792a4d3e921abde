import MiniC.Proofs.Machine.Evaluation
import MiniC.Proofs.Typing.Conversion

/-!
Expressions that only read.

An expression without assignments, steps (`++` and `--`) and calls is lowered to a
term that writes nothing. Whether the evaluation of such a term ends well or
fails, it ends in the state in which it has begun; so a place that is found by
reading alone is found twice at the same location.
-/

namespace MiniC

def Expr.onlyReads : Expr → Bool
  | .int _ _ | .float _ _ _ | .char _ _ | .str _ _ | .bool _ _ | .ident _ _ => true
  | .binary _ _ left right => left.onlyReads && right.onlyReads
  | .assign _ _ _ _ | .incDec _ _ _ _ | .call _ _ _ _ => false
  | .unary _ _ operand => operand.onlyReads
  | .subscript _ base index => base.onlyReads && index.onlyReads
  | .field _ owner _ => owner.onlyReads
  | .conditional _ cond yes no => cond.onlyReads && yes.onlyReads && no.onlyReads
  | .cast _ _ operand => operand.onlyReads
  | .comma _ left right => left.onlyReads && right.onlyReads

mutual

def Term.onlyReads : Term → Bool
  | .mk _ _ node => node.onlyReads

def Node.onlyReads : Node → Bool
  | .literal _ | .argument _ => true
  | .load place => place.onlyReads
  | .convert _ value | .truth value | .unary _ value => value.onlyReads
  | .binary _ left right | .logical _ left right | .comma left right =>
      left.onlyReads && right.onlyReads
  | .conditional cond yes no => cond.onlyReads && yes.onlyReads && no.onlyReads
  | .assign _ _ | .update _ _ _ _ _ | .call _ _ | .builtin _ _ | .copy _ => false

def Place.onlyReads : Place → Bool
  | .element _ index => index.onlyReads
  | .scalar _ | .whole _ | .field _ _ => true

end

namespace Lowering

private theorem convert_onlyReads {term : Term} (kind : Kind) (reads : term.onlyReads = true) :
    (convert term kind).onlyReads = true := by
  unfold convert
  split
  · exact reads
  · split
    · rfl
    · exact reads

private theorem coerce_onlyReads {term result : Term} {target : Ty} (reads : term.onlyReads = true)
    (accepted : coerce term target = .ok result) : result.onlyReads = true := by
  unfold coerce at accepted
  split at accepted
  · cases accepted
    exact reads
  · split at accepted
    · cases accepted
      exact convert_onlyReads _ reads
    · cases accepted
      exact convert_onlyReads _ reads
    · cases accepted
      exact reads
    · cases accepted

private theorem unary_onlyReads {op : UnaryOp} {operand result : Term} {span : Span}
    (reads : operand.onlyReads = true) (accepted : unary op operand span = .ok result) :
    result.onlyReads = true := by
  unfold unary at accepted
  split at accepted
  · split at accepted
    · cases accepted
      exact reads
    · cases accepted
  · split at accepted
    · cases accepted
    · split at accepted
      · cases accepted
        exact convert_onlyReads _ reads
      · split at accepted
        · cases accepted
          exact convert_onlyReads _ reads
        · cases accepted
      · cases accepted
        exact convert_onlyReads _ reads

private theorem cast_onlyReads {operand result : Term} {target : Ty} {span : Span}
    (reads : operand.onlyReads = true) (accepted : cast operand target span = .ok result) :
    result.onlyReads = true := by
  unfold cast at accepted
  simp only at accepted
  split at accepted
  · split at accepted
    · cases accepted
      exact convert_onlyReads _ reads
    · cases accepted
  · split at accepted
    · exact coerce_onlyReads reads accepted
    · cases accepted
  · cases accepted
    cases operand
    exact reads
  · cases accepted

private theorem binary_onlyReads {op : BinaryOp} {left right result : Term} {span : Span}
    (leftReads : left.onlyReads = true) (rightReads : right.onlyReads = true)
    (accepted : binary op left right span = .ok result) : result.onlyReads = true := by
  have both {first second : Term} {fn : BinaryFn} {ty : Ty} (firstReads : first.onlyReads = true)
      (secondReads : second.onlyReads = true) :
      (Term.mk ty span (.binary fn first second)).onlyReads = true :=
    Bool.and_eq_true_iff.mpr ⟨firstReads, secondReads⟩
  unfold binary at accepted
  simp only at accepted
  split at accepted
  · split at accepted
    · cases accepted
      exact Bool.and_eq_true_iff.mpr ⟨leftReads, rightReads⟩
    · cases accepted
  · split at accepted
    · cases accepted
      exact both leftReads rightReads
    · obtain ⟨kind, _, built⟩ := bind_eq_ok.mp accepted
      cases built
      exact both (convert_onlyReads _ leftReads) (convert_onlyReads _ rightReads)
  · obtain ⟨kind, _, continued⟩ := bind_eq_ok.mp accepted
    split at continued
    · cases continued
      exact both (convert_onlyReads _ leftReads) (convert_onlyReads _ rightReads)
    · cases continued
  · split at accepted
    · split at accepted
      · cases accepted
        exact both (convert_onlyReads _ leftReads) (convert_onlyReads _ rightReads)
      · cases accepted
    · cases accepted

private theorem unify_onlyReads {yes no first second : Term} {ty : Ty} {span : Span}
    (yesReads : yes.onlyReads = true) (noReads : no.onlyReads = true)
    (accepted : unify yes no span = .ok (first, second, ty)) :
    first.onlyReads = true ∧ second.onlyReads = true := by
  unfold unify at accepted
  split at accepted
  · cases accepted
    exact ⟨yesReads, noReads⟩
  · split at accepted
    · cases accepted
      exact ⟨convert_onlyReads _ yesReads, convert_onlyReads _ noReads⟩
    · cases accepted

private theorem identTerm_onlyReads {tree : ScopeTree} {scope : ScopeId} {name : String}
    {span : Span}
    {term : Term} (accepted : identTerm tree scope name span = .ok term) :
    term.onlyReads = true := by
  obtain ⟨symbol, _, continued⟩ := bind_eq_ok.mp accepted
  split at continued
  · cases continued
    rfl
  · cases continued
    rfl
  · cases continued
    rfl
  · cases continued

theorem fieldPlace_onlyReads {tree : ScopeTree} {scope : ScopeId} {owner : Expr} {name : String}
    {span : Span} {place : Place} {ty : Ty}
    (accepted : fieldPlace tree scope owner name span = .ok (place, ty)) :
    place.onlyReads = true := by
  obtain ⟨⟨slot, ownerTy⟩, _, continued⟩ := bind_eq_ok.mp accepted
  simp only at continued
  split at continued
  · split at continued
    · cases continued
      rfl
    · cases continued
  · cases continued

private theorem asIndex_onlyReads {refusal : String} {term index : Term}
    (reads : term.onlyReads = true)
    (accepted : asIndex refusal term = .ok index) : index.onlyReads = true := by
  unfold asIndex at accepted
  split at accepted
  · cases accepted
    exact convert_onlyReads _ (convert_onlyReads _ reads)
  · cases accepted

theorem elementPlace_onlyReads {tree : ScopeTree} {scope : ScopeId} {base : Expr}
    {index : Except Diagnostic Term} {place : Place} {ty : Ty}
    (reads : ∀ term, index = .ok term → term.onlyReads = true)
    (accepted : elementPlace tree scope base index = .ok (place, ty)) :
    place.onlyReads = true := by
  obtain ⟨⟨slot, baseTy⟩, _, continued⟩ := bind_eq_ok.mp accepted
  simp only at continued
  split at continued
  · obtain ⟨term, lowered, rest⟩ := bind_eq_ok.mp continued
    obtain ⟨converted, conversion, built⟩ := bind_eq_ok.mp rest
    cases built
    exact asIndex_onlyReads (reads term lowered) conversion
  · cases continued

theorem lowerExpr_onlyReads (scope : ScopeId) : ∀ (expr : Expr) (tree : ScopeTree) (term : Term),
    expr.onlyReads = true → lowerExpr scope expr tree = .ok term → term.onlyReads = true
  | .int _ _, _, _, _, accepted => by
      cases accepted
      rfl
  | .float _ _ _, _, _, _, accepted => by
      rw [lowerExpr] at accepted
      split at accepted
      · cases accepted
        rfl
      · cases accepted
        rfl
  | .char _ _, _, _, _, accepted => by
      cases accepted
      rfl
  | .str _ _, _, _, _, accepted => by
      cases accepted
      rfl
  | .bool _ _, _, _, _, accepted => by
      cases accepted
      rfl
  | .ident _ _, _, _, _, accepted => by
      rw [lowerExpr] at accepted
      exact identTerm_onlyReads accepted
  | .binary _ _ left right, tree, _, reads, accepted => by
      rw [lowerExpr] at accepted
      obtain ⟨leftReads, rightReads⟩ := Bool.and_eq_true_iff.mp reads
      obtain ⟨first, lowered, continued⟩ := bind_eq_ok.mp accepted
      obtain ⟨second, loweredNext, built⟩ := bind_eq_ok.mp continued
      exact binary_onlyReads (lowerExpr_onlyReads scope left tree first leftReads lowered)
        (lowerExpr_onlyReads scope right tree second rightReads loweredNext) built
  | .assign _ _ _ _, _, _, reads, _ => by cases reads
  | .incDec _ _ _ _, _, _, reads, _ => by cases reads
  | .call _ _ _ _, _, _, reads, _ => by cases reads
  | .unary _ _ operand, tree, _, reads, accepted => by
      rw [lowerExpr] at accepted
      obtain ⟨inner, lowered, built⟩ := bind_eq_ok.mp accepted
      exact unary_onlyReads (lowerExpr_onlyReads scope operand tree inner reads lowered) built
  | .subscript _ base index, tree, _, reads, accepted => by
      rw [lowerExpr] at accepted
      obtain ⟨⟨place, ty⟩, found, rfl⟩ := map_eq_ok.mp accepted
      have indexReads := (Bool.and_eq_true_iff.mp reads).2
      exact elementPlace_onlyReads
        (fun term lowered => lowerExpr_onlyReads scope index tree term indexReads lowered) found
  | .field _ _ _, _, _, _, accepted => by
      rw [lowerExpr] at accepted
      obtain ⟨⟨place, ty⟩, found, rfl⟩ := map_eq_ok.mp accepted
      exact fieldPlace_onlyReads found
  | .conditional _ cond yes no, tree, _, reads, accepted => by
      rw [lowerExpr] at accepted
      obtain ⟨firstReads, noReads⟩ := Bool.and_eq_true_iff.mp reads
      obtain ⟨condReads, yesReads⟩ := Bool.and_eq_true_iff.mp firstReads
      obtain ⟨condition, lowered, continued⟩ := bind_eq_ok.mp accepted
      obtain ⟨checked, check, arms⟩ := bind_eq_ok.mp continued
      obtain ⟨first, loweredFirst, rest⟩ := bind_eq_ok.mp arms
      obtain ⟨second, loweredSecond, unified⟩ := bind_eq_ok.mp rest
      obtain ⟨⟨left, right, ty⟩, united, built⟩ := bind_eq_ok.mp unified
      cases built
      have conditionReads := lowerExpr_onlyReads scope cond tree condition condReads lowered
      obtain ⟨leftReads, rightReads⟩ := unify_onlyReads
        (lowerExpr_onlyReads scope yes tree first yesReads loweredFirst)
        (lowerExpr_onlyReads scope no tree second noReads loweredSecond) united
      unfold conditionTerm at check
      split at check
      · cases check
        exact Bool.and_eq_true_iff.mpr ⟨Bool.and_eq_true_iff.mpr ⟨conditionReads, leftReads⟩,
          rightReads⟩
      · cases check
  | .cast _ _ operand, _, _, reads, accepted => by
      rw [lowerExpr] at accepted
      obtain ⟨⟨target, inner⟩, _, continued⟩ := bind_eq_ok.mp accepted
      obtain ⟨value, lowered, built⟩ := bind_eq_ok.mp continued
      exact cast_onlyReads (lowerExpr_onlyReads scope operand inner value reads lowered) built
  | .comma _ left right, tree, _, reads, accepted => by
      rw [lowerExpr] at accepted
      obtain ⟨leftReads, rightReads⟩ := Bool.and_eq_true_iff.mp reads
      obtain ⟨first, lowered, continued⟩ := bind_eq_ok.mp accepted
      obtain ⟨second, loweredNext, built⟩ := bind_eq_ok.mp continued
      cases built
      exact Bool.and_eq_true_iff.mpr
        ⟨lowerExpr_onlyReads scope left tree first leftReads lowered,
          lowerExpr_onlyReads scope right tree second rightReads loweredNext⟩
termination_by structural expr => expr

end Lowering

/-! ### Evaluation -/

namespace Machine

variable {α β : Type}

def Reads (step : Step α) : Prop := ∀ state last, (step state).last? = some last → last = state

namespace Reads

theorem pure (value : α) : Reads (Pure.pure value : Step α) := by
  intro state last ended
  cases ended
  rfl

theorem bind {step : Step α} {next : α → Step β} (reads : Reads step)
    (later : ∀ value, Reads (next value)) : Reads (step >>= next) := by
  intro state last ended
  rw [last?_bind] at ended
  cases outcome : step state with
  | done value middle =>
      rw [outcome] at ended
      have same : middle = state := reads state middle (by rw [outcome]; rfl)
      rw [← same]
      exact later value middle last ended
  | failed failure middle =>
      rw [outcome] at ended
      cases ended
      exact reads state last (by rw [outcome]; rfl)
  | exhausted =>
      rw [outcome] at ended
      cases ended

end Reads

/-- By induction on the fuel, for terms and places together. -/
theorem reads_with (context : Context) (fuel : Nat) :
    (∀ term : Term, term.onlyReads = true → Reads (eval context fuel term)) ∧
      ∀ place : Place, place.onlyReads = true → Reads (locate context fuel place) := by
  induction fuel with
  | zero =>
      constructor
      · intro term _ state last ended
        cases ended
      · intro place _ state last ended
        cases ended
  | succ fuel ih =>
      obtain ⟨evalReads, locateReads⟩ := ih
      constructor
      · rintro ⟨ty, span, node⟩ reads
        cases node with
        | literal value => exact .pure value
        | argument index => exact fun state last ended => by cases ended; rfl
        | load place =>
            exact (locateReads place reads).bind fun _ _ _ ended => load_last? ended
        | convert kind value => exact (evalReads value reads).bind fun _ => .pure _
        | truth value => exact (evalReads value reads).bind fun _ => .pure _
        | unary fn value => exact (evalReads value reads).bind fun _ => .pure _
        | binary fn left right =>
            obtain ⟨leftReads, rightReads⟩ := Bool.and_eq_true_iff.mp reads
            exact (evalReads left leftReads).bind fun _ =>
              (evalReads right rightReads).bind fun _ => .pure _
        | comma left right =>
            obtain ⟨leftReads, rightReads⟩ := Bool.and_eq_true_iff.mp reads
            exact (evalReads left leftReads).bind fun _ => evalReads right rightReads
        | logical isAnd left right =>
            obtain ⟨leftReads, rightReads⟩ := Bool.and_eq_true_iff.mp reads
            rw [eval]
            refine (evalReads left leftReads).bind fun value => ?_
            simp only
            split
            · exact (evalReads right rightReads).bind fun _ => .pure _
            · exact .pure _
        | conditional cond yes no =>
            obtain ⟨firstReads, noReads⟩ := Bool.and_eq_true_iff.mp reads
            obtain ⟨condReads, yesReads⟩ := Bool.and_eq_true_iff.mp firstReads
            rw [eval]
            refine (evalReads cond condReads).bind fun value => ?_
            split
            · exact evalReads yes yesReads
            · exact evalReads no noReads
        | assign place value => cases reads
        | update place fn operand rhs yieldsOld => cases reads
        | call id args => cases reads
        | builtin builtin args => cases reads
        | copy value => cases reads
      · intro place reads
        cases place with
        | scalar slot => exact .pure _
        | whole slot => exact .pure _
        | field owner index => exact fun _ _ ended => fieldLocation_last? ended
        | element array index =>
            exact (evalReads index reads).bind fun _ _ _ ended => elementLocation_last? ended

theorem reads_location (context : Context) {place : Place} (reads : place.onlyReads = true) :
    Reads (location context place) := by
  intro state last ended
  obtain ⟨enough, same⟩ := (settles_locate context place).eventually state
  rw [← same enough (Nat.le_refl _)] at ended
  exact (reads_with context enough).2 place reads state last ended

/-- What is read twice in a row gives the same answer twice. -/
theorem Reads.twice {step : Step α} (reads : Reads step) (next : α → α → Step β) :
    (step >>= fun first => step >>= next first) = step >>= fun value => next value value := by
  funext state
  apply bind_congr_of_done
  intro value middle done
  have same : middle = state := reads state middle (by rw [done]; rfl)
  subst same
  exact bind_of_done done

end Machine
end MiniC
