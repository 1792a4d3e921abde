import MiniC.Proofs.Typing.Judgement

/-!
More variables.

A term that is well formed for some variables is so for more of them. A global
declaration may even be read with the variables that it and its successors
declare already known, which is how a function sees it that is called before.
-/

namespace MiniC

open Typing

variable {setting : Setting} {vars more : Variables}

mutual

theorem Term.Typed.mono (fewer : vars.Le more) : ∀ {term : Term}, Term.Typed setting vars term →
    Term.Typed setting more term
  | _, .natural node => .natural (node.mono fewer)
  | _, .discarded node => .discarded (node.mono fewer)

theorem Node.Typed.mono (fewer : vars.Le more) : ∀ {node : Node} {ty : Ty},
    Node.Typed setting vars node ty → Node.Typed setting more node ty
  | _, _, .literal typed => .literal typed
  | _, _, .load place => .load (place.mono fewer)
  | _, _, .argument found => .argument found
  | _, _, .assign place value => .assign (place.mono fewer) (value.mono fewer)
  | _, _, .update place rhs operands => .update (place.mono fewer) (rhs.mono fewer) operands
  | _, _, .convert value numeric => .convert (value.mono fewer) numeric
  | _, _, .truth value ty => .truth (value.mono fewer) ty
  | _, _, .arith left right operands => .arith (left.mono fewer) (right.mono fewer) operands
  | _, _, .compare left right leftTy rightTy =>
      .compare (left.mono fewer) (right.mono fewer) leftTy rightTy
  | _, _, .compareBool left right leftTy rightTy =>
      .compareBool (left.mono fewer) (right.mono fewer) leftTy rightTy
  | _, _, .negate operand ty => .negate (operand.mono fewer) ty
  | _, _, .bitNot operand ty integer => .bitNot (operand.mono fewer) ty integer
  | _, _, .not operand condition => .not (operand.mono fewer) condition
  | _, _, .logical left right leftTy rightTy =>
      .logical (left.mono fewer) (right.mono fewer) leftTy rightTy
  | _, _, .conditional cond yes no condition sameTy =>
      .conditional (cond.mono fewer) (yes.mono fewer) (no.mono fewer) condition sameTy
  | _, _, .comma first second => .comma (first.mono fewer) (second.mono fewer)
  | _, _, .call calls signature args => .call calls signature (args.mono fewer)
  | _, _, .builtin args => .builtin (args.mono fewer)
  | _, _, .copy value object => .copy (value.mono fewer) object

theorem Terms.Typed.mono (fewer : vars.Le more) : ∀ {terms : List Term} {tys : List Ty},
    Terms.Typed setting vars terms tys → Terms.Typed setting more terms tys
  | _, _, .nil => .nil
  | _, _, .cons first rest => .cons (first.mono fewer) (rest.mono fewer)

theorem Place.Typed.mono (fewer : vars.Le more) : ∀ {place : Place} {ty : Ty},
    Place.Typed setting vars place ty → Place.Typed setting more place ty
  | _, _, .scalar known has scalar => .scalar (fewer.scalar _ _ known) has scalar
  | _, _, .whole known has object => .whole (fewer.reference _ _ known) has object
  | _, _, .element known has index ty =>
      .element (fewer.reference _ _ known) has (index.mono fewer) ty
  | _, _, .field known has member scalar =>
      .field (fewer.reference _ _ known) has member scalar

end

theorem Variables.withScalar_of_eq {slot : Slot} {ty : Ty} (known : more.scalar slot = some ty) :
    more.withScalar slot ty = more := by
  have same : (fun other => if other = slot then some ty else more.scalar other) = more.scalar := by
    funext other
    split
    · rename_i here
      rw [here, known]
    · rfl
  rw [Variables.withScalar, same]

theorem Variables.withReference_of_eq {slot : Slot} {ty : Ty}
    (known : more.reference slot = some ty) : more.withReference slot ty = more := by
  have same : (fun other => if other = slot then some ty else more.reference other) =
      more.reference := by
    funext other
    split
    · rename_i here
      rw [here, known]
    · rfl
  rw [Variables.withReference, same]

/-- A global declaration may be read with all the variables that it leaves, and more, already
known. -/
theorem Command.Typed.saturate {inLoop : Bool} {out : Variables} {command : Command}
    (global : setting.region = .global) (below : out.Le more)
    (typed : Command.Typed setting inLoop vars command out) :
    Command.Typed setting inLoop more command more := by
  -- blocks, branches and loops stand in functions only
  have inFunction {goal : Prop} (inside : setting.region = .activation) : goal := by
    rw [global] at inside
    cases inside
  have fewer := typed.le.trans below
  cases typed with
  | expr term => exact .expr (term.mono fewer)
  | @declare _ _ slot value span typed scalar accepts has region =>
      have known : more.scalar slot = some value.ty := below.scalar slot value.ty (if_pos rfl)
      have declared : Command.Typed setting inLoop more
          (.expr (.mk value.ty span (.assign (.scalar slot) value)))
          (more.withScalar slot value.ty) :=
        .declare (typed.mono fewer) scalar
          (fun other found => Option.some.inj (found.symm.trans known)) has region
      rw [Variables.withScalar_of_eq known] at declared
      exact declared
  | block inside _ => exact inFunction inside
  | branch inside _ _ _ _ => exact inFunction inside
  | branchOnly inside _ _ _ => exact inFunction inside
  | whileLoop inside _ _ _ _ => exact inFunction inside
  | doLoop inside _ _ _ => exact inFunction inside
  | brk => exact .brk
  | cont => exact .cont
  | retVoid isVoid => exact .retVoid isVoid
  | ret value ty notVoid => exact .ret (value.mono fewer) ty notVoid
  | @newArray _ _ slot kind length typed ty accepts has region =>
      have known := below.reference slot (.array (.num kind)) (if_pos rfl)
      have declared : Command.Typed setting inLoop more (.newArray slot kind length)
          (more.withReference slot (.array (.num kind))) :=
        .newArray (typed.mono fewer) ty
          (fun other found => Option.some.inj (found.symm.trans known)) has region
      rw [Variables.withReference_of_eq known] at declared
      exact declared
  | @newStruct _ _ slot name members object accepts has region =>
      have known := below.reference slot (.struct name members) (if_pos rfl)
      have declared : Command.Typed setting inLoop more (.newStruct slot name members)
          (more.withReference slot (.struct name members)) :=
        .newStruct object (fun other found => Option.some.inj (found.symm.trans known)) has region
      rw [Variables.withReference_of_eq known] at declared
      exact declared
  | @bind _ _ slot value typed object accepts has region =>
      have known := below.reference slot value.ty (if_pos rfl)
      have declared : Command.Typed setting inLoop more (.bind slot value)
          (more.withReference slot value.ty) :=
        .bind (typed.mono fewer) object
          (fun other found => Option.some.inj (found.symm.trans known)) has region
      rw [Variables.withReference_of_eq known] at declared
      exact declared

theorem Commands.Typed.saturate {inLoop : Bool} {out : Variables} {commands : List Command}
    (global : setting.region = .global) (below : out.Le more)
    (typed : Commands.Typed setting inLoop vars commands out) :
    Commands.Typed setting inLoop more commands more := by
  induction commands generalizing vars with
  | nil => exact .nil
  | cons command rest ih =>
      cases typed with
      | cons first others =>
          exact .cons (first.saturate global (others.le.trans below)) (ih others)

end MiniC
