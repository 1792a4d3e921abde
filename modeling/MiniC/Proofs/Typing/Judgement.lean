import MiniC.Lowering.Conversion

/-!
When a typed program is well formed.

The judgement follows the program text. It knows the variables whose
declarations stand before the text it looks at, and it lets a term use no
others; so a well-formed body declares every variable before using it. Slots
stay inside the layouts, operands have the types of their operators, and control
never leaves a loop or a function that is not there. A cast to the empty type
may relabel any term.
-/

namespace MiniC

/-- The type that a number, truth value or text shows by itself. -/
def Value.ty? : Value → Option Ty
  | .i32 _ => some (.num .i32)
  | .u32 _ => some (.num .u32)
  | .i64 _ => some (.num .i64)
  | .u64 _ => some (.num .u64)
  | .f32 _ => some (.num .f32)
  | .f64 _ => some (.num .f64)
  | .bool _ => some .bool
  | .str _ => some .str
  | .array _ | .struct _ | .void => none

def Ty.isDeclarable : Ty → Bool
  | .num _ | .bool | .void => true
  | .struct _ members => members.all fun member => Lowering.isCondition member.2
  | _ => false

def Ty.isObject : Ty → Bool
  | .array (.num _) => true
  | .struct name members => (Ty.struct name members).isDeclarable
  | _ => false

def Node.isUpdate : Node → Bool
  | .update _ _ _ _ _ => true
  | _ => false

namespace Typing

structure Variables where
  scalar : Slot → Option Ty
  reference : Slot → Option Ty

namespace Variables

def none : Variables := ⟨fun _ => .none, fun _ => .none⟩

def withScalar (vars : Variables) (slot : Slot) (ty : Ty) : Variables :=
  { vars with scalar := fun other => if other = slot then some ty else vars.scalar other }

def withReference (vars : Variables) (slot : Slot) (ty : Ty) : Variables :=
  { vars with reference := fun other => if other = slot then some ty else vars.reference other }

structure Le (first second : Variables) : Prop where
  scalar : ∀ slot ty, first.scalar slot = some ty → second.scalar slot = some ty
  reference : ∀ slot ty, first.reference slot = some ty → second.reference slot = some ty

theorem Le.refl (vars : Variables) : vars.Le vars :=
  ⟨fun _ _ known => known, fun _ _ known => known⟩

theorem Le.trans {first second third : Variables} (lower : first.Le second)
    (upper : second.Le third) : first.Le third :=
  ⟨fun slot ty known => upper.scalar slot ty (lower.scalar slot ty known),
    fun slot ty known => upper.reference slot ty (lower.reference slot ty known)⟩

/-- A scalar slot that has no type yet, or has this one. -/
def AcceptsScalar (vars : Variables) (slot : Slot) (ty : Ty) : Prop :=
  ∀ known, vars.scalar slot = some known → known = ty

def AcceptsReference (vars : Variables) (slot : Slot) (ty : Ty) : Prop :=
  ∀ known, vars.reference slot = some known → known = ty

theorem le_withScalar {vars : Variables} {slot : Slot} {ty : Ty}
    (accepts : vars.AcceptsScalar slot ty) : vars.Le (vars.withScalar slot ty) := by
  refine ⟨?_, fun _ _ known => known⟩
  intro other otherTy known
  by_cases same : other = slot
  · subst same
    rw [accepts otherTy known]
    exact if_pos rfl
  · simpa only [withScalar, if_neg same] using known

theorem le_withReference {vars : Variables} {slot : Slot} {ty : Ty}
    (accepts : vars.AcceptsReference slot ty) : vars.Le (vars.withReference slot ty) := by
  refine ⟨fun _ _ known => known, ?_⟩
  intro other otherTy known
  by_cases same : other = slot
  · subst same
    rw [accepts otherTy known]
    exact if_pos rfl
  · simpa only [withReference, if_neg same] using known

structure AllGlobal (vars : Variables) : Prop where
  scalar : ∀ slot ty, vars.scalar slot = some ty → slot.region = .global
  reference : ∀ slot ty, vars.reference slot = some ty → slot.region = .global

theorem AllGlobal.none : Variables.none.AllGlobal where
  scalar := by
    intro slot ty known
    cases known
  reference := by
    intro slot ty known
    cases known

theorem AllGlobal.withScalar {vars : Variables} {slot : Slot} (allGlobal : vars.AllGlobal) (ty : Ty)
    (global : slot.region = .global) : (vars.withScalar slot ty).AllGlobal where
  scalar := by
    intro other otherTy known
    by_cases same : other = slot
    · rw [same]
      exact global
    · simp only [Variables.withScalar, if_neg same] at known
      exact allGlobal.scalar other otherTy known
  reference := allGlobal.reference

theorem AllGlobal.withReference {vars : Variables} {slot : Slot} (allGlobal : vars.AllGlobal)
    (ty : Ty) (global : slot.region = .global) : (vars.withReference slot ty).AllGlobal where
  scalar := allGlobal.scalar
  reference := by
    intro other otherTy known
    by_cases same : other = slot
    · rw [same]
      exact global
    · simp only [Variables.withReference, if_neg same] at known
      exact allGlobal.reference other otherTy known

end Variables

/-- What a function body, or the initialisation, is checked against. -/
structure Setting where
  /-- Parameters and return type of every function. -/
  signature? : FunctionId → Option (List Ty × Ty)
  /-- Whether functions may be called. -/
  calls : Bool
  globals : Layout
  locals : Layout
  params : List Ty
  /-- Absent outside functions. -/
  ret? : Option Ty

namespace Setting

/-- The frame that declarations allocate from. -/
def region (setting : Setting) : Region :=
  match setting.ret? with
  | none => .global
  | some _ => .activation

def layout (setting : Setting) : Region → Layout
  | .global => setting.globals
  | .activation => setting.locals

def HasScalar (setting : Setting) (slot : Slot) : Prop :=
  slot.index < (setting.layout slot.region).scalars

def HasReference (setting : Setting) (slot : Slot) : Prop :=
  slot.index < (setting.layout slot.region).references

end Setting

/-- The types that an arithmetic operator of a kind takes. The count of a shift may be of any
integer kind. -/
structure Operands (op : ArithOp) (kind : Kind) (left right : Ty) : Prop where
  exists_for_kind : kind.isInteger || op.onFloats
  left_eq : left = .num kind
  right_eq : right = .num kind ∨
    (Lowering.isShift op = true ∧ ∃ count : Kind, count.isInteger = true ∧ right = .num count)

end Typing

open Typing

mutual

/-- A term is well formed when its type is the one that its node has by itself, or the empty type
that a cast gave it. -/
inductive Term.Typed (setting : Setting) (vars : Variables) : Term → Prop where
  | natural {ty : Ty} {span : Span} {node : Node} :
      Node.Typed setting vars node ty → Term.Typed setting vars (.mk ty span node)
  | discarded {ty : Ty} {span : Span} {node : Node} :
      Node.Typed setting vars node ty → Term.Typed setting vars (.mk .void span node)

inductive Node.Typed (setting : Setting) (vars : Variables) : Node → Ty → Prop where
  | literal {value : Value} {ty : Ty} :
      value.ty? = some ty → Node.Typed setting vars (.literal value) ty
  | load {place : Place} {ty : Ty} :
      Place.Typed setting vars place ty → Node.Typed setting vars (.load place) ty
  | argument {index : Nat} {ty : Ty} :
      setting.params[index]? = some ty → Node.Typed setting vars (.argument index) ty
  | assign {place : Place} {value : Term} :
      Place.Typed setting vars place value.ty → Term.Typed setting vars value →
      Node.Typed setting vars (.assign place value) value.ty
  | update {place : Place} {op : ArithOp} {kind operand : Kind} {rhs : Term} {yieldsOld : Bool} :
      Place.Typed setting vars place (.num kind) → Term.Typed setting vars rhs →
      Operands op operand (.num operand) rhs.ty →
      Node.Typed setting vars (.update place (.arith op operand) operand rhs yieldsOld) (.num kind)
  | convert {kind : Kind} {value : Term} :
      Term.Typed setting vars value → (Lowering.arithKind? value.ty).isSome = true →
      Node.Typed setting vars (.convert kind value) (.num kind)
  | truth {kind : Kind} {value : Term} :
      Term.Typed setting vars value → value.ty = .num kind →
      Node.Typed setting vars (.truth value) .bool
  | arith {op : ArithOp} {kind : Kind} {left right : Term} :
      Term.Typed setting vars left → Term.Typed setting vars right →
      Operands op kind left.ty right.ty →
      Node.Typed setting vars (.binary (.arith op kind) left right) (.num kind)
  | compare {op : CompareOp} {kind : Kind} {left right : Term} :
      Term.Typed setting vars left → Term.Typed setting vars right →
      left.ty = .num kind → right.ty = .num kind →
      Node.Typed setting vars (.binary (.compare op kind) left right) .bool
  | compareBool {equal : Bool} {left right : Term} :
      Term.Typed setting vars left → Term.Typed setting vars right →
      left.ty = .bool → right.ty = .bool →
      Node.Typed setting vars (.binary (.compareBool equal) left right) .bool
  | negate {kind : Kind} {operand : Term} :
      Term.Typed setting vars operand → operand.ty = .num kind →
      Node.Typed setting vars (.unary (.negate kind) operand) (.num kind)
  | bitNot {kind : Kind} {operand : Term} :
      Term.Typed setting vars operand → operand.ty = .num kind → kind.isInteger = true →
      Node.Typed setting vars (.unary (.bitNot kind) operand) (.num kind)
  | not {operand : Term} :
      Term.Typed setting vars operand → Lowering.isCondition operand.ty = true →
      Node.Typed setting vars (.unary .not operand) .bool
  | logical {isAnd : Bool} {left right : Term} :
      Term.Typed setting vars left → Term.Typed setting vars right →
      Lowering.isCondition left.ty = true → Lowering.isCondition right.ty = true →
      Node.Typed setting vars (.logical isAnd left right) .bool
  | conditional {cond yes no : Term} :
      Term.Typed setting vars cond → Term.Typed setting vars yes → Term.Typed setting vars no →
      Lowering.isCondition cond.ty = true → no.ty = yes.ty →
      Node.Typed setting vars (.conditional cond yes no) yes.ty
  | comma {first second : Term} :
      Term.Typed setting vars first → Term.Typed setting vars second →
      Node.Typed setting vars (.comma first second) second.ty
  | call {id : FunctionId} {args : List Term} {params : List Ty} {ret : Ty} :
      setting.calls = true → setting.signature? id = some (params, ret) →
      Terms.Typed setting vars args params → Node.Typed setting vars (.call id args) ret
  | builtin {builtin : Builtin} {args : List Term} {tys : List Ty} :
      Terms.Typed setting vars args tys →
      Node.Typed setting vars (.builtin builtin args) builtin.signature.ret
  | copy {value : Term} :
      Term.Typed setting vars value → value.ty.isObject = true →
      Node.Typed setting vars (.copy value) value.ty

inductive Terms.Typed (setting : Setting) (vars : Variables) : List Term → List Ty → Prop where
  | nil : Terms.Typed setting vars [] []
  | cons {first : Term} {rest : List Term} {tys : List Ty} :
      Term.Typed setting vars first → Terms.Typed setting vars rest tys →
      Terms.Typed setting vars (first :: rest) (first.ty :: tys)

inductive Place.Typed (setting : Setting) (vars : Variables) : Place → Ty → Prop where
  | scalar {slot : Slot} {ty : Ty} :
      vars.scalar slot = some ty → setting.HasScalar slot → Lowering.isCondition ty = true →
      Place.Typed setting vars (.scalar slot) ty
  | whole {slot : Slot} {ty : Ty} :
      vars.reference slot = some ty → setting.HasReference slot → ty.isObject = true →
      Place.Typed setting vars (.whole slot) ty
  | element {slot : Slot} {index : Term} {kind : Kind} :
      vars.reference slot = some (.array (.num kind)) → setting.HasReference slot →
      Term.Typed setting vars index → index.ty = .num .i64 →
      Place.Typed setting vars (.element slot index) (.num kind)
  | field {slot : Slot} {index : Nat} {struct name : String} {members : List (String × Ty)}
      {ty : Ty} :
      vars.reference slot = some (.struct struct members) → setting.HasReference slot →
      members[index]? = some (name, ty) → Lowering.isCondition ty = true →
      Place.Typed setting vars (.field slot index) ty

end

mutual

/-- A command inside or outside a loop, with the variables before it and after its normal end. What
a branch or a loop declares is gone behind it. Outside functions there are only declarations. -/
inductive Command.Typed (setting : Setting) :
    Bool → Variables → Command → Variables → Prop where
  | expr {inLoop : Bool} {vars : Variables} {term : Term} :
      Term.Typed setting vars term → Command.Typed setting inLoop vars (.expr term) vars
  /-- The first assignment to a scalar slot declares it. -/
  | declare {inLoop : Bool} {vars : Variables} {slot : Slot} {value : Term} {span : Span} :
      Term.Typed setting vars value → Lowering.isCondition value.ty = true →
      vars.AcceptsScalar slot value.ty → setting.HasScalar slot → slot.region = setting.region →
      Command.Typed setting inLoop vars (.expr (.mk value.ty span (.assign (.scalar slot) value)))
        (vars.withScalar slot value.ty)
  | block {inLoop : Bool} {vars out : Variables} {body : List Command} :
      setting.region = .activation → Commands.Typed setting inLoop vars body out →
      Command.Typed setting inLoop vars (.block body) out
  | branch {inLoop : Bool} {vars outYes outNo : Variables} {cond : Term} {yes no : Command} :
      setting.region = .activation →
      Term.Typed setting vars cond → Lowering.isCondition cond.ty = true →
      Command.Typed setting inLoop vars yes outYes → Command.Typed setting inLoop vars no outNo →
      Command.Typed setting inLoop vars (.branch cond yes (some no)) vars
  | branchOnly {inLoop : Bool} {vars out : Variables} {cond : Term} {yes : Command} :
      setting.region = .activation →
      Term.Typed setting vars cond → Lowering.isCondition cond.ty = true →
      Command.Typed setting inLoop vars yes out →
      Command.Typed setting inLoop vars (.branch cond yes none) vars
  | whileLoop {inLoop : Bool} {vars out : Variables} {cond : Term} {body : Command}
      {step : Option Term} :
      setting.region = .activation →
      Term.Typed setting vars cond → Lowering.isCondition cond.ty = true →
      Command.Typed setting true vars body out →
      (∀ term, step = some term → Term.Typed setting vars term) →
      Command.Typed setting inLoop vars (.whileLoop cond body step) vars
  | doLoop {inLoop : Bool} {vars out : Variables} {cond : Term} {body : Command} :
      setting.region = .activation →
      Command.Typed setting true vars body out →
      Term.Typed setting vars cond → Lowering.isCondition cond.ty = true →
      Command.Typed setting inLoop vars (.doLoop body cond) vars
  | brk {vars : Variables} : Command.Typed setting true vars .brk vars
  | cont {vars : Variables} : Command.Typed setting true vars .cont vars
  | retVoid {inLoop : Bool} {vars : Variables} :
      setting.ret? = some .void → Command.Typed setting inLoop vars (.ret none) vars
  | ret {inLoop : Bool} {vars : Variables} {value : Term} :
      Term.Typed setting vars value → setting.ret? = some value.ty → value.ty ≠ .void →
      Command.Typed setting inLoop vars (.ret (some value)) vars
  | newArray {inLoop : Bool} {vars : Variables} {slot : Slot} {kind : Kind} {length : Term} :
      Term.Typed setting vars length → length.ty = .num .i64 →
      vars.AcceptsReference slot (.array (.num kind)) → setting.HasReference slot →
      slot.region = setting.region →
      Command.Typed setting inLoop vars (.newArray slot kind length)
        (vars.withReference slot (.array (.num kind)))
  | newStruct {inLoop : Bool} {vars : Variables} {slot : Slot} {name : String}
      {members : List (String × Ty)} :
      (Ty.struct name members).isObject = true →
      vars.AcceptsReference slot (.struct name members) → setting.HasReference slot →
      slot.region = setting.region →
      Command.Typed setting inLoop vars (.newStruct slot name members)
        (vars.withReference slot (.struct name members))
  | bind {inLoop : Bool} {vars : Variables} {slot : Slot} {value : Term} :
      Term.Typed setting vars value → value.ty.isObject = true →
      vars.AcceptsReference slot value.ty → setting.HasReference slot →
      slot.region = setting.region →
      Command.Typed setting inLoop vars (.bind slot value) (vars.withReference slot value.ty)

inductive Commands.Typed (setting : Setting) :
    Bool → Variables → List Command → Variables → Prop where
  | nil {inLoop : Bool} {vars : Variables} : Commands.Typed setting inLoop vars [] vars
  | cons {inLoop : Bool} {vars middle out : Variables} {first : Command} {rest : List Command} :
      Command.Typed setting inLoop vars first middle →
      Commands.Typed setting inLoop middle rest out →
      Commands.Typed setting inLoop vars (first :: rest) out

end

/-! ### Programs -/

namespace Program

def signature? (program : Program) (id : FunctionId) : Option (List Ty × Ty) :=
  program.functions[id]?.map fun function => (function.params, function.ret)

def initSetting (program : Program) (calls : Bool) : Setting where
  signature? := program.signature?
  calls := calls
  globals := program.globals
  locals := ⟨0, 0⟩
  params := []
  ret? := none

def bodySetting (program : Program) (function : Function) : Setting where
  signature? := program.signature?
  calls := true
  globals := program.globals
  locals := function.layout
  params := function.params
  ret? := some function.ret

/-- The initialisation declares the global variables, and every body is well formed where these are
known. -/
structure Typed (program : Program) (calls : Bool) (globals : Variables) : Prop where
  allGlobal : globals.AllGlobal
  init : Commands.Typed (program.initSetting calls) false .none program.init globals
  body : ∀ (id : FunctionId) function body, program.functions[id]? = some function →
    function.body? = some body →
    ∃ out, Command.Typed (program.bodySetting function) false globals body out
  ret : ∀ (id : FunctionId) function, program.functions[id]? = some function →
    function.ret.isDeclarable = true

/-- A program whose slots, types and control flow are in order. -/
def WellFormed (program : Program) : Prop := ∃ globals, program.Typed true globals

end Program

mutual

theorem Command.Typed.le {setting : Setting} :
    ∀ {inLoop : Bool} {vars out : Variables} {command : Command},
      Command.Typed setting inLoop vars command out → vars.Le out
  | _, vars, _, _, .expr _ => .refl vars
  | _, _, _, _, .declare _ _ accepts _ _ => Variables.le_withScalar accepts
  | _, _, _, _, .block _ body => Commands.Typed.le body
  | _, vars, _, _, .branch _ _ _ _ _ => .refl vars
  | _, vars, _, _, .branchOnly _ _ _ _ => .refl vars
  | _, vars, _, _, .whileLoop _ _ _ _ _ => .refl vars
  | _, vars, _, _, .doLoop _ _ _ _ => .refl vars
  | _, vars, _, _, .brk => .refl vars
  | _, vars, _, _, .cont => .refl vars
  | _, vars, _, _, .retVoid _ => .refl vars
  | _, vars, _, _, .ret _ _ _ => .refl vars
  | _, _, _, _, .newArray _ _ accepts _ _ => Variables.le_withReference accepts
  | _, _, _, _, .newStruct _ accepts _ _ => Variables.le_withReference accepts
  | _, _, _, _, .bind _ _ accepts _ _ => Variables.le_withReference accepts

theorem Commands.Typed.le {setting : Setting} :
    ∀ {inLoop : Bool} {vars out : Variables} {commands : List Command},
      Commands.Typed setting inLoop vars commands out → vars.Le out
  | _, vars, _, _, .nil => .refl vars
  | _, _, _, _, .cons first rest => (Command.Typed.le first).trans (Commands.Typed.le rest)

end

theorem Commands.Typed.append {setting : Setting} {inLoop : Bool} {vars middle out : Variables}
    {first second : List Command} (typed : Commands.Typed setting inLoop vars first middle)
    (rest : Commands.Typed setting inLoop middle second out) :
    Commands.Typed setting inLoop vars (first ++ second) out := by
  induction first generalizing vars with
  | nil =>
      cases typed
      exact rest
  | cons command others ih =>
      cases typed with
      | cons head tail => exact .cons head (ih tail)

mutual

theorem Command.Typed.allGlobal {setting : Setting} (global : setting.region = .global) :
    ∀ {inLoop : Bool} {vars out : Variables} {command : Command}, vars.AllGlobal →
      Command.Typed setting inLoop vars command out → out.AllGlobal
  | _, _, _, _, allGlobal, .expr _ => allGlobal
  | _, _, _, _, allGlobal, .declare _ _ _ _ region =>
      allGlobal.withScalar _ (region.trans global)
  | _, _, _, _, allGlobal, .block _ body => Commands.Typed.allGlobal global allGlobal body
  | _, _, _, _, allGlobal, .branch _ _ _ _ _ => allGlobal
  | _, _, _, _, allGlobal, .branchOnly _ _ _ _ => allGlobal
  | _, _, _, _, allGlobal, .whileLoop _ _ _ _ _ => allGlobal
  | _, _, _, _, allGlobal, .doLoop _ _ _ _ => allGlobal
  | _, _, _, _, allGlobal, .brk => allGlobal
  | _, _, _, _, allGlobal, .cont => allGlobal
  | _, _, _, _, allGlobal, .retVoid _ => allGlobal
  | _, _, _, _, allGlobal, .ret _ _ _ => allGlobal
  | _, _, _, _, allGlobal, .newArray _ _ _ _ region =>
      allGlobal.withReference _ (region.trans global)
  | _, _, _, _, allGlobal, .newStruct _ _ _ region =>
      allGlobal.withReference _ (region.trans global)
  | _, _, _, _, allGlobal, .bind _ _ _ _ region =>
      allGlobal.withReference _ (region.trans global)

theorem Commands.Typed.allGlobal {setting : Setting} (global : setting.region = .global) :
    ∀ {inLoop : Bool} {vars out : Variables} {commands : List Command}, vars.AllGlobal →
      Commands.Typed setting inLoop vars commands out → out.AllGlobal
  | _, _, _, _, allGlobal, .nil => allGlobal
  | _, _, _, _, allGlobal, .cons first rest =>
      Commands.Typed.allGlobal global (Command.Typed.allGlobal global allGlobal first) rest

end

end MiniC
