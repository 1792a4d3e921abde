import MiniC.Proofs.Machine.Points
import MiniC.Proofs.Soundness.State

/-!
Points at which the evaluator may be called.

A point is ready when its program text is well formed and its state is well typed
for the variables that the text may use. What a point calls is ready again, and
the outcomes in between are well typed; both are proved together, step by step,
because a later call starts in the state that the earlier ones have left.
-/

namespace MiniC.Soundness

open Lowering Machine Typing

structure SameGlobals (first second : Variables) : Prop where
  scalar : ∀ index, first.scalar ⟨.global, index⟩ = second.scalar ⟨.global, index⟩
  reference : ∀ index, first.reference ⟨.global, index⟩ = second.reference ⟨.global, index⟩

namespace SameGlobals

theorem refl (vars : Variables) : SameGlobals vars vars := ⟨fun _ => rfl, fun _ => rfl⟩

theorem symm {first second : Variables} (same : SameGlobals first second) :
    SameGlobals second first :=
  ⟨fun index => (same.scalar index).symm, fun index => (same.reference index).symm⟩

theorem trans {first second third : Variables} (lower : SameGlobals first second)
    (upper : SameGlobals second third) : SameGlobals first third :=
  ⟨fun index => (lower.scalar index).trans (upper.scalar index),
    fun index => (lower.reference index).trans (upper.reference index)⟩

theorem withScalar (vars : Variables) {slot : Slot} (ty : Ty) (own : slot.region = .activation) :
    SameGlobals (vars.withScalar slot ty) vars := by
  refine ⟨?_, fun _ => rfl⟩
  intro index
  refine if_neg ?_
  intro same
  rw [← same] at own
  cases own

theorem withReference (vars : Variables) {slot : Slot} (ty : Ty)
    (own : slot.region = .activation) : SameGlobals (vars.withReference slot ty) vars := by
  refine ⟨fun _ => rfl, ?_⟩
  intro index
  refine if_neg ?_
  intro same
  rw [← same] at own
  cases own

end SameGlobals

mutual

/-- A function declares no global variables. -/
theorem Command.Typed.sameGlobals {setting : Setting} (inside : setting.region = .activation) :
    ∀ {inLoop : Bool} {vars out : Variables} {command : Command},
      Command.Typed setting inLoop vars command out → SameGlobals out vars
  | _, vars, _, _, .expr _ => .refl vars
  | _, vars, _, _, .declare _ _ _ _ region => .withScalar vars _ (region.trans inside)
  | _, _, _, _, .block _ body => Commands.Typed.sameGlobals inside body
  | _, vars, _, _, .branch _ _ _ _ _ => .refl vars
  | _, vars, _, _, .branchOnly _ _ _ _ => .refl vars
  | _, vars, _, _, .whileLoop _ _ _ _ _ => .refl vars
  | _, vars, _, _, .doLoop _ _ _ _ => .refl vars
  | _, vars, _, _, .brk => .refl vars
  | _, vars, _, _, .cont => .refl vars
  | _, vars, _, _, .retVoid _ => .refl vars
  | _, vars, _, _, .ret _ _ _ => .refl vars
  | _, vars, _, _, .newArray _ _ _ _ region => .withReference vars _ (region.trans inside)
  | _, vars, _, _, .newStruct _ _ _ region => .withReference vars _ (region.trans inside)
  | _, vars, _, _, .bind _ _ _ _ region => .withReference vars _ (region.trans inside)

theorem Commands.Typed.sameGlobals {setting : Setting} (inside : setting.region = .activation) :
    ∀ {inLoop : Bool} {vars out : Variables} {commands : List Command},
      Commands.Typed setting inLoop vars commands out → SameGlobals out vars
  | _, vars, _, _, .nil => .refl vars
  | _, _, _, _, .cons first rest =>
      (Commands.Typed.sameGlobals inside rest).trans (Command.Typed.sameGlobals inside first)

end

variable {G : Guarantee} {program : Program} {globals vars out : Variables}
  {context : Machine.Context} {setting : Setting} {state after : Machine.State}

/-- A state that fits a part of the program. The variables that are known there are local ones and
global ones; where functions may be called, these are all the global ones. -/
structure Here (G : Guarantee) (program : Program) (globals : Variables) (context : Machine.Context)
    (setting : Setting) (vars : Variables) (state : Machine.State) : Prop where
  program_eq : context.program = program
  signature_eq : setting.signature? = program.signature?
  globals_eq : setting.globals = program.globals
  known : setting.calls = true → SameGlobals vars globals
  below : ∀ index ty, vars.reference ⟨.global, index⟩ = some ty →
    globals.reference ⟨.global, index⟩ = some ty
  typed : StateTyped G setting vars state

theorem Here.later (here : Here G program globals context setting vars state)
    (later : Later G setting vars state after) :
    Here G program globals context setting vars after :=
  { here with typed := later.typed }

theorem Here.declared (here : Here G program globals context setting vars state)
    (same : SameGlobals out vars) (typed : StateTyped G setting out after) :
    Here G program globals context setting out after :=
  { here with
    known := fun calls => same.trans (here.known calls)
    below := fun index ty known => here.below index ty ((same.reference index).symm.trans known)
    typed := typed }

/-- What a function finds when it is called: a heap and the global variables. -/
structure Outside (G : Guarantee) (program : Program) (globals : Variables)
    (state : Machine.State) : Prop where
  heap : HeapTyped G state.world.heap
  globals : FrameTyped G G.early state.world.heap program.globals .global globals state.globals

theorem Here.outside (here : Here G program globals context setting vars state)
    (calls : setting.calls = true) : Outside G program globals state := by
  have same := (here.known calls).symm
  have frame := here.typed.globals.congr same.scalar same.reference
  rw [here.globals_eq] at frame
  exact ⟨here.typed.heap, frame⟩

theorem Here.returned (here : Here G program globals context setting vars state)
    (calls : setting.calls = true) (outside : Outside G program globals after)
    (extended : state.world.heap.Extends after.world.heap) (locals : after.locals = state.locals) :
    Later G setting vars state after := by
  have same := here.known calls
  have frame := outside.globals.congr same.scalar same.reference
  rw [← here.globals_eq] at frame
  refine ⟨⟨outside.heap, frame, ?_, ?_⟩, extended⟩
  · rw [locals]
    exact here.typed.locals.mono extended (.refl vars)
  · intro index ty found
    rw [locals]
    exact (here.typed.args index ty found).mono extended

def ValuesTyped (G : Guarantee) (heap : Heap) (values : List Value) (tys : List Ty) : Prop :=
  ∀ (index : Nat) ty, tys[index]? = some ty → HasType G heap ((values[index]?).getD .void) ty

theorem Outside.enter {function : Function} {args : List Value}
    (outside : Outside G program globals state) (allGlobal : globals.AllGlobal)
    (args_typed : ValuesTyped G state.world.heap args function.params) :
    StateTyped G (program.bodySetting function) globals
      ⟨state.globals, .new function.layout args, state.world⟩ where
  heap := outside.heap
  globals := outside.globals
  locals :=
    { scalars_size := Array.size_replicate
      references_size := Array.size_replicate
      scalar := by
        intro index ty known
        cases allGlobal.scalar _ ty known
      reference := by
        intro index ty known
        cases allGlobal.reference _ ty known }
  args := args_typed

/-! ### Ready points -/

/-- A call of the evaluator with well-formed text and a well-typed state. -/
inductive Ready (G : Guarantee) (program : Program) (globals : Variables) : Point → Prop where
  | eval {context : Machine.Context} {fuel : Nat} {setting : Setting} {inLoop : Bool}
      {vars out : Variables} {term : Term} {state : Machine.State} :
      Here G program globals context setting vars state →
      Command.Typed setting inLoop vars (.expr term) out →
      Ready G program globals (.eval context fuel term state)
  | evalAll {context : Machine.Context} {fuel : Nat} {setting : Setting} {vars : Variables}
      {terms : List Term} {tys : List Ty} {state : Machine.State} :
      Here G program globals context setting vars state → Terms.Typed setting vars terms tys →
      Ready G program globals (.evalAll context fuel terms state)
  | locate {context : Machine.Context} {fuel : Nat} {setting : Setting} {vars : Variables}
      {place : Place} {ty : Ty} {state : Machine.State} :
      Here G program globals context setting vars state → Place.Typed setting vars place ty →
      Ready G program globals (.locate context fuel place state)
  /-- The slot may be one that is about to be declared. -/
  | locateScalar {context : Machine.Context} {fuel : Nat} {slot : Slot} {state : Machine.State} :
      Ready G program globals (.locate context fuel (.scalar slot) state)
  | call {context : Machine.Context} {fuel : Nat} {id : FunctionId} {args : List Value}
      {params : List Ty} {ret : Ty} {state : Machine.State} :
      context.program = program → program.signature? id = some (params, ret) →
      Outside G program globals state → ValuesTyped G state.world.heap args params →
      Ready G program globals (.call context fuel id args state)
  | exec {context : Machine.Context} {fuel : Nat} {setting : Setting} {inLoop : Bool}
      {vars out : Variables} {command : Command} {state : Machine.State} :
      Here G program globals context setting vars state →
      Command.Typed setting inLoop vars command out →
      Ready G program globals (.exec context fuel command state)
  | execAll {context : Machine.Context} {fuel : Nat} {setting : Setting} {inLoop : Bool}
      {vars out : Variables} {commands : List Command} {state : Machine.State} :
      Here G program globals context setting vars state → setting.region = .activation →
      Commands.Typed setting inLoop vars commands out →
      Ready G program globals (.execAll context fuel commands state)
  | execWhile {context : Machine.Context} {fuel : Nat} {setting : Setting} {vars out : Variables}
      {cond : Term} {body : Command} {step : Option Term} {state : Machine.State} :
      Here G program globals context setting vars state → Term.Typed setting vars cond →
      Command.Typed setting true vars body out →
      (∀ term, step = some term → Term.Typed setting vars term) →
      Ready G program globals (.execWhile context fuel cond body step state)
  | execDo {context : Machine.Context} {fuel : Nat} {setting : Setting} {vars out : Variables}
      {body : Command} {cond : Term} {state : Machine.State} :
      Here G program globals context setting vars state →
      Command.Typed setting true vars body out → Term.Typed setting vars cond →
      Ready G program globals (.execDo context fuel body cond state)

/-- Whatever is reached from a point, no global is read while it is empty, unless any scalar may
hold the empty value, and no update mixes kinds, unless scalars may. -/
structure Clean (G : Guarantee) (point : Point) : Prop where
  filled : G.early = true → ∀ reached, point.Within reached → reached.ReadsEmpty →
    ∀ ty, isCondition ty = true → G.admits ty .void
  unmixed : G.exact = true → ∀ reached, point.Within reached → ¬reached.MixesKinds

theorem Clean.calls {point next : Point} (clean : Clean G point) (called : next ∈ point.calls) :
    Clean G next where
  filled := fun early reached within => clean.filled early reached (.deeper called within)
  unmixed := fun exact reached within => clean.unmixed exact reached (.deeper called within)

/-- An update without a type finds a value of the kind that it computes in. -/
theorem Clean.ty?_old {context : Machine.Context} {fuel : Nat} {shown : Ty} {span : Span}
    {place : Place} {fn : BinaryFn} {operand : Kind} {rhs : Term} {yieldsOld : Bool}
    {state between middle last : Machine.State} {location : Location} {old right : Value}
    (clean : Clean G (.eval context (fuel + 1)
      (.mk shown span (.update place fn operand rhs yieldsOld)) state))
    (found : locate context fuel place state = .done location between)
    (loaded : load location between = .done old middle)
    (evaluated : eval context fuel rhs middle = .done right last) :
    shown = .void → G.exact = true → old.ty? = some (.num operand) := by
  rintro rfl exact
  refine Decidable.not_not.mp ?_
  intro different
  exact clean.unmixed exact _ (.here _)
    ⟨location, between, old, middle, right, last, found, loaded, evaluated, different⟩

/-- A step with the calls it makes: where these are clean, the step ends as it should and they are
ready. -/
def Good (G : Guarantee) (program : Program) (globals : Variables) {α : Type}
    (Done : α → Machine.State → Prop) (outcome : Outcome α) (points : List Point) : Prop :=
  (∀ point ∈ points, Clean G point) →
    Ends G outcome Done ∧ ∀ point ∈ points, Ready G program globals point

namespace Good

variable {α β : Type} {Done : β → Machine.State → Prop} {Between : α → Machine.State → Prop}

theorem of_ends {outcome : Outcome β} (ends : Ends G outcome Done) :
    Good G program globals Done outcome [] := by
  intro _
  refine ⟨ends, ?_⟩
  intro point impossible
  cases impossible

theorem visit {outcome : Outcome β} {point : Point} (ready : Ready G program globals point)
    (ends : Clean G point → Ends G outcome Done) :
    Good G program globals Done outcome [point] := by
  intro clean
  refine ⟨ends (clean point List.mem_cons_self), ?_⟩
  intro other listed
  rw [List.mem_singleton.mp listed]
  exact ready

theorem imp {outcome : Outcome α} {points : List Point} {Weaker : α → Machine.State → Prop}
    (good : Good G program globals Between outcome points)
    (weaker : ∀ value after, Between value after → Weaker value after) :
    Good G program globals Weaker outcome points := by
  intro clean
  obtain ⟨ends, ready⟩ := good clean
  exact ⟨ends.imp weaker, ready⟩

/-- The outcome itself may be used behind a step. -/
theorem withOutcome {outcome : Outcome α} {points : List Point}
    (good : Good G program globals Between outcome points) :
    Good G program globals (fun value after => outcome = .done value after ∧ Between value after)
      outcome points := by
  intro clean
  obtain ⟨ends, ready⟩ := good clean
  exact ⟨ends.withOutcome, ready⟩

/-- Two steps in sequence; the second makes its calls only if the first ends well. -/
theorem bind {step : Step α} {next : α → Step β} {points : List Point}
    {behind : α → Machine.State → List Point}
    (first : Good G program globals Between (step state) points)
    (second : ∀ value after, Between value after →
      Good G program globals Done (next value after) (behind value after)) :
    Good G program globals Done ((step >>= next) state)
      (points ++ Machine.after (step state) behind) := by
  intro clean
  obtain ⟨ends, ready⟩ := first fun point listed => clean point (List.mem_append_left _ listed)
  have behind_clean : ∀ point ∈ Machine.after (step state) behind, Clean G point :=
    fun point listed => clean point (List.mem_append_right _ listed)
  have rest : ∀ value after, step state = .done value after → Between value after →
      Ends G (next value after) Done ∧
        ∀ point ∈ behind value after, Ready G program globals point := by
    intro value after same between
    rw [same] at behind_clean
    exact second value after between behind_clean
  refine ⟨ends.bind fun value after same between => (rest value after same between).1, ?_⟩
  intro point listed
  rcases List.mem_append.mp listed with early | late
  · exact ready point early
  · cases same : step state with
    | done value after =>
        rw [same] at late
        exact (rest value after same (ends.done value after same)).2 point late
    | failed failure after =>
        rw [same] at late
        cases late
    | exhausted =>
        rw [same] at late
        cases late

theorem step {first : Step α} {next : α → Step β} {behind : α → Machine.State → List Point}
    (ends : Ends G (first state) Between)
    (second : ∀ value after, Between value after →
      Good G program globals Done (next value after) (behind value after)) :
    Good G program globals Done ((first >>= next) state) (Machine.after (first state) behind) :=
  bind (of_ends ends) second

theorem last {step : Step α} {next : α → Step β} {points : List Point}
    (first : Good G program globals Between (step state) points)
    (second : ∀ value after, Between value after → Ends G (next value after) Done) :
    Good G program globals Done ((step >>= next) state) points := by
  intro clean
  obtain ⟨ends, ready⟩ := first clean
  exact ⟨ends.bind fun value after _ between => second value after between, ready⟩

end Good

end MiniC.Soundness
