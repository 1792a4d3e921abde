import MiniC.Proofs.Soundness.Exec

/-!
Whole runs.

A run starts with empty global variables and declares them one after the other.
Where the declarations call no functions, each is declared before it is used.
Where they do, a function may come to a global before its declaration, and finds
it empty.
-/

namespace MiniC.Soundness

open Lowering Machine Typing

variable {G : Guarantee} {program : Program} {globals vars out : Variables} {world : World}

private theorem SameGlobals.of_le {first second : Variables} (lower : first.Le second)
    (upper : second.Le first) : SameGlobals first second where
  scalar := by
    intro index
    cases known : second.scalar ⟨.global, index⟩ with
    | some ty => exact upper.scalar _ ty known
    | none =>
        cases before : first.scalar ⟨.global, index⟩ with
        | none => rfl
        | some ty =>
            rw [lower.scalar _ ty before] at known
            cases known
  reference := by
    intro index
    cases known : second.reference ⟨.global, index⟩ with
    | some ty => exact upper.reference _ ty known
    | none =>
        cases before : first.reference ⟨.global, index⟩ with
        | none => rfl
        | some ty =>
            rw [lower.reference _ ty before] at known
            cases known

/-- A run starts well typed: with no variables, or with all the global ones where these may still
be empty. -/
theorem initial_typed {calls : Bool} (heap : HeapTyped G world.heap) (allGlobal : vars.AllGlobal)
    (unset : vars = .none ∨ G.early = true) :
    StateTyped G (program.initSetting calls) vars (.initial program world) where
  heap := heap
  globals :=
    { scalars_size := Array.size_replicate
      references_size := Array.size_replicate
      scalar := by
        intro index ty known
        rcases unset with rfl | early
        · cases known
        · exact Or.inr ⟨early, Frame.scalar_new _ _ index⟩
      reference := by
        intro index ty known
        rcases unset with rfl | early
        · cases known
        · exact Or.inr ⟨early, Frame.reference?_new _ _ index⟩ }
  locals :=
    { scalars_size := rfl
      references_size := rfl
      scalar := by
        intro index ty known
        cases allGlobal.scalar _ ty known
      reference := by
        intro index ty known
        cases allGlobal.reference _ ty known }
  args := by
    intro index ty impossible
    cases impossible

/-- The declarations run in order. None of them can break, continue or return. -/
theorem init_good {calls : Bool} {context : Machine.Context} {commands : List Command}
    {state : Machine.State} {fuel : Nat} (less : Behaved G program globals fuel)
    (here : Here G program globals context (program.initSetting calls) vars state)
    (settled : calls = true → globals.Le vars) (below : out.Le globals)
    (typed : Commands.Typed (program.initSetting calls) false vars commands out) :
    Good G program globals
      (fun _ after => StateTyped G (program.initSetting calls) out after)
      (execInit context fuel commands state) (initPoints context fuel commands state) := by
  induction commands generalizing vars state with
  | nil =>
      cases typed
      exact .of_ends (.of_done here.typed)
  | cons first rest ih =>
      cases typed with
      | @cons _ _ middle _ _ _ firstTyped restTyped =>
          rw [execInit, initPoints]
          refine (less.command here firstTyped).bind ?_
          intro flow after flows
          have normal : flow = .normal := by
            cases flow with
            | normal => rfl
            | brk => cases flows.jump (.inl rfl)
            | cont => cases flows.jump (.inr rfl)
            | ret value =>
                obtain ⟨ret, impossible, _⟩ := flows.ret value rfl
                cases impossible
          have belowHere : middle.Le globals := restTyped.le.trans below
          have settledHere (isTrue : calls = true) : globals.Le middle :=
            (settled isTrue).trans firstTyped.le
          have arrived : Here G program globals context (program.initSetting calls) middle after :=
            { here with
              known := fun isTrue => .of_le belowHere (settledHere isTrue)
              below := fun _ => belowHere.reference _
              typed := flows.normal normal }
          exact ih arrived settledHere restTyped

/-! ### Runs -/

/-- The declarations leave behind what a function may find. -/
theorem init_outside {calls : Bool} (wellFormed : program.Typed calls globals)
    (lenient : calls = true → G.early = true) (heap : HeapTyped G world.heap) (fuel limit : Nat) :
    Good G program globals (fun _ after => Outside G program globals after)
      (execInit ⟨program, limit, 0⟩ fuel program.init (.initial program world))
      (initPoints ⟨program, limit, 0⟩ fuel program.init (.initial program world)) := by
  -- the variables that are known at the start: all of them, if functions may come to them early
  obtain ⟨vars, initTyped, settled, allGlobal, unset⟩ : ∃ vars,
      Commands.Typed (program.initSetting calls) false vars program.init globals ∧
        (calls = true → globals.Le vars) ∧ vars.AllGlobal ∧
        (vars = .none ∨ G.early = true) := by
    cases calls with
    | false => exact ⟨.none, wellFormed.init, nofun, .none, Or.inl rfl⟩
    | true =>
        exact ⟨globals, wellFormed.init.saturate rfl (.refl globals),
          fun _ => .refl globals, wellFormed.allGlobal, Or.inr (lenient rfl)⟩
  have here : Here G program globals ⟨program, limit, 0⟩ (program.initSetting calls) vars
      (.initial program world) :=
    { program_eq := rfl
      signature_eq := rfl
      globals_eq := rfl
      known := fun isTrue => .of_le initTyped.le (settled isTrue)
      below := fun _ => initTyped.le.reference _
      typed := initial_typed heap allGlobal unset }
  refine (init_good (behaved wellFormed fuel) here settled (.refl globals) initTyped).imp ?_
  intro _ after typed
  exact ⟨typed.heap, typed.globals⟩

/-- A run of an entry that can do without arguments ends with a value of its type, and comes to
ready points only. -/
theorem run_good {calls : Bool} {entry : FunctionId} {params : List Ty} {ret : Ty}
    (wellFormed : program.Typed calls globals)
    (lenient : calls = true → G.early = true) (heap : HeapTyped G world.heap)
    (signature : program.signature? entry = some (params, ret))
    (args : ∀ heap, ValuesTyped G heap [] params) (fuel limit : Nat) :
    Good G program globals
      (fun value after => HasType G after.world.heap value ret ∧ (ret = .void → value = .void))
      ((execInit ⟨program, limit, 0⟩ fuel program.init >>= fun _ =>
        call ⟨program, limit, 0⟩ fuel entry []) (.initial program world))
      (runPoints fuel program entry limit world) := by
  refine (init_outside wellFormed lenient heap fuel limit).bind ?_
  intro _ after outside
  refine (((behaved wellFormed fuel).call rfl signature outside (args _)).good
    (.call rfl signature outside (args _))).imp ?_
  intro value last returns
  exact ⟨returns.hasType, returns.empty⟩

theorem ValuesTyped.nil (heap : Heap) : ValuesTyped G heap [] [] := by
  intro index ty impossible
  cases impossible

/-- What is said of every run of a program: its points, its result and its failures. -/
structure RunSound (G : Guarantee) (program : Program) (globals : Variables) (entry : FunctionId)
    (ret : Ty) (fuel limit : Nat) (world : World) : Prop where
  points : ∀ point, Visits fuel program entry limit world point →
    Clean G point ∧ Ready G program globals point
  exitCode : ∀ exitCode? last,
    runWith fuel program entry limit world = .finished exitCode? last → ∃ value,
      exitCode? = value.exitCode? ∧ HasType G last.heap value ret ∧ (ret = .void → value = .void)
  failure : ∀ failure last, runWith fuel program entry limit world = .failed failure last →
    Excused G failure

/-- A run that starts with a typed heap is sound, if it reads no empty global and mixes no kinds
where that matters. -/
theorem run_sound {calls : Bool} {entry : FunctionId} {ret : Ty} {fuel limit : Nat}
    (wellFormed : program.Typed calls globals)
    (lenient : calls = true → G.early = true) (heap : HeapTyped G world.heap)
    (signature : program.signature? entry = some ([], ret))
    (filled : G.early = true → ∀ point, Visits fuel program entry limit world point →
      point.ReadsEmpty → ∀ ty, isCondition ty = true → G.admits ty .void)
    (unmixed : G.exact = true → ∀ point, Visits fuel program entry limit world point →
      ¬point.MixesKinds) :
    RunSound G program globals entry ret fuel limit world := by
  have clean : ∀ point ∈ runPoints fuel program entry limit world, Clean G point := by
    intro first listed
    exact ⟨fun early reached within => filled early reached ⟨first, listed, within⟩,
      fun exact reached within => unmixed exact reached ⟨first, listed, within⟩⟩
  obtain ⟨ends, ready⟩ := run_good wellFormed lenient heap signature .nil fuel limit clean
  have start : ∀ first ∈ runPoints fuel program entry limit world,
      Clean G first ∧ Ready G program globals first :=
    fun first listed => ⟨clean first listed, ready first listed⟩
  have step : ∀ current, Clean G current ∧ Ready G program globals current →
      ∀ next ∈ current.calls, Clean G next ∧ Ready G program globals next :=
    fun _ holds next called =>
      ⟨holds.1.calls called, holds.2.calls wellFormed holds.1 next called⟩
  refine ⟨fun point visited => visited.induction start step, ?_, ?_⟩
  · intro exitCode? last finished
    unfold runWith at finished
    simp only at finished
    split at finished
    · rename_i value state outcome
      cases finished
      obtain ⟨hasType, empty⟩ := ends.done value state outcome
      exact ⟨value, rfl, hasType, empty⟩
    · cases finished
    · cases finished
  · intro failure last failed
    unfold runWith at failed
    simp only at failed
    split at failed
    · cases failed
    · rename_i state outcome
      cases failed
      exact ends.failed failure state outcome
    · cases failed

end MiniC.Soundness
