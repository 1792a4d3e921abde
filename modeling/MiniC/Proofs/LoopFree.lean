import MiniC.Proofs.CallDepth
import MiniC.Proofs.Machine.Endings

/-!
Programs without loops.

Such a program comes to an end whatever its functions call: a point leads only to
smaller parts of the same text, until a function is called, and then one call
less may follow. The two together bound how deep the evaluation can go, and with
that the fuel it spends.
-/

namespace MiniC

namespace Command

def isLoop : Command → Bool
  | .whileLoop _ _ _ | .doLoop _ _ => true
  | _ => false

mutual

def loops : Command → Bool
  | .block body => anyLoops body
  | .branch _ yes no => yes.loops || optionLoops no
  | .whileLoop _ _ _ | .doLoop _ _ => true
  | _ => false

def anyLoops : List Command → Bool
  | [] => false
  | first :: rest => first.loops || anyLoops rest

def optionLoops : Option Command → Bool
  | none => false
  | some command => command.loops

end

private theorem anyLoops_eq (commands : List Command) : anyLoops commands = commands.any loops := by
  induction commands with
  | nil => rfl
  | cons first rest ih => rw [anyLoops, ih, List.any_cons]

private theorem loops_of_isLoop {command : Command} (loop : command.isLoop = true) :
    command.loops = true := by
  cases command with
  | whileLoop _ _ _ => rfl
  | doLoop _ _ => rfl
  | _ => cases loop

theorem Part.loops {command part : Command} (inside : command.Part part)
    (found : part.loops = true) : command.loops = true := by
  induction inside with
  | self command => exact found
  | block listed _ ih =>
      rw [Command.loops, anyLoops_eq]
      exact List.any_eq_true.mpr ⟨_, listed, ih found⟩
  | yes _ ih => rw [Command.loops, ih found, Bool.true_or]
  | no _ ih => rw [Command.loops, optionLoops, ih found, Bool.or_true]
  | whileBody _ _ => rfl
  | doBody _ _ => rfl

def NoLoops (command : Command) : Prop := command.Everywhere fun part => part.isLoop = false

theorem noLoops_of_loops {command : Command} (none : command.loops = false) :
    command.NoLoops := by
  intro part inside
  refine Bool.eq_false_iff.mpr ?_
  intro loop
  rw [inside.loops (loops_of_isLoop loop)] at none
  cases none

end Command

/-- No loop stands in the body of a function or in the initialisation. -/
structure Program.LoopFree (program : Program) : Prop where
  bodies : program.BodiesObey fun part => part.isLoop = false
  init : ∀ command ∈ program.init, command.NoLoops

private theorem Program.LoopFree.of_loops {program : Program}
    (bodies : (program.functions.toList.all fun function => function.body?.all (!·.loops)) = true)
    (init : (program.init.all (!·.loops)) = true) : program.LoopFree := by
  constructor
  · intro id function body found defined
    have listed := Array.mem_toList_iff.mpr (Array.mem_of_getElem? found)
    have checked := List.all_eq_true.mp bodies function listed
    rw [defined] at checked
    exact Command.noLoops_of_loops (by simpa using checked)
  · intro command listed
    have checked := List.all_eq_true.mp init command listed
    exact Command.noLoops_of_loops (by simpa using checked)

private theorem Program.size_pos (program : Program) : 0 < sizeOf program := by
  obtain ⟨functions, globals, init, main?⟩ := program
  rw [Program.mk.sizeOf_spec]
  omega

private theorem Program.size_init_lt {program : Program} {command : Command}
    (listed : command ∈ program.init) : sizeOf command < sizeOf program := by
  have inList := List.sizeOf_lt_of_mem listed
  obtain ⟨functions, globals, init, main⟩ := program
  simp only [Program.mk.sizeOf_spec] at inList ⊢
  omega

namespace Machine

namespace Point

variable {point next : Point} {context : Context} {fuel : Nat} {state : State}
  {program : Program}

/-- How much text a point has before it. A call of a function has none of its own. -/
noncomputable def size : Point → Nat
  | eval _ _ term _ => sizeOf term
  | evalAll _ _ terms _ => sizeOf terms
  | locate _ _ place _ => sizeOf place
  | exec _ _ command _ => sizeOf command
  | execAll _ _ commands _ => sizeOf commands
  | _ => 0

/-- A round of a loop, which comes back to the same text. -/
def isRound : Point → Bool
  | execWhile _ _ _ _ _ _ | execDo _ _ _ _ _ => true
  | _ => false

/-- What a point with the given fuel may lead to before a function is called: a point with less text
before it, and no round of a loop. -/
structure Below (text fuel : Nat) (next : Point) : Prop where
  less : next.size < text
  noRound : next.isRound = false
  fuel_eq : fuel = next.fuel + 1

private theorem nodeCalls_below {node : Node} (called : next ∈ nodeCalls context fuel node state) :
    next.Below (sizeOf node) (fuel + 1) := by
  cases node <;> simp only [nodeCalls] at called <;>
    grind [→ mem_next_of_mem_after, Below, Point.size, Point.isRound, Point.fuel]

private theorem commandCalls_below {command : Command} (noLoop : command.isLoop = false)
    (called : next ∈ commandCalls context fuel command state) :
    next.Below (sizeOf command) (fuel + 1) := by
  fun_cases commandCalls context fuel command state <;>
    grind [→ mem_next_of_mem_after, Below, Point.size, Point.isRound, Point.fuel, Command.isLoop,
      commandCalls]

/-- Only a call of a function leads to more text. -/
theorem calls_below (noLoops : ∀ command ∈ point.commands, command.isLoop = false)
    (noRound : point.isRound = false) (other : point.isCall = false)
    (called : next ∈ point.calls) : next.Below point.size point.fuel := by
  obtain ⟨amount, left⟩ := Nat.exists_eq_succ_of_ne_zero (fuel_ne_zero_of_calls called)
  cases point with
  | eval context fuel term state =>
      cases left
      obtain ⟨ty, span, node⟩ := term
      obtain ⟨less, noRound, sameFuel⟩ := nodeCalls_below called
      refine ⟨Nat.lt_trans less ?_, noRound, sameFuel⟩
      rw [size, Term.mk.sizeOf_spec]
      omega
  | exec context fuel command state =>
      cases left
      exact commandCalls_below (noLoops command List.mem_cons_self) called
  | call context fuel id args state => cases other
  | execWhile context fuel cond body step state => cases noRound
  | execDo context fuel body cond state => cases noRound
  | evalAll context fuel terms state =>
      cases left
      cases terms <;>
        grind [→ mem_next_of_mem_after, Below, calls, Point.size, Point.isRound, Point.fuel]
  | locate context fuel place state =>
      cases left
      cases place <;> grind [Below, calls, Point.size, Point.isRound, Point.fuel]
  | execAll context fuel commands state =>
      cases left
      cases commands <;>
        grind [→ mem_next_of_mem_after, Below, calls, Point.size, Point.isRound, Point.fuel]

/-- The text before a point, and a whole program for each call that may still be made inside. -/
noncomputable def weight (point : Point) : Nat :=
  sizeOf point.context.program * (point.context.limit - point.context.depth) + point.size

private theorem size_body_lt {id : FunctionId} {function : Function} {body : Command}
    (entered : enter context id = .ok (function, body)) : sizeOf body < sizeOf context.program := by
  obtain ⟨found, defined⟩ := enter_eq_ok entered
  have inProgram := Array.sizeOf_lt_of_mem (Array.mem_of_getElem? found)
  obtain ⟨⟨functions, globals, init, main?⟩, limit, depth⟩ := context
  obtain ⟨name, params, ret, layout, body?, span⟩ := function
  cases defined
  simp only [Program.mk.sizeOf_spec, Function.mk.sizeOf_spec, Option.some.sizeOf_spec] at inProgram ⊢
  omega

private theorem weight_call_lt (isCall : point.isCall = true) (called : next ∈ point.calls) :
    next.weight < point.weight ∧ next.isRound = false ∧ point.fuel = next.fuel + 1 := by
  rcases call_cases isCall with
    none | ⟨context, fuel, id, args, state, function, body, rfl, entered⟩
  · rw [none] at called
    cases called
  · rw [calls_of_enter entered, List.mem_singleton] at called
    subst called
    refine ⟨?_, rfl, rfl⟩
    have text := size_body_lt entered
    rcases Limit.enter_alternatives context id with ⟨_, missing⟩ | ⟨_, refused⟩ | ⟨room, _⟩
    · rw [entered] at missing
      cases missing
    · rw [entered] at refused
      cases refused
    · change sizeOf context.program * (context.limit - (context.depth + 1)) + sizeOf body <
        sizeOf context.program * (context.limit - context.depth) + 0
      obtain ⟨more, left⟩ := Nat.exists_eq_add_of_lt room
      have now : context.limit - context.depth = more + 1 := by omega
      have later : context.limit - (context.depth + 1) = more := by omega
      rw [now, later, Nat.mul_succ]
      omega

/-- Whatever a point leads to has less left. -/
theorem weight_lt (noLoops : ∀ command ∈ point.commands, command.isLoop = false)
    (noRound : point.isRound = false) (called : next ∈ point.calls) :
    next.weight < point.weight ∧ next.isRound = false ∧ point.fuel = next.fuel + 1 := by
  cases isCall : point.isCall with
  | true => exact weight_call_lt isCall called
  | false =>
      obtain ⟨less, noRound, sameFuel⟩ := calls_below noLoops noRound isCall called
      refine ⟨?_, noRound, sameFuel⟩
      rw [weight, weight, context_of_mem_calls isCall called]
      exact Nat.add_lt_add_left less _

theorem not_exhausted (bodies : program.BodiesObey fun part => part.isLoop = false)
    (obeys : point.Obeys program fun part => part.isLoop = false)
    (noRound : point.isRound = false) (enough : point.weight < point.fuel) :
    point.ending ≠ .exhausted := by
  induction bound : point.fuel using Nat.strongRecOn generalizing point with
  | ind fuel ih =>
      intro exhausted
      rcases exhausted_cases exhausted with spent | ⟨next, called, inner⟩
      · omega
      · have noLoops : ∀ command ∈ point.commands, command.isLoop = false :=
          fun command listed => obeys.allowed command listed command (.self command)
        obtain ⟨less, noRound, sameFuel⟩ := weight_lt noLoops noRound called
        exact ih next.fuel (by omega) (obeys.calls (fun _ => bodies) next called) noRound (by omega)
          rfl inner

end Point

/-! ### Runs -/

variable {program : Program}

private theorem initPoints_cases {context : Context} {fuel : Nat} {commands : List Command}
    {state : State}
    {point : Point} (listed : point ∈ initPoints context fuel commands state) :
    ∃ command ∈ commands, ∃ between, point = .exec context fuel command between := by
  induction commands generalizing state with
  | nil => cases listed
  | cons first rest ih =>
      rcases List.mem_append.mp listed with here | behind
      · exact ⟨first, List.mem_cons_self, state, List.mem_singleton.mp here⟩
      · obtain ⟨_, _, later⟩ := mem_next_of_mem_after behind
        obtain ⟨command, inRest, between, same⟩ := ih later
        exact ⟨command, List.mem_cons_of_mem _ inRest, between, same⟩

private theorem runPoints_cases {fuel limit : Nat} {entry : FunctionId} {world : World}
    {point : Point}
    (listed : point ∈ runPoints fuel program entry limit world) :
    (∃ command ∈ program.init, ∃ state, point = .exec ⟨program, limit, 0⟩ fuel command state) ∨
      ∃ state, point = .call ⟨program, limit, 0⟩ fuel entry [] state := by
  rcases List.mem_append.mp listed with inInit | entered
  · exact Or.inl (initPoints_cases inInit)
  · obtain ⟨_, state, here⟩ := mem_next_of_mem_after entered
    exact Or.inr ⟨state, List.mem_singleton.mp here⟩

private theorem run_not_exhausted {fuel limit : Nat} (loopFree : program.LoopFree)
    (entry : FunctionId)
    (world : World) (enough : sizeOf program * (limit + 1) ≤ fuel) :
    (runOutcome fuel program entry limit world).forget ≠ .exhausted := by
  intro exhausted
  cases run_concludes fuel program entry limit world with
  | well last _ done =>
      rw [done] at exhausted
      cases exhausted
  | raised error last _ impossible _ => exact impossible.elim
  | broken before point split _ _ same =>
      have listed : point ∈ runPoints fuel program entry limit world := by
        rw [split]
        exact List.mem_append_right _ List.mem_cons_self
      rw [Nat.mul_succ] at enough
      rcases runPoints_cases listed with ⟨command, inInit, state, rfl⟩ | ⟨state, rfl⟩
      · have less := Program.size_init_lt inInit
        refine Point.not_exhausted loopFree.bodies ?_ rfl ?_ (same.symm.trans exhausted)
        · exact .of_command rfl rfl (loopFree.init command inInit)
        · change sizeOf program * limit + sizeOf command < fuel
          omega
      · refine Point.not_exhausted loopFree.bodies ?_ rfl ?_ (same.symm.trans exhausted)
        · exact .of_term rfl rfl
        · change sizeOf program * limit + 0 < fuel
          have some := Program.size_pos program
          omega

theorem run_ends {fuel limit : Nat} (loopFree : program.LoopFree) (entry : FunctionId)
    (world : World) (enough : sizeOf program * (limit + 1) ≤ fuel) :
    ∃ last, (runWith fuel program entry limit world).world? = some last := by
  have ended := run_not_exhausted loopFree entry world enough
  rw [runWith_eq]
  cases outcome : runOutcome fuel program entry limit world with
  | done value state => exact ⟨state.world, rfl⟩
  | failed failure state => exact ⟨state.world, rfl⟩
  | exhausted =>
      rw [outcome] at ended
      exact absurd rfl ended

end Machine

open Lowering Machine

/-- A program without loops comes to an end, whatever its functions call: for every limit on nested
calls there is an amount of fuel with which each run has its ending, the same as with any more. -/
theorem loop_free_run_ends {program : Program} (loopFree : program.LoopFree) (limit : Nat) :
    ∃ enough, ∀ (entry : FunctionId) (world : World), ∃ ending last,
      ending.world? = some last ∧
        ∀ fuel, enough ≤ fuel → runWith fuel program entry limit world = ending := by
  refine ⟨sizeOf program * (limit + 1), ?_⟩
  intro entry world
  obtain ⟨last, ended⟩ := run_ends loopFree entry world (Nat.le_refl _)
  exact ⟨_, last, ended, fun fuel enough => runWith_of_more enough ended⟩

/-- Two functions that call each other, the first of them twice, and never stop by themselves. -/
def endlessSource : List Item :=
  let place : Span := ⟨0, 0⟩
  let call (name : String) : Expr := .call place name place []
  [.function ⟨.int, "tock", [], none, place⟩,
    .function ⟨.int, "tick", [], some
      [.ret place (some (.binary place .add (call "tock") (call "tock")))], place⟩,
    .function ⟨.int, "tock", [], some [.ret place (some (call "tick"))], place⟩,
    .function ⟨.int, "main", [], some [.ret place (some (call "tick"))], place⟩]

theorem endless_source_ends : ∃ (program : Program), lower endlessSource = .ok program ∧
    ∃ enough, ∀ (entry : FunctionId) (world : World), ∃ ending last,
      ending.world? = some last ∧
        ∀ fuel, enough ≤ fuel → runWith fuel program entry 1024 world = ending := by
  have checked : ((lower endlessSource).toOption.any fun program =>
      (program.functions.toList.all fun function => function.body?.all (!·.loops)) &&
        program.init.all (!·.loops)) = true := by
    decide +kernel
  obtain ⟨program, accepted, holds⟩ := eq_ok_of_any checked
  obtain ⟨bodies, init⟩ := Bool.and_eq_true_iff.mp holds
  exact ⟨program, accepted, loop_free_run_ends (.of_loops bodies init) 1024⟩

end MiniC
