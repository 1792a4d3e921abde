import MiniC.Proofs.Machine.History

/-!
The commands that the points of a run stand in.

A point runs no command but those that its own text contains, except that the
call of a function runs the body. So what the text of a program does nowhere,
none of its runs does.
-/

namespace MiniC

inductive Command.Part : Command → Command → Prop where
  | self (command : Command) : Part command command
  | block {body : List Command} {command part : Command} :
      command ∈ body → Part command part → Part (.block body) part
  | yes {cond : Term} {yes part : Command} {no : Option Command} :
      Part yes part → Part (.branch cond yes no) part
  | no {cond : Term} {yes no part : Command} :
      Part no part → Part (.branch cond yes (some no)) part
  | whileBody {cond : Term} {body part : Command} {step : Option Term} :
      Part body part → Part (.whileLoop cond body step) part
  | doBody {body part : Command} {cond : Term} :
      Part body part → Part (.doLoop body cond) part

theorem Command.Part.typed {setting : Typing.Setting} {command part : Command}
    (inside : command.Part part) {inLoop : Bool} {vars out : Typing.Variables}
    (typed : Command.Typed setting inLoop vars command out) :
    ∃ inLoop vars out, Command.Typed setting inLoop vars part out := by
  have listed {commands : List Command} {inLoop : Bool} {vars out : Typing.Variables}
      {command : Command} (all : Commands.Typed setting inLoop vars commands out)
      (found : command ∈ commands) : ∃ vars out, Command.Typed setting inLoop vars command out := by
    induction commands generalizing vars with
    | nil => cases found
    | cons first rest ih =>
        cases all with
        | cons head tail =>
            rcases List.mem_cons.mp found with rfl | behind
            · exact ⟨_, _, head⟩
            · exact ih tail behind
  induction inside generalizing inLoop vars out with
  | self command => exact ⟨_, _, _, typed⟩
  | block found _ ih =>
      cases typed with
      | block _ body =>
          obtain ⟨_, _, here⟩ := listed body found
          exact ih here
  | yes _ ih =>
      cases typed with
      | branch _ _ _ yes _ => exact ih yes
      | branchOnly _ _ _ yes => exact ih yes
  | no _ ih =>
      cases typed with
      | branch _ _ _ _ no => exact ih no
  | whileBody _ ih =>
      cases typed with
      | whileLoop _ _ _ body _ => exact ih body
  | doBody _ ih =>
      cases typed with
      | doLoop _ body _ _ => exact ih body

def Command.Everywhere (Allowed : Command → Prop) (command : Command) : Prop :=
  ∀ part, command.Part part → Allowed part

def Program.BodiesObey (Allowed : Command → Prop) (program : Program) : Prop :=
  ∀ (id : FunctionId) function body, program.functions[id]? = some function →
    function.body? = some body → body.Everywhere Allowed

namespace Machine

namespace Point

def context : Point → Context
  | eval context _ _ _ => context
  | evalAll context _ _ _ => context
  | locate context _ _ _ => context
  | call context _ _ _ _ => context
  | exec context _ _ _ => context
  | execAll context _ _ _ => context
  | execWhile context _ _ _ _ _ => context
  | execDo context _ _ _ _ => context

def commands : Point → List Command
  | exec _ _ command _ => [command]
  | execAll _ _ commands _ => commands
  | execWhile _ _ _ body _ _ => [body]
  | execDo _ _ body _ _ => [body]
  | _ => []

structure Obeys (program : Program) (Allowed : Command → Prop) (point : Point) : Prop where
  program_eq : point.context.program = program
  allowed : ∀ command ∈ point.commands, command.Everywhere Allowed

def AllObey (program : Program) (Allowed : Command → Prop) (points : List Point) : Prop :=
  ∀ point ∈ points, point.Obeys program Allowed

variable {program : Program} {Allowed : Command → Prop} {context : Context} {fuel : Nat}
  {state : State}

theorem Obeys.of_term {point : Point} (same : point.context.program = program)
    (noCommands : point.commands = []) : point.Obeys program Allowed := by
  refine ⟨same, ?_⟩
  intro command listed
  rw [noCommands] at listed
  cases listed

theorem Obeys.of_command {point : Point} {command : Command}
    (same : point.context.program = program) (only : point.commands = [command])
    (allowed : command.Everywhere Allowed) : point.Obeys program Allowed := by
  refine ⟨same, ?_⟩
  intro other listed
  rw [only] at listed
  rw [List.mem_singleton.mp listed]
  exact allowed

namespace AllObey

theorem none : AllObey program Allowed [] := by
  intro point listed
  cases listed

theorem one {point : Point} (obeys : point.Obeys program Allowed) :
    AllObey program Allowed [point] := by
  intro other listed
  rw [List.mem_singleton.mp listed]
  exact obeys

theorem after {α : Type} {outcome : Outcome α} {next : α → State → List Point}
    (behind : ∀ value state, AllObey program Allowed (next value state)) :
    AllObey program Allowed (Machine.after outcome next) := by
  cases outcome with
  | done value state => exact behind value state
  | failed failure state => exact none
  | exhausted => exact none

theorem cons {α : Type} {point : Point} {outcome : Outcome α} {next : α → State → List Point}
    (obeys : point.Obeys program Allowed)
    (behind : ∀ value state, AllObey program Allowed (next value state)) :
    AllObey program Allowed ([point] ++ Machine.after outcome next) := by
  intro other listed
  rcases List.mem_append.mp listed with first | later
  · exact one obeys other first
  · exact after behind other later

end AllObey

private theorem nodeCalls_obey (node : Node) (same : context.program = program) :
    AllObey program Allowed (nodeCalls context fuel node state) := by
  cases node with
  | literal value => exact .none
  | argument index => exact .none
  | load place => exact .one (.of_term same rfl)
  | assign place value => exact .cons (.of_term same rfl) fun _ _ => .one (.of_term same rfl)
  | update place fn operand rhs yieldsOld =>
      exact .cons (.of_term same rfl) fun _ _ => .after fun _ _ => .one (.of_term same rfl)
  | convert kind value => exact .one (.of_term same rfl)
  | truth value => exact .one (.of_term same rfl)
  | unary fn operand => exact .one (.of_term same rfl)
  | copy value => exact .one (.of_term same rfl)
  | binary fn left right => exact .cons (.of_term same rfl) fun _ _ => .one (.of_term same rfl)
  | comma first second => exact .cons (.of_term same rfl) fun _ _ => .one (.of_term same rfl)
  | logical isAnd left right =>
      refine .cons (.of_term same rfl) ?_
      intro value _
      split
      · exact .one (.of_term same rfl)
      · exact .none
  | conditional cond yes no =>
      refine .cons (.of_term same rfl) ?_
      intro value _
      split
      · exact .one (.of_term same rfl)
      · exact .one (.of_term same rfl)
  | call id args => exact .cons (.of_term same rfl) fun _ _ => .one (.of_term same rfl)
  | builtin fn args => exact .one (.of_term same rfl)

private theorem commandCalls_obey {command : Command} (same : context.program = program)
    (allowed : command.Everywhere Allowed) :
    AllObey program Allowed (commandCalls context fuel command state) := by
  cases command with
  | expr term => exact .one (.of_term same rfl)
  | block body =>
      exact .one ⟨same, fun _ listed part inside => allowed part (.block listed inside)⟩
  | branch cond yes no =>
      refine .cons (.of_term same rfl) ?_
      intro value _
      split
      · exact .one (.of_command same rfl fun part inside => allowed part (.yes inside))
      · cases no with
        | none => exact .none
        | some no => exact .one (.of_command same rfl fun part inside => allowed part (.no inside))
  | whileLoop cond body step =>
      exact .one (.of_command same rfl fun part inside => allowed part (.whileBody inside))
  | doLoop body cond =>
      exact .one (.of_command same rfl fun part inside => allowed part (.doBody inside))
  | brk => exact .none
  | cont => exact .none
  | ret value =>
      cases value with
      | none => exact .none
      | some term => exact .one (.of_term same rfl)
  | newArray slot kind length => exact .one (.of_term same rfl)
  | newStruct slot name members => exact .none
  | bind slot value => exact .one (.of_term same rfl)

private theorem againCalls_obey {cond : Term} {body : Command} {step : Option Term}
    (same : context.program = program) (allowed : body.Everywhere Allowed) :
    AllObey program Allowed (againCalls context fuel cond body step state) := by
  cases step with
  | none => exact .one (.of_command same rfl allowed)
  | some term =>
      exact .cons (.of_term same rfl) fun _ _ => .one (.of_command same rfl allowed)

theorem Obeys.calls {point : Point} (bodies : point.isCall = true → program.BodiesObey Allowed)
    (obeys : point.Obeys program Allowed) : AllObey program Allowed point.calls := by
  obtain ⟨same, allowed⟩ := obeys
  cases point with
  | eval context fuel term state =>
      cases fuel with
      | zero => exact .none
      | succ fuel =>
          obtain ⟨ty, span, node⟩ := term
          exact nodeCalls_obey node same
  | evalAll context fuel terms state =>
      cases fuel with
      | zero => exact .none
      | succ fuel =>
          cases terms with
          | nil => exact .none
          | cons first rest =>
              exact .cons (.of_term same rfl) fun _ _ => .one (.of_term same rfl)
  | locate context fuel place state =>
      cases fuel with
      | zero => exact .none
      | succ fuel =>
          cases place with
          | element array index => exact .one (.of_term same rfl)
          | _ => exact .none
  | call context fuel id args state =>
      cases fuel with
      | zero => exact .none
      | succ fuel =>
          rw [Point.calls]
          split
          · exact .none
          · rename_i function body entered
            obtain ⟨found, defined⟩ := enter_eq_ok entered
            change context.program = program at same
            rw [same] at found
            exact .one (.of_command same rfl (bodies rfl id function body found defined))
  | exec context fuel command state =>
      cases fuel with
      | zero => exact .none
      | succ fuel => exact commandCalls_obey same (allowed command List.mem_cons_self)
  | execAll context fuel commands state =>
      cases fuel with
      | zero => exact .none
      | succ fuel =>
          cases commands with
          | nil => exact .none
          | cons first rest =>
              refine .cons (.of_command same rfl (allowed first List.mem_cons_self)) ?_
              intro flow _
              cases flow with
              | normal =>
                  exact .one ⟨same, fun other listed =>
                    allowed other (List.mem_cons_of_mem _ listed)⟩
              | _ => exact .none
  | execWhile context fuel cond body step state =>
      have inBody : body.Everywhere Allowed := allowed body List.mem_cons_self
      cases fuel with
      | zero => exact .none
      | succ fuel =>
          refine .cons (.of_term same rfl) ?_
          intro value _
          split
          · refine .cons (.of_command same rfl inBody) ?_
            intro flow _
            cases flow with
            | normal => exact againCalls_obey same inBody
            | cont => exact againCalls_obey same inBody
            | brk => exact .none
            | ret value => exact .none
          · exact .none
  | execDo context fuel body cond state =>
      have inBody : body.Everywhere Allowed := allowed body List.mem_cons_self
      cases fuel with
      | zero => exact .none
      | succ fuel =>
          have again : ∀ value state, AllObey program Allowed
              (if Value.truth value then [Point.execDo context fuel body cond state] else []) := by
            intro value _
            split
            · exact .one (.of_command same rfl inBody)
            · exact .none
          refine .cons (.of_command same rfl inBody) ?_
          intro flow _
          cases flow with
          | normal => exact .cons (.of_term same rfl) again
          | cont => exact .cons (.of_term same rfl) again
          | brk => exact .none
          | ret value => exact .none

theorem Within.obeys {point reached : Point} (within : point.Within reached)
    (bodies : program.BodiesObey Allowed) (obeys : point.Obeys program Allowed) :
    reached.Obeys program Allowed := by
  induction within with
  | here point => exact obeys
  | deeper called _ ih => exact ih (obeys.calls (fun _ => bodies) _ called)

/-- In the history of its own activation, no point runs the body of a function. -/
theorem Obeys.history {region : Region} {point reached : Point}
    (bodies : region = .global → program.BodiesObey Allowed) (obeys : point.Obeys program Allowed)
    (listed : reached ∈ point.history region) : reached.Obeys program Allowed := by
  induction bound : point.fuel using Nat.strongRecOn generalizing point with
  | ind fuel ih =>
      rcases mem_history_cases listed with rfl | ⟨next, inside, within⟩
      · exact obeys
      · have called := mem_calls_of_mem_inner inside
        have less := smaller called
        rw [bound] at less
        refine ih next.fuel less (obeys.calls ?_ next called) within rfl
        intro isCall
        cases region with
        | global => exact bodies rfl
        | activation =>
            simp only [inner, isCall, if_true] at inside
            cases inside

end Point

/-! ### Runs -/

theorem initPoints_obey {program : Program} {Allowed : Command → Prop} {context : Context}
    {fuel : Nat} {commands : List Command} {state : State} (same : context.program = program)
    (allowed : ∀ command ∈ commands, command.Everywhere Allowed) :
    Point.AllObey program Allowed (initPoints context fuel commands state) := by
  induction commands generalizing state with
  | nil => exact .none
  | cons first rest ih =>
      refine .cons (.of_command same rfl (allowed first List.mem_cons_self)) ?_
      intro _ _
      exact ih fun other listed => allowed other (List.mem_cons_of_mem _ listed)

theorem Visits.obeys {fuel : Nat} {program : Program} {entry : FunctionId} {limit : Nat}
    {world : World} {point : Point} {Allowed : Command → Prop}
    (visited : Visits fuel program entry limit world point)
    (init : ∀ command ∈ program.init, command.Everywhere Allowed)
    (bodies : program.BodiesObey Allowed) : point.Obeys program Allowed := by
  obtain ⟨first, listed, within⟩ := visited
  refine within.obeys bodies ?_
  rcases List.mem_append.mp listed with declared | called
  · exact initPoints_obey rfl init first declared
  · refine Point.AllObey.after ?_ first called
    intro _ state
    exact .one (.of_term rfl rfl)

end Machine

end MiniC
