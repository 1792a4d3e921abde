import MiniC.Proofs.Soundness.Run
import MiniC.Proofs.Typing.Unit

/-!
Exit codes.

The exit code of a run is read off the value that the entry function has returned,
not off its return type. The two agree, except that a function that is called by
the initialisation may find a global variable empty and pass that on.
-/

namespace MiniC

open Lowering Machine Soundness

private theorem exitCode?_eq_none {G : Guarantee} {heap : Heap} {value : Value} {ret : Ty}
    (declarable : ret.isDeclarable = true) (other : isCondition ret = false)
    (hasType : HasType G heap value ret) (empty : ret = .void → value = .void) :
    value.exitCode? = none := by
  cases ret with
  | num kind => cases other
  | bool => cases other
  | str => cases declarable
  | array element => cases declarable
  | func params ret => cases declarable
  | void =>
      rw [empty rfl]
      rfl
  | struct name members =>
      rcases hasType with ⟨address, size, rfl, _⟩ | ⟨_, rfl⟩ <;> rfl

/-- A run that ends well has no exit code if its entry returns neither a number nor a truth value.
Otherwise it has one, unless some global variable was read before its declaration had run; that
cannot happen where no global declaration calls a function. -/
theorem finished_exitCode {items : List Item} {program : Program} {entry : FunctionId} {ret : Ty}
    (accepted : lower items = .ok program)
    (parameterless : program.signature? entry = some ([], ret))
    {fuel limit : Nat} {sink : Sink} {record? : Option WorkRecord} {exitCode? : Option Int64}
    {last : World}
    (finished : runWith fuel program entry limit ⟨.empty, sink, record?⟩ =
      .finished exitCode? last) :
    (isCondition ret = false → exitCode? = none) ∧
      (isCondition ret = true → exitCode?.isSome = true ∨
        ∃ point, Visits fuel program entry limit ⟨.empty, sink, record?⟩ point ∧
          point.ReadsEmpty) ∧
      (isCondition ret = true → items.any Item.initCallsFunction = false →
        exitCode?.isSome = true) := by
  refine ⟨?_, ?_, ?_⟩
  · intro other
    obtain ⟨globals, typed⟩ : ∃ globals, program.Typed true globals :=
      lower_typed nofun accepted
    have sound : RunSound .anything program globals entry ret fuel limit ⟨.empty, sink, record?⟩ :=
      run_sound typed (fun _ => rfl) (.empty _) parameterless (fun _ _ _ _ _ _ => trivial) nofun
    obtain ⟨value, rfl, hasType, empty⟩ := sound.exitCode exitCode? last finished
    have declarable : ret.isDeclarable = true := by
      obtain ⟨function, found, same⟩ := Option.map_eq_some_iff.mp parameterless
      have sameRet : function.ret = ret := congrArg Prod.snd same
      rw [← sameRet]
      exact typed.ret entry function found
    exact exitCode?_eq_none declarable other hasType empty
  · intro scalar
    refine Classical.or_iff_not_imp_right.mpr ?_
    intro neverEmpty
    obtain ⟨globals, typed⟩ : ∃ globals, program.Typed true globals :=
      lower_typed nofun accepted
    have sound : RunSound (.number true) program globals entry ret fuel limit
        ⟨.empty, sink, record?⟩ := by
      refine run_sound typed (fun _ => rfl) (.empty _) parameterless ?_ nofun
      intro _ point visited readsEmpty
      exact absurd ⟨point, visited, readsEmpty⟩ neverEmpty
    obtain ⟨value, rfl, hasType, _⟩ := sound.exitCode exitCode? last finished
    exact (hasType_iff_admits scalar).mp hasType scalar
  · intro scalar quiet
    obtain ⟨globals, typed⟩ : ∃ globals, program.Typed false globals :=
      lower_typed (fun _ => quiet) accepted
    have sound : RunSound (.number false) program globals entry ret fuel limit
        ⟨.empty, sink, record?⟩ :=
      run_sound typed nofun (.empty _) parameterless nofun nofun
    obtain ⟨value, rfl, hasType, _⟩ := sound.exitCode exitCode? last finished
    exact (hasType_iff_admits scalar).mp hasType scalar

def Machine.Ending.finishedWith (check : Option Int64 → Bool) : Ending → Bool
  | .finished exitCode? _ => check exitCode?
  | _ => false

private theorem Machine.Ending.eq_finished {check : Option Int64 → Bool} {ending : Ending}
    (holds : ending.finishedWith check = true) :
    ∃ exitCode? last, ending = .finished exitCode? last ∧ check exitCode? = true := by
  cases ending with
  | finished exitCode? last => exact ⟨exitCode?, last, rfl, holds⟩
  | failed failure last => cases holds
  | exhausted => cases holds

/-- A source with a global that is set by a call and one that is declared behind it. The function
returns the second, `main` the first. -/
def earlyGlobal (call : Bool) : List Item :=
  let place : Span := ⟨0, 0⟩
  let number (value : UInt64) : Expr := .int place ⟨value, false, false, false⟩
  let first : Expr := if call then .call place "f" place [] else number 7
  [.function ⟨.int, "f", [], none, place⟩,
    .declaration ⟨false, .int, [⟨"g", none, some first, place⟩], place⟩,
    .declaration ⟨false, .int, [⟨"h", none, some (number 5), place⟩], place⟩,
    .function ⟨.int, "f", [], some [.ret place (some (.ident place "h"))], place⟩,
    .function ⟨.int, "main", [], some [.ret place (some (.ident place "g"))], place⟩]

theorem finished_exitCode_without_call : ∃ program exitCode? last,
    lower (earlyGlobal false) = .ok program ∧ program.signature? 1 = some ([], .num .i32) ∧
      runWith 20 program 1 10 ⟨.empty, .unlimited, none⟩ = .finished exitCode? last ∧
      (earlyGlobal false).any Item.initCallsFunction = false ∧ exitCode?.isSome = true := by
  have checked : ((lower (earlyGlobal false)).toOption.any fun program =>
      program.signature? 1 = some ([], .num .i32) ∧
        (runWith 20 program 1 10 ⟨.empty, .unlimited, none⟩).finishedWith (fun _ => true) = true) =
          true := by
    decide +kernel
  obtain ⟨program, accepted, holds⟩ := eq_ok_of_any checked
  obtain ⟨signature, ends⟩ := of_decide_eq_true holds
  obtain ⟨exitCode?, last, finished, _⟩ := Ending.eq_finished ends
  exact ⟨program, exitCode?, last, accepted, signature, finished, rfl,
    (finished_exitCode accepted signature finished).2.2 rfl rfl⟩

/-- Where it is set by a call, the function returns the second global before that has a value, and
a run of a `main` that returns `int` ends without an exit code. -/
theorem finished_without_exitCode : ∃ program last,
    lower (earlyGlobal true) = .ok program ∧ program.main? = some 1 ∧
      program.signature? 1 = some ([], .num .i32) ∧
      runWith 20 program 1 10 ⟨.empty, .unlimited, none⟩ = .finished none last := by
  have checked : ((lower (earlyGlobal true)).toOption.any fun program =>
      program.main? = some 1 ∧ program.signature? 1 = some ([], .num .i32) ∧
        (runWith 20 program 1 10 ⟨.empty, .unlimited, none⟩).finishedWith Option.isNone = true) =
          true := by
    decide +kernel
  obtain ⟨program, accepted, holds⟩ := eq_ok_of_any checked
  obtain ⟨main, signature, ends⟩ := of_decide_eq_true holds
  obtain ⟨exitCode?, last, finished, isNone⟩ := Ending.eq_finished ends
  rw [Option.isNone_iff_eq_none.mp isNone] at finished
  exact ⟨program, last, accepted, main, signature, finished⟩

end MiniC
