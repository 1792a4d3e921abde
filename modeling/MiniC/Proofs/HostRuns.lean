import MiniC.Host

/-!
Runs on one host, one after another.

A run begins by installing its input, so all that it takes over from the steps
before it are the settings, and these never change. What fails before the
evaluation begins has written nothing and leaves that input; only a file that
cannot be read is found out earlier, while the record is still the old one.
-/

namespace MiniC

def HostError.precedesEvaluation : HostError → Bool
  | compile _ _ | noMain | mainTakesParameters | aborted => true
  | runtime _ | unfinished | io _ | json => false

namespace Host

section Run

variable {host : Host} {files : Files} {origin? : Option String} {source path : String}
  {input : WorkRecord} {sink : Sink}

def prepare (host : Host) (files : Files) (origin? : Option String) (source : String) :
    Except HostError (Program × FunctionId) := do
  let program ← Include.SearchPath.compile ⟨files, host.settings.includeDirs⟩ origin? source
  return (program, ← program.entry)

theorem run_eq :
    host.run files origin? source input sink =
      match host.prepare files origin? source with
      | .error error => ⟨.error error, host.setRecord input, sink⟩
      | .ok (program, main) =>
          (host.setRecord input).settle sink
            (Machine.run program main host.settings.maxCallDepth ⟨.empty, sink, some input⟩) :=
  rfl

/-- An evaluation that has begun ends in another way. -/
theorem settle_error {ending : Machine.Ending} {error : HostError}
    (failed : (host.settle sink ending).outcome = .error error) :
    error.precedesEvaluation = false := by
  cases ending with
  | finished exitCode? world =>
      simp only [settle] at failed
      split at failed
      · cases failed
        rfl
      · cases failed
  | failed failure world =>
      cases failed
      rfl
  | exhausted =>
      cases failed
      rfl

private theorem settle_record {ending : Machine.Ending} {outcome : Outcome}
    (succeeded : (host.settle sink ending).outcome = .ok outcome) :
    outcome.record = (host.settle sink ending).host.record := by
  cases ending with
  | finished exitCode? world =>
      simp only [settle] at succeeded ⊢
      split at succeeded
      · cases succeeded
      · cases succeeded
        rfl
  | failed failure world => cases succeeded
  | exhausted => cases succeeded

private theorem settle_settings (ending : Machine.Ending) :
    (host.settle sink ending).host.settings = host.settings := by
  cases ending <;> rfl

/-- A run that fails before the evaluation writes nothing and leaves its input. -/
theorem run_of_precedesEvaluation {error : HostError}
    (failed : (host.run files origin? source input sink).outcome = .error error)
    (early : error.precedesEvaluation = true) :
    (host.run files origin? source input sink).sink = sink ∧
      (host.run files origin? source input sink).host.record = input := by
  rw [run_eq] at failed ⊢
  cases prepared : host.prepare files origin? source with
  | error refusal => exact ⟨rfl, rfl⟩
  | ok entry =>
      rw [prepared] at failed
      have late := settle_error failed
      rw [early] at late
      cases late

private theorem run_record {outcome : Outcome}
    (succeeded : (host.run files origin? source input sink).outcome = .ok outcome) :
    outcome.record = (host.run files origin? source input sink).host.record := by
  rw [run_eq] at succeeded ⊢
  cases prepared : host.prepare files origin? source with
  | error refusal =>
      rw [prepared] at succeeded
      cases succeeded
  | ok entry =>
      rw [prepared] at succeeded
      exact settle_record succeeded

private theorem run_settings :
    (host.run files origin? source input sink).host.settings = host.settings := by
  rw [run_eq]
  cases host.prepare files origin? source with
  | error refusal => rfl
  | ok entry => exact settle_settings _

private theorem runFile_of_error {error : FileError} (unreadable : files.read path = .error error) :
    host.runFile files path input sink = ⟨.error (.io error), host, sink⟩ := by
  rw [runFile, unreadable]

private theorem runFile_of_ok (readable : files.read path = .ok source) :
    host.runFile files path input sink = host.run files (some path) source input sink := by
  rw [runFile, readable]

/-- Of the host a run uses the settings alone. -/
theorem run_congr {other : Host} (same : other.settings = host.settings) :
    other.run files origin? source input sink = host.run files origin? source input sink := by
  have installed : other.setRecord input = host.setRecord input := by
    rw [setRecord, setRecord, same]
  have prepared : other.prepare files origin? source = host.prepare files origin? source := by
    rw [prepare, prepare, same]
  rw [run_eq, run_eq, installed, prepared, same]

end Run

/-! ### Sequences of steps -/

/-- What can be done with a host. The files may be others each time. -/
inductive Step where
  | run (files : Files) (origin? : Option String) (source : String) (input : WorkRecord)
      (sink : Sink)
  | runFile (files : Files) (path : String) (input : WorkRecord) (sink : Sink)
  | set (record : WorkRecord)
  | pushStorage (number : Int32)

/-- The host that a step leaves, whether it fails or not. -/
def Step.perform (host : Host) : Step → Host
  | run files origin? source input sink => (host.run files origin? source input sink).host
  | runFile files path input sink => (host.runFile files path input sink).host
  | set record => host.setRecord record
  | pushStorage number => host.pushStorage number

def after (host : Host) (steps : List Step) : Host := steps.foldl Step.perform host

private theorem Step.perform_settings (host : Host) (step : Step) :
    (step.perform host).settings = host.settings := by
  cases step with
  | run files origin? source input sink => exact run_settings
  | runFile files path input sink =>
      change (host.runFile files path input sink).host.settings = _
      cases found : files.read path with
      | error error => rw [runFile_of_error found]
      | ok source =>
          rw [runFile_of_ok found]
          exact run_settings
  | set record => rfl
  | pushStorage number => rfl

private theorem after_settings (host : Host) (steps : List Step) :
    (host.after steps).settings = host.settings := by
  induction steps generalizing host with
  | nil => rfl
  | cons step steps ih =>
      change ((step.perform host).after steps).settings = host.settings
      rw [ih, step.perform_settings]

/-- Whatever was done with a host: a run goes as on a new one; if it fails before the evaluation it
has written nothing and leaves its input; if it succeeds it hands back the record that it leaves. A
file that cannot be read leaves the host and the sink as they are, and one that can is run like its
text. -/
theorem run_after_steps (settings : Settings) (steps : List Step) (files : Files)
    (origin? : Option String) (source : String) (input : WorkRecord) (sink : Sink) :
    let host := (new settings).after steps
    let run := host.run files origin? source input sink
    run = (new settings).run files origin? source input sink ∧
    (∀ error, run.outcome = .error error → error.precedesEvaluation = true →
      run.sink = sink ∧ run.host.record = input) ∧
    (∀ outcome, run.outcome = .ok outcome → outcome.record = run.host.record) ∧
    (∀ path error, files.read path = .error error →
      host.runFile files path input sink = ⟨.error (.io error), host, sink⟩) ∧
    (∀ path text, files.read path = .ok text →
      host.runFile files path input sink =
        (new settings).run files (some path) text input sink) := by
  intro host run
  have same : host.settings = (new settings).settings := after_settings (new settings) steps
  refine ⟨run_congr same, ?_, ?_, ?_, ?_⟩
  · intro error failed early
    exact run_of_precedesEvaluation failed early
  · intro outcome succeeded
    exact run_record succeeded
  · intro path error unreadable
    exact runFile_of_error unreadable
  · intro path text readable
    rw [runFile_of_ok readable]
    exact run_congr same

def lockedFile : Files :=
  ⟨fun path => if path = "locked.c" then .ok ⟨path, .error .denied⟩ else .error .notFound⟩

/-- On a host with storage left over, a `main` with a parameter is refused, and the storage is gone;
a `main` without one gives its number, as on a new host; and a file that cannot be read leaves the
storage. -/
theorem runs_after_push :
    let host := (new .default).after [.set .blank, .pushStorage 7]
    let refused := host.run lockedFile none "int main(int a) { return a; }" .blank .unlimited
    let ended := host.run lockedFile none "int main() { return 5; }" .blank .unlimited
    host.record.storage = [7] ∧
    (refused.outcome = .error .mainTakesParameters ∧ refused.sink = .unlimited ∧
      refused.host.record = .blank) ∧
    (∃ outcome, ended.outcome = .ok outcome ∧ outcome.exitCode? = some 5 ∧
      outcome.record = ended.host.record ∧
      ended = (new .default).run lockedFile none "int main() { return 5; }" .blank .unlimited) ∧
    host.runFile lockedFile "locked.c" .blank .unlimited =
      ⟨.error (.io .denied), host, .unlimited⟩ := by
  intro host refused ended
  have refusal : refused.outcome = .error .mainTakesParameters := by
    have checked : (match refused.outcome with
        | .error error => decide (error = .mainTakesParameters)
        | .ok _ => false) = true := by
      decide +kernel
    cases found : refused.outcome with
    | error error =>
        rw [found] at checked
        rw [of_decide_eq_true checked]
    | ok outcome =>
        rw [found] at checked
        cases checked
  have success : ∃ outcome, ended.outcome = .ok outcome ∧ outcome.exitCode? = some 5 := by
    have checked : ended.outcome.toOption.any (·.exitCode? == some 5) = true := by
      decide +kernel
    cases found : ended.outcome with
    | error error =>
        rw [found] at checked
        cases checked
    | ok outcome =>
        rw [found] at checked
        exact ⟨outcome, rfl, eq_of_beq checked⟩
  obtain ⟨-, early, -, unreadable, -⟩ := run_after_steps .default [.set .blank, .pushStorage 7]
    lockedFile none "int main(int a) { return a; }" .blank .unlimited
  obtain ⟨same, -, record, -, -⟩ := run_after_steps .default [.set .blank, .pushStorage 7]
    lockedFile none "int main() { return 5; }" .blank .unlimited
  obtain ⟨outcome, succeeded, five⟩ := success
  exact ⟨rfl, ⟨refusal, early .mainTakesParameters refusal rfl⟩,
    ⟨outcome, succeeded, five, record outcome succeeded, same⟩, unreadable "locked.c" .denied rfl⟩

end Host
end MiniC
