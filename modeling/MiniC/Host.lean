import MiniC.Compile
import MiniC.HostError
import MiniC.Include
import MiniC.Machine.Run
import MiniC.Settings
import MiniC.WorkRecord.Document

/-!
Hosts.

A host keeps the settings and the work record of the latest run. A run installs
its input as the record first, so that nothing of an earlier run is left; when
the run fails, what the script changed until then stays in the record.
-/

namespace MiniC

def Files.load {α : Type} (files : Files) (path : String) (decode : String → Option α) :
    Except HostError α :=
  match files.read path with
  | .error error => .error (.io error)
  | .ok text =>
      match decode text with
      | some value => .ok value
      | none => .error .json

/-- Expands the includes of a source and compiles the result. -/
def Include.SearchPath.compile (searchPath : Include.SearchPath) (origin? : Option String)
    (source : String) : Except HostError Program :=
  match Include.expand searchPath origin? source with
  | .error diagnostic => .error (.ofFaults [diagnostic] source)
  | .ok expanded =>
      match MiniC.compile expanded with
      | .aborted => .error .aborted
      | .faults diagnostics => .error (.ofFaults diagnostics expanded)
      | .program program => .ok program

def Include.SearchPath.compileFile (searchPath : Include.SearchPath) (path : String) :
    Except HostError Program :=
  match searchPath.files.read path with
  | .error error => .error (.io error)
  | .ok source => searchPath.compile (some path) source

def Program.entry (program : Program) : Except HostError FunctionId :=
  match program.main? with
  | none => .error .noMain
  | some id =>
      match program.functions[id]? with
      | none => .error .noMain
      | some function =>
          if function.body?.isNone then .error .noMain
          else if function.params.isEmpty then .ok id
          else .error .mainTakesParameters

/-! ### Runs -/

structure Host where
  settings : Settings
  record : WorkRecord

namespace Host

def new (settings : Settings) : Host := ⟨settings, .blank⟩

/-- What a run that succeeded hands back: the number that `main` returned, if it returned one, and
the record. -/
structure Outcome where
  exitCode? : Option Int64
  record : WorkRecord

structure Run where
  outcome : Except HostError Outcome
  host : Host
  sink : Sink

def Run.result (run : Run) : Except HostError (Option Int64) := run.outcome.map Outcome.exitCode?

def setRecord (host : Host) (record : WorkRecord) : Host := { host with record }

def pushStorage (host : Host) (number : Int32) : Host :=
  host.setRecord { host.record with storage := host.record.storage ++ [number] }

def flushRefusal : FileError := .other "sink not flushed"

/-- The end of an evaluation as the host sees it. -/
def settle (host : Host) (sink : Sink) : Machine.Ending → Run
  | .finished exitCode? world =>
      let record := world.record?.getD host.record
      let outcome :=
        if world.sink.failsFlush then .error (.io flushRefusal) else .ok ⟨exitCode?, record⟩
      ⟨outcome, host.setRecord record, world.sink⟩
  | .failed failure world =>
      ⟨.error (.runtime failure), host.setRecord (world.record?.getD host.record), world.sink⟩
  | .exhausted => ⟨.error .unfinished, host, sink⟩

def run (host : Host) (files : Files) (origin? : Option String) (source : String)
    (input : WorkRecord) (sink : Sink) : Run :=
  let host := host.setRecord input
  let prepared := do
    let program ← Include.SearchPath.compile ⟨files, host.settings.includeDirs⟩ origin? source
    return (program, ← program.entry)
  match prepared with
  | .error error => ⟨.error error, host, sink⟩
  | .ok (program, main) =>
      host.settle sink
        (Machine.run program main host.settings.maxCallDepth ⟨.empty, sink, some input⟩)

/-- Runs the file at a path. When it cannot be read the host stays as it is. -/
def runFile (host : Host) (files : Files) (path : String) (input : WorkRecord) (sink : Sink) : Run :=
  match files.read path with
  | .error error => ⟨.error (.io error), host, sink⟩
  | .ok source => host.run files (some path) source input sink

end Host
end MiniC
