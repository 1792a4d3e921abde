import MiniC.CommandLine.Arguments
import MiniC.FileTree
import MiniC.Host

/-!
The command line: runs a script, checks one, or lists the builtin functions.

A request is answered by what goes to the standard output, a verdict, and at
most one document to be saved. Saving comes last and can still turn the verdict.
-/

namespace MiniC.CommandLine

inductive Verdict where
  | success
  | failed (error : HostError)
  | misuse
  /-- A check broke off inside the scan of the source. -/
  | crashed

def usage : String :=
  "Usage: cover [--config FILE] [-v] <run FILE [--input FILE] [--output FILE] [--print-result]" ++
    " | check FILE | builtins>\n"

namespace Verdict

def exitCode : Verdict → Nat
  | success => 0
  | failed _ => 1
  | misuse => 2
  | crashed => 101

def stderr : Verdict → String
  | success => ""
  | failed error => s!"Error: {error.message}\n"
  | misuse => usage
  | crashed => s!"Error: {HostError.aborted.message}\n"

end Verdict

structure Document where
  path : String
  text : String
deriving DecidableEq, Repr

structure Response where
  stdout : ByteArray
  verdict : Verdict
  save? : Option Document

namespace Response

def print (text : String) : Response := ⟨text.toUTF8, .success, none⟩

def fail (error : HostError) : Response := ⟨.empty, .failed error, none⟩

def afterSave (response : Response) : Except FileError Unit → Response
  | .ok () => { response with save? := none }
  | .error error => { response with verdict := .failed (.io error), save? := none }

end Response

def version : String := "cover 0.1.0\n"

def report (settings : Settings) (exitCode? : Option Int64) (record : WorkRecord)
    (printResult : Bool) : String :=
  let code :=
    match exitCode? with
    | some code =>
        if settings.reportExitCode then s!"Program exited with code: {code.toInt}\n" else ""
    | none => ""
  if printResult then code ++ record.text ++ "\n" else code

def runScript (files : Files) (stdin : Except FileError String) (settings : Settings)
    (file : String) (input : WorkRecord) : Host.Run :=
  let host := Host.new settings
  if file = "-" then
    match stdin with
    | .ok source => host.run files none source input .unlimited
    | .error error => ⟨.error (.io error), host, .unlimited⟩
  else host.runFile files file input .unlimited

def performRun (files : Files) (stdin : Except FileError String) (settings : Settings)
    (file : String) (input? output? : Option String) (printResult : Bool) : Response :=
  let input :=
    match input? with
    | some path => files.load path WorkRecord.ofText?
    | none => .ok .blank
  match input with
  | .error error => .fail error
  | .ok input =>
      let run := runScript files stdin settings file input
      match run.outcome with
      | .error error => ⟨run.sink.written, .failed error, none⟩
      | .ok ⟨exitCode?, record⟩ =>
          ⟨run.sink.written ++ (report settings exitCode? record printResult).toUTF8, .success,
            output?.map fun path => ⟨path, record.text⟩⟩

def performCheck (files : Files) (settings : Settings) (file : String) : Response :=
  match Include.SearchPath.compileFile ⟨files, settings.includeDirs⟩ file with
  | .error .aborted => ⟨.empty, .crashed, none⟩
  | .error error => .fail error
  | .ok program =>
      let found := if program.main?.isSome then "found" else "missing"
      .print s!"OK: {program.functions.size} function(s), main {found}\n"

def padRight (width : Nat) (text : String) : String :=
  text ++ String.ofList (List.replicate (width - text.length) ' ')

def listing (category : String) : List Signature → String
  | [] => ""
  | signature :: rest =>
      let heading :=
        if signature.category = category then "" else s!"\n{signature.category}:\n"
      let row := "  " ++ padRight 48 signature.text ++ " " ++ signature.description ++ "\n"
      heading ++ row ++ listing signature.category rest

def performTask (files : Files) (stdin : Except FileError String) (settings : Settings) :
    Task → Response
  | .run file input? output? printResult =>
      performRun files stdin settings file input? output? printResult
  | .check file => performCheck files settings file
  | .builtins => .print (listing "" (Builtin.all.map Builtin.signature))

/-- The settings that a request runs under. -/
def loadSettings (files : Files) : Option String → Except HostError Settings
  | none => .ok .default
  | some path => files.load path Settings.ofText?

def respond (files : Files) (stdin : Except FileError String) : Request → Response
  | .perform config? task =>
      match loadSettings files config? with
      | .error error => .fail error
      | .ok settings => performTask files stdin settings task
  | .version => .print version
  | .help => .print usage
  | .misuse => ⟨.empty, .misuse, none⟩

def serve (tree : FileTree) (stdin : Except FileError String) (arguments : List String) :
    Response × FileTree :=
  let response := respond tree.toFiles stdin (.read arguments)
  match response.save? with
  | none => (response, tree)
  | some document =>
      let (saved, tree) := tree.save document.path document.text
      (response.afterSave saved, tree)

end MiniC.CommandLine
