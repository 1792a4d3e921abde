import MiniC.CommandLine

/-!
The program itself: looks up the files that a request can touch, answers the
request over what was found, and carries the answer out.
-/

namespace MiniC.CommandLine

def fileError : IO.Error → FileError
  | .noFileOrDirectory _ _ _ => .notFound
  | .permissionDenied _ _ _ => .denied
  | .inappropriateType _ code _ => if code = 21 then .isDirectory else .notDirectory
  | .resourceBusy _ _ => .busy
  | .invalidArgument _ 36 _ => .nameTooLong
  | error => .other (toString error)

def decodeText (bytes : ByteArray) : Except FileError String :=
  match String.fromUTF8? bytes with
  | some text => .ok text
  | none => .error .notText

def readText (path : String) : IO (Except FileError String) := do
  try return decodeText (← IO.FS.readBinFile path)
  catch error => return .error (fileError error)

/-- What a path leads to in the file system. A file may be there that cannot be read. -/
def lookUp (path : String) : IO (Except FileError File) := do
  try
    let name ← IO.FS.realPath path
    if ← name.isDir then return .error .isDirectory
    return .ok ⟨name.toString, ← readText path⟩
  catch error => return .error (fileError error)

abbrev Found := List (String × Except FileError File)

def Found.toFiles (found : Found) : Files :=
  ⟨fun path => (found.lookup path).getD (.error .notFound)⟩

structure Pending where
  dir? : Option String
  text : String

def extend (found : Found) (paths : List String) : IO Found :=
  paths.foldlM (fun found path => do
    if (found.lookup path).isSome then return found
    else return (path, ← lookUp path) :: found) found

def newTexts (before after : Found) : List Pending :=
  (after.take (after.length - before.length)).filterMap fun (path, result) =>
    match result with
    | .ok ⟨_, .ok text⟩ => some ⟨Path.parent? path, text⟩
    | _ => none

/-- Looks up what texts include, and what these include in turn, down to a depth. -/
def gather (dirs : List String) : Nat → Found → List Pending → IO Found
  | 0, found, _ => return found
  | depth + 1, found, pending => do
      let paths := pending.flatMap fun text => Include.candidates dirs text.dir? text.text
      let extended ← extend found paths
      gather dirs depth extended (newTexts found extended)

def Task.reads : Task → List String
  | .run file input? _ _ => (if file = "-" then [] else [file]) ++ input?.toList
  | .check file => [file]
  | .builtins => []

def readStdin : Task → IO (Except FileError String)
  | .run "-" _ _ _ => do
      return decodeText (← (← IO.getStdin).readBinToEnd)
  | _ => return .ok ""

def survey (config? : Option String) (task : Task) (stdin : Except FileError String) :
    IO Found := do
  let configured ← extend [] config?.toList
  let dirs :=
    match loadSettings configured.toFiles config? with
    | .ok settings => settings.includeDirs
    | .error _ => []
  let found ← extend configured task.reads
  let typed := (stdin.toOption.map fun text => Pending.mk none text).toList
  gather dirs Include.maxActive found (newTexts configured found ++ typed)

def save (document : Document) : IO (Except FileError Unit) := do
  try
    let scratch := FileTree.scratchPath document.path
    IO.FS.writeFile scratch document.text
    IO.FS.rename scratch document.path
    return .ok ()
  catch error => return .error (fileError error)

def carryOut (request : Request) : IO Response := do
  match request with
  | .perform config? task =>
      let stdin ← readStdin task
      let found ← survey config? task stdin
      let response := respond found.toFiles stdin request
      match response.save? with
      | some document => return response.afterSave (← save document)
      | none => return response
  | _ => return respond (Found.toFiles []) (.ok "") request

end MiniC.CommandLine

open MiniC.CommandLine in
def main (arguments : List String) : IO UInt32 := do
  let response ← carryOut (.read arguments)
  let stdout ← IO.getStdout
  stdout.write response.stdout
  stdout.flush
  (← IO.getStderr).putStr response.verdict.stderr
  return UInt32.ofNat response.verdict.exitCode
