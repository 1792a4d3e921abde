import MiniC.Diagnostic
import MiniC.Files
import MiniC.Path

/-!
Expansion of `#include` lines.

A line whose first visible character is `#` is a directive. A quoted include is
searched beside the including file and then in the include directories, an
angled one in the include directories only. An included file takes the place of
its line; a pragma, and an angled include that is not found, leave an empty
line. A file that is being expanded cannot be included again, and at most
`maxActive` files are expanded inside one another.

A fault inside an included file is reported at the line that includes it.
-/

namespace MiniC.Include

/-- How many files may be open at once, the source included when it is a file. -/
def maxActive : Nat := 16

inductive Directive where
  | quoted (name : String)
  | angled (name : String)
  | pragma
deriving DecidableEq, Repr

inductive Cause where
  | unsupported (name : String)
  | malformed (target : String)
  | notFound (name : String)
  | circular (path : String)
  | tooDeep
  | unreadable (path : String) (error : FileError)
  /-- The cause lies in an included file. -/
  | within (path : String) (cause : Cause)
deriving DecidableEq, Repr

def Cause.message : Cause → String
  | .unsupported name => s!"unsupported directive '#{name}'"
  | .malformed target => s!"malformed #include '{target}'"
  | .notFound name => s!"include file \"{name}\" not found"
  | .circular path => s!"circular #include of {path}"
  | .tooDeep => s!"#include nested more than {maxActive} levels"
  | .unreadable path error => s!"cannot read {path}: {error.message}"
  | .within path cause => s!"in {path}: {cause.message}"

structure Fault where
  cause : Cause
  span : Span
deriving DecidableEq, Repr

def Fault.diagnostic (fault : Fault) : Diagnostic :=
  ⟨.preprocessor, fault.cause.message, fault.span⟩

/-- The lines of a text, each with its newline. -/
def lines : List Char → List (List Char)
  | [] => []
  | char :: rest =>
      if char = '\n' then [char] :: lines rest
      else
        match lines rest with
        | [] => [[char]]
        | first :: others => (char :: first) :: others

def after? : List Char → List Char → Option (List Char)
  | [], text => some text
  | _ :: _, [] => none
  | expected :: word, char :: text => if expected = char then after? word text else none

def between? (opening closing : Char) : List Char → Option (List Char)
  | [] => none
  | first :: rest =>
      if first = opening ∧ rest.getLast? = some closing then some rest.dropLast else none

def readTarget (target : List Char) : Except Cause Directive :=
  match between? '"' '"' target with
  | some name => .ok (.quoted (String.ofList name))
  | none =>
      match between? '<' '>' target with
      | some name => .ok (.angled (String.ofList name))
      | none => .error (.malformed (String.ofList target))

def readDirective (line : List Char) : Except Cause (Option Directive) :=
  match Text.trimLeft line with
  | '#' :: rest =>
      let body := Text.trimLeft rest
      if (after? "pragma".toList body).isSome then .ok (some .pragma)
      else
        match after? "include".toList body with
        | some target => (readTarget (Text.trim target)).map some
        | none =>
            let word := body.takeWhile fun char => !Text.isBlank char
            .error (.unsupported (String.ofList word))
  | _ => .ok none

structure SearchPath where
  files : Files
  dirs : List String

/-- The first directory that has the file, with the path to it. -/
def search (files : Files) (name : String) : List String → Option (String × File)
  | [] => none
  | dir :: dirs =>
      let path := Path.join dir name
      match files.find? path with
      | some file => some (path, file)
      | none => search files name dirs

def SearchPath.resolve (searchPath : SearchPath) (dir? : Option String) :
    Directive → Except Cause (Option (String × File))
  | .pragma => .ok none
  | .angled name => .ok (search searchPath.files name searchPath.dirs)
  | .quoted name =>
      match search searchPath.files name (dir?.toList ++ searchPath.dirs) with
      | some found => .ok (some found)
      | none => .error (.notFound name)

/-! ### Expansion -/

/-- Expands a text, given the names of the open files, innermost first, and the directory that
quoted includes are relative to. -/
abbrev Expander := List String → Option String → List Char → Except Fault (List Char)

/-- The expansion of one included file. Without an expander no further file can be opened. -/
def enter (inner? : Option Expander) (active : List String) (path : String) (file : File) :
    Except Cause (List Char) :=
  if file.name ∈ active then .error (.circular path)
  else
    match inner?, file.contents with
    | none, _ => .error .tooDeep
    | some _, .error error => .error (.unreadable path error)
    | some inner, .ok text =>
        match inner (file.name :: active) (Path.parent? path) text.toList with
        | .ok expanded => .ok expanded
        | .error fault => .error (.within path fault.cause)

def endsLine (text : List Char) : Bool := text.getLast? = some '\n'

def expandLine (searchPath : SearchPath) (inner? : Option Expander) (active : List String)
    (dir? : Option String) (line : List Char) : Except Cause (List Char) := do
  match ← readDirective line with
  | none => return line
  | some directive =>
      match ← searchPath.resolve dir? directive with
      | none => return if endsLine line then ['\n'] else []
      | some (path, file) =>
          let text ← enter inner? active path file
          return if endsLine text then text else text ++ ['\n']

def lineSpan (offset : Nat) (line : List Char) : Span :=
  ⟨offset, offset + Text.byteSize (Text.trimRight line)⟩

def expandLines (searchPath : SearchPath) (inner? : Option Expander) (active : List String)
    (dir? : Option String) (offset : Nat) : List (List Char) → Except Fault (List Char)
  | [] => .ok []
  | line :: rest =>
      match expandLine searchPath inner? active dir? line with
      | .error cause => .error ⟨cause, lineSpan offset line⟩
      | .ok text => do
          let others ← expandLines searchPath inner? active dir? (offset + Text.byteSize line) rest
          return text ++ others

/-- Expansion that may open `budget` more files inside one another. -/
def expandText (searchPath : SearchPath) : Nat → Expander
  | 0, active, dir?, text => expandLines searchPath none active dir? 0 (lines text)
  | budget + 1, active, dir?, text =>
      expandLines searchPath (some (expandText searchPath budget)) active dir? 0 (lines text)

/-- Expands a source. `origin?` is the path of the file it came from. -/
def expand (searchPath : SearchPath) (origin? : Option String) (source : String) :
    Except Diagnostic String :=
  let active := origin?.toList.map searchPath.files.nameAt
  match expandText searchPath (maxActive - active.length) active (origin?.bind Path.parent?)
      source.toList with
  | .ok text => .ok (String.ofList text)
  | .error fault => .error fault.diagnostic

/-- The paths at which the includes of a text are looked up. -/
def candidates (dirs : List String) (dir? : Option String) (source : String) : List String :=
  (lines source.toList).flatMap fun line =>
    match readDirective line with
    | .ok (some (.quoted name)) => (dir?.toList ++ dirs).map (Path.join · name)
    | .ok (some (.angled name)) => dirs.map (Path.join · name)
    | _ => []

end MiniC.Include
