/-!
Arguments of the command line.

Options may stand before and after the words. The settings file and the
verbosity are accepted on both sides of the task word, and what stands behind it
wins; all other options belong to one task. The first argument that is wrong
decides, unless a request for help or for the version stands before it. The value
of an option that is an argument of its own is checked only when the next argument
of the same level is taken; so a wrong one in front of the task word does not keep
the task from giving help.
-/

namespace MiniC.CommandLine

inductive Task where
  /-- The file `-` is the standard input. -/
  | run (file : String) (input? output? : Option String) (printResult : Bool)
  | check (file : String)
  | builtins
deriving DecidableEq, Repr

inductive Request where
  | perform (config? : Option String) (task : Task)
  | version
  | help
  | misuse
deriving DecidableEq, Repr

structure Level where
  /-- Options with a value, each given at most once. -/
  options : List String
  /-- Flags, each given at most once. -/
  flags : List String
  /-- Whether the version can be asked for. -/
  hasVersion : Bool
  /-- How many words are accepted. -/
  words : Nat
  /-- Whether a word may be empty. -/
  emptyWords : Bool
  /-- Whether a word ends the level. -/
  stopsAtWord : Bool

structure Given where
  options : List (String × String)
  /-- The last option with its value, as long as that is not checked. -/
  pending? : Option (String × String)
  flags : List String
  words : List String

def Given.nothing : Given := ⟨[], none, [], []⟩

inductive Scan where
  | finished (given : Given)
  /-- A word ended the level; what follows it is left. -/
  | stopped (given : Given) (word : String) (rest : List String)
  | version
  | help
  | misuse

inductive Argument where
  | word (text : String)
  /-- A name behind two dashes, with the text behind `=` if there is one. -/
  | long (name : String) (value? : Option String)
  /-- Letters behind one dash. -/
  | short (letters : List Char)
  /-- Two dashes alone: only words follow. -/
  | escape

def Argument.read (text : String) : Argument :=
  match text.toList with
  | ['-', '-'] => .escape
  | '-' :: '-' :: rest =>
      let name := rest.takeWhile (· ≠ '=')
      match rest.dropWhile (· ≠ '=') with
      | _ :: value => .long (String.ofList name) (some (String.ofList value))
      | [] => .long (String.ofList name) none
  | '-' :: letter :: letters => .short (letter :: letters)
  | _ => .word text

def isWord (text : String) : Bool :=
  match Argument.read text with
  | .word _ => true
  | _ => false

namespace Given

def addOption? (given : Given) (name value : String) : Option Given :=
  if value.isEmpty || (given.options.lookup name).isSome then none
  else some { given with options := (name, value) :: given.options }

/-- With the pending option checked and added. -/
def settle? (given : Given) : Option Given :=
  match given.pending? with
  | none => some given
  | some (name, value) => { given with pending? := none }.addOption? name value

def addFlag? (given : Given) (name : String) : Option Given :=
  if name ∈ given.flags then none else some { given with flags := name :: given.flags }

def addWords? (given : Given) (level : Level) (words : List String) : Option Given :=
  let words := given.words ++ words
  if words.length ≤ level.words && (level.emptyWords || !words.any String.isEmpty) then
    some { given with words }
  else none

end Given

def readLetters (level : Level) : List Char → Option Scan
  | [] => none
  | 'v' :: rest => readLetters level rest
  | 'h' :: _ => some .help
  | 'V' :: _ => some (if level.hasVersion then .version else .misuse)
  | _ :: _ => some .misuse

/-- Reads the arguments of a level, up to the word that ends it. -/
def scan (level : Level) (given : Given) : List String → Scan
  | [] =>
      match given.settle? with
      | some given => .finished given
      | none => .misuse
  | argument :: rest =>
      match Argument.read argument, given.settle? with
      | .word text, settled? =>
          if level.stopsAtWord then .stopped given text rest
          else
            match settled?.bind fun given => given.addWords? level [text] with
            | some given => scan level given rest
            | none => .misuse
      | _, none => .misuse
      | .escape, some given =>
          match given.addWords? level rest with
          | some given => .finished given
          | none => .misuse
      | .short letters, some given =>
          match readLetters level letters with
          | some outcome => outcome
          | none => scan level given rest
      | .long name (some value), some given =>
          if name ∈ level.options then
            match given.addOption? name value with
            | some given => scan level given rest
            | none => .misuse
          else .misuse
      | .long name none, some given =>
          if name ∈ level.options then
            match rest with
            | [] => .misuse
            | value :: others =>
                if isWord value then scan level { given with pending? := some (name, value) } others
                else .misuse
          else if name ∈ level.flags then
            match given.addFlag? name with
            | some given => scan level given rest
            | none => .misuse
          else if name = "verbose" then scan level given rest
          else if name = "help" then .help
          else if name = "version" && level.hasVersion then .version
          else .misuse

/-! ### Levels -/

def topLevel : Level := ⟨["config"], [], true, 0, false, true⟩

def runLevel : Level := ⟨["config", "input", "output"], ["print-result"], false, 1, true, false⟩

def checkLevel : Level := ⟨["config"], [], false, 1, false, false⟩

def builtinsLevel : Level := ⟨["config"], [], false, 0, false, false⟩

def runTask? (given : Given) : Option Task :=
  match given.words with
  | [file] =>
      some (.run file (given.options.lookup "input") (given.options.lookup "output")
        (given.flags.contains "print-result"))
  | _ => none

def checkTask? (given : Given) : Option Task :=
  match given.words with
  | [file] => some (.check file)
  | _ => none

def builtinsTask? (_ : Given) : Option Task := some .builtins

/-- Reads one task. `outer` is what stands before the task word; its last option is checked once the
task is read. -/
def readTask (outer : Given) (level : Level) (task? : Given → Option Task) (rest : List String) :
    Request :=
  match scan level .nothing rest with
  | .finished given =>
      match task? given, outer.settle? with
      | some task, some outer =>
          .perform ((given.options.lookup "config").or (outer.options.lookup "config")) task
      | _, _ => .misuse
  | .version => .version
  | .help => .help
  | _ => .misuse

def taskWords : List String := ["run", "check", "builtins", "help"]

def readHelp : List String → Request
  | [] => .help
  | [word] => if word ∈ taskWords then .help else .misuse
  | _ => .misuse

def Request.read (arguments : List String) : Request :=
  match scan topLevel .nothing arguments with
  | .stopped outer "run" rest => readTask outer runLevel runTask? rest
  | .stopped outer "check" rest => readTask outer checkLevel checkTask? rest
  | .stopped outer "builtins" rest => readTask outer builtinsLevel builtinsTask? rest
  | .stopped _ "help" rest => readHelp rest
  | .version => .version
  | .help => .help
  | _ => .misuse

end MiniC.CommandLine
