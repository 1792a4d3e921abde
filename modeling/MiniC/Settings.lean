import MiniC.Json.Reader

/-!
Settings of the interpreter, and their JSON form. A field that is absent has its
default, and a field that is unknown is ignored.
-/

namespace MiniC

structure Settings where
  /-- Where included files are searched. -/
  includeDirs : List String
  /-- How many calls a script may nest. -/
  maxCallDepth : Nat
  /-- Stack of the evaluator in mebibytes; a run here needs no such bound. -/
  stackSize : Nat
  /-- Whether the command line tells what `main` returned. -/
  reportExitCode : Bool
deriving DecidableEq, Repr

namespace Settings

def default : Settings := ⟨[], 1000, 64, true⟩

instance : Inhabited Settings := ⟨default⟩

def fieldNames : List String :=
  ["include_dirs", "max_call_depth", "stack_size_mb", "report_exit_code"]

def size? (json : Json) : Option Nat := (json.between? 0 (Nat.pow 2 64 - 1)).map Int.toNat

def ofJson? (json : Json) : Option Settings := do
  let [dirs?, depth?, stack?, report?] ← json.fields? fieldNames | none
  return ⟨← Json.getD (Json.list? Json.content?) default.includeDirs dirs?,
    ← Json.getD size? default.maxCallDepth depth?, ← Json.getD size? default.stackSize stack?,
    ← Json.getD Json.bool? default.reportExitCode report?⟩

def toJson (settings : Settings) : Json :=
  .record (fieldNames.zip
    [.array (settings.includeDirs.map .ofText), .ofInt settings.maxCallDepth,
      .ofInt settings.stackSize, .bool settings.reportExitCode])

def ofText? (text : String) : Option Settings := (Json.parse? text).bind ofJson?

def text (settings : Settings) : String := settings.toJson.pretty

end Settings
end MiniC
