/-!
Looking up files.

The interpreter sees files only through a lookup from paths. Different paths may
lead to one file; its name tells it from every other file.
-/

namespace MiniC

/-- Why a path gives no text or takes none. -/
inductive FileError where
  | notFound
  | denied
  /-- The path ends in a dot or two, where a file is to be put. -/
  | busy
  /-- A file stands where the path needs a directory. -/
  | notDirectory
  | isDirectory
  /-- The path or one of its segments is longer than a system looks up. -/
  | nameTooLong
  /-- The bytes of the file are not UTF-8. -/
  | notText
  | other (reason : String)
deriving DecidableEq, Repr

def FileError.message : FileError → String
  | .notFound => "No such file or directory (os error 2)"
  | .denied => "Permission denied (os error 13)"
  | .busy => "Device or resource busy (os error 16)"
  | .notDirectory => "Not a directory (os error 20)"
  | .isDirectory => "Is a directory (os error 21)"
  | .nameTooLong => "File name too long (os error 36)"
  | .notText => "stream did not contain valid UTF-8"
  | .other reason => reason

structure File where
  /-- The same for every path to the file. -/
  name : String
  /-- The text, or why it cannot be read. -/
  contents : Except FileError String
deriving Repr

structure Files where
  locate : String → Except FileError File

namespace Files

def find? (files : Files) (path : String) : Option File := (files.locate path).toOption

def read (files : Files) (path : String) : Except FileError String :=
  match files.locate path with
  | .error error => .error error
  | .ok file => file.contents

def nameAt (files : Files) (path : String) : String :=
  match files.find? path with
  | some file => file.name
  | none => path

end Files
end MiniC
