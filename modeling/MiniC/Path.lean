/-!
File paths as text.

A path is a sequence of segments between slashes. Empty segments and single dots
name no step of their own, except a dot at the very start, which is kept as
written.
-/

namespace MiniC.Path

def separator : String := "/"

def segments (path : String) : List String := path.splitOn separator

def isAbsolute (path : String) : Bool := path.startsWith separator

def join (dir path : String) : String :=
  if isAbsolute path || dir.isEmpty then path
  else if dir.endsWith separator then dir ++ path
  else dir ++ separator ++ path

/-- A segment that leads nowhere. -/
def isIdle (segment : String) : Bool := segment = "" || segment = "."

def dropIdleEnd (segments : List String) : List String :=
  (segments.reverse.dropWhile isIdle).reverse

def parentSegments (segments : List String) : List String := dropIdleEnd segments.dropLast

/-- The path without its last step; `none` when there is no step. -/
def parent? (path : String) : Option String :=
  match segments path with
  | "" :: rest =>
      match dropIdleEnd rest with
      | [] => none
      | steps => some (separator ++ separator.intercalate (parentSegments steps))
  | "." :: rest =>
      match dropIdleEnd rest with
      | [] => some ""
      | steps => some (separator.intercalate ("." :: parentSegments steps))
  | steps => some (separator.intercalate (parentSegments (dropIdleEnd steps)))

def fileName? (path : String) : Option String :=
  match (dropIdleEnd (segments path)).getLast? with
  | some ".." => none
  | last? => last?

/-- The path with its file name replaced. A path without a file name is taken for a directory. -/
def withFileName (path name : String) : String :=
  match fileName? path with
  | some _ => join ((parent? path).getD "") name
  | none => join path name

/-- Bytes of the longest path that a system looks up. -/
def maxSize : Nat := 4095

def maxSegmentSize : Nat := 255

end MiniC.Path
