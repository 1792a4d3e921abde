import MiniC.Files
import MiniC.Path

/-!
Files held in memory.

A tree maps sequences of segments to texts. A directory exists when a file lies
below it, and the top always does. Above the top lies an endless row of further
directories, which hold no files but those that are put there. Paths are walked
from the top, one segment at a time, so that every directory on the way has to
exist.
-/

namespace MiniC

abbrev Route := List String

namespace Route

def isTop (route : Route) : Bool := route.all (· = "..")

def up (route : Route) : Route := if isTop route then route ++ [".."] else route.dropLast

def follow (route : Route) (segment : String) : Route :=
  if Path.isIdle segment then route
  else if segment = ".." then up route
  else route ++ [segment]

end Route

structure FileTree where
  files : List (Route × String)
deriving Repr

namespace FileTree

def empty : FileTree := ⟨[]⟩

inductive Node where
  | directory (route : Route)
  | file (route : Route) (text : String)

def textAt? (tree : FileTree) (route : Route) : Option String :=
  tree.files.lookup route

def isDirectory (tree : FileTree) (route : Route) : Bool :=
  Route.isTop route || tree.files.any fun (found, _) => route.isPrefixOf found && route ≠ found

def nodeAt (tree : FileTree) (route : Route) : Except FileError Node :=
  match tree.textAt? route with
  | some text => .ok (.file route text)
  | none =>
      if tree.isDirectory route then .ok (.directory route) else .error .notFound

def step (tree : FileTree) (node : Node) (segment : String) : Except FileError Node :=
  match node with
  | .file _ _ => .error .notDirectory
  | .directory here =>
      if Path.maxSegmentSize < segment.utf8ByteSize then .error .nameTooLong
      else tree.nodeAt (Route.follow here segment)

def walk (tree : FileTree) (segments : List String) : Except FileError Node :=
  segments.foldlM tree.step (.directory [])

def segments (path : String) : Except FileError (List String) :=
  if path.isEmpty || Path.isAbsolute path then .error .notFound
  else if Path.maxSize < path.utf8ByteSize then .error .nameTooLong
  else .ok (Path.segments path)

def locate (tree : FileTree) (path : String) : Except FileError File := do
  match ← tree.walk (← segments path) with
  | .file route text => .ok ⟨Path.separator.intercalate route, .ok text⟩
  | .directory _ => .error .isDirectory

def toFiles (tree : FileTree) : Files := ⟨tree.locate⟩

def insert (tree : FileTree) (route : Route) (text : String) : FileTree :=
  ⟨(route, text) :: tree.files.filter fun (found, _) => found ≠ route⟩

def erase (tree : FileTree) (route : Route) : FileTree :=
  ⟨tree.files.filter fun (found, _) => found ≠ route⟩

def ofFiles (files : List (String × String)) : FileTree :=
  files.foldl (fun tree (path, text) =>
    tree.insert ((Path.segments path).foldl Route.follow []) text) empty

/-- The directory that a path ends in and the last segment, slashes behind it left out. -/
def ending (tree : FileTree) (path : String) : Except FileError (Route × String) := do
  let steps := ((← segments path).reverse.dropWhile String.isEmpty).reverse
  match ← tree.walk steps.dropLast with
  | .file _ _ => .error .notDirectory
  | .directory here => .ok (here, steps.getLastD "")

def isDots (segment : String) : Bool := segment = "." || segment = ".."

/-- A place for a file in a directory. It must not be a directory itself. -/
def place (tree : FileTree) (here : Route) (name : String) : Except FileError Route :=
  let route := here ++ [name]
  if Path.maxSegmentSize < name.utf8ByteSize then .error .nameTooLong
  else if tree.isDirectory route then .error .isDirectory
  else .ok route

def writePlace (tree : FileTree) (path : String) : Except FileError Route := do
  let (here, name) ← tree.ending path
  if isDots name || path.endsWith Path.separator then .error .isDirectory
  else tree.place here name

/-- Where a file goes that is moved to a path. -/
def movePlace (tree : FileTree) (path : String) : Except FileError Route := do
  let (here, name) ← tree.ending path
  if isDots name then .error .busy
  else if path.endsWith Path.separator then .error .notDirectory
  else tree.place here name

/-- Where a text is collected before it takes the place of a file. -/
def scratchPath (path : String) : String :=
  Path.withFileName path ((Path.fileName? path).getD "" ++ ".tmp")

/-- Writes a text to a scratch file beside the path, then moves that to the path; so a failure never
leaves half a text at the path itself. -/
def save (tree : FileTree) (path text : String) : Except FileError Unit × FileTree :=
  match tree.writePlace (scratchPath path) with
  | .error error => (.error error, tree)
  | .ok scratch =>
      let written := tree.insert scratch text
      match written.movePlace path with
      | .error error => (.error error, written)
      | .ok route => (.ok (), (written.erase scratch).insert route text)

end FileTree
end MiniC
