import WindowLayouts.Keyed
import WindowLayouts.StackRoom
import WindowLayouts.Storage.Path

/- Files and directories. A tree gives each place that is in use a file's content or a directory;
   the working directory and the root are directories always. Following a path goes through
   directories only, and double dots lead up from the directory that was reached. A name that is
   too long is refused as soon as it is come to. Directories are made from the outermost in, but
   asked for from the innermost out, so nothing is made where too many are missing.

     `FileTree.lookup`             what a path leads to
     `FileTree.holds`              whether a path leads to a file or a directory
     `FileTree.makeDirectories`    create what is missing of a path, up to what stands in the way
     `FileTree.write`              replace or create a file in a directory that exists -/
namespace WindowLayouts

inductive Node where
  | file (content : Bytes)
  | directory
deriving Repr, DecidableEq

/-- A place: the names that lead to it, as they are listed. Places under the root begin with a slash
    as a name, and places above the working directory with double dots. -/
abbrev Place := List Text

def rootName : Text := text "/"

/-- The places in use, and the path of the working directory from the root. -/
structure FileTree where
  workingDirectory : Path
  nodes : List (Place × Node)
deriving Repr, DecidableEq

inductive Found where
  | file (place : Place) (content : Bytes)
  | directory (place : Place)
  /-- Nothing, but the directory that would hold it exists. -/
  | absent (place : Place)
  /-- Nothing, and a directory on the way is missing. -/
  | unreachable
  | blocked
  /-- A name on the way or the whole path is too long. -/
  | refused
deriving Repr, DecidableEq

namespace FileTree

def empty (workingDirectory : Path) : FileTree := ⟨workingDirectory, []⟩

def origin (p : Path) : Place :=
  match p.root with
  | .workingDirectory => []
  | _ => [rootName]

/-- The directory above a directory. The root is above itself; above the working directory there is
    always one more directory, and nobody knows its name. -/
def above (d : Place) : Place :=
  if d = [rootName] then d
  else if d.all (· = text "..") then d ++ [text ".."]
  else d.dropLast

def node? (t : FileTree) (place : Place) : Option Node := Keyed.get? place t.nodes

def follow (t : FileTree) (d : Place) : List Text → Found
  | [] => .directory d
  | name :: rest =>
    if name = text ".." then follow t (above d) rest
    else if isNameTooLong name then .refused
    else
      let place := d ++ [listedName name]
      match t.node? place, rest with
      | some .directory, rest => follow t place rest
      | some (.file content), [] => .file place content
      | some (.file _), _ :: _ => .blocked
      | none, [] => .absent place
      | none, _ :: _ => .unreachable

def lookup (t : FileTree) (p : Path) : Found :=
  if p.isTooLong then .refused else t.follow (origin p) p.names

/-- Whether a path leads to a file or a directory. The system fails to tell where it refuses a name;
    a path that cannot be handed over leads to nothing. -/
def holds (t : FileTree) (p : Path) : Except FileFailure Bool :=
  if p.fault?.isSome then .ok false
  else match t.lookup p with
    | .refused => .error .system
    | .file .. | .directory _ => .ok true
    | _ => .ok false

def put (t : FileTree) (place : Place) (node : Node) : FileTree :=
  { t with nodes := Keyed.set place node t.nodes }

/-- Create the directories that names lead through from a directory. Stops at a file or at a name
    that is too long, keeping the directories made before it. -/
def makeFrom (t : FileTree) (d : Place) : List Text → FileTree × Bool
  | [] => (t, true)
  | name :: rest =>
    if name = text ".." then makeFrom t (above d) rest
    else if isNameTooLong name then (t, false)
    else
      let place := d ++ [listedName name]
      match t.node? place with
      | some .directory => makeFrom t place rest
      | some (.file _) => (t, false)
      | none => makeFrom (t.put place .directory) place rest

/-- How many directories names ask for that are missing. Where the first is missing all after it
    are, and where something else stands in the way none is asked for. -/
def missing (t : FileTree) (d : Place) : List Text → Nat
  | [] => 0
  | name :: rest =>
    if name = text ".." then missing t (above d) rest
    else if isNameTooLong name then 0
    else
      let place := d ++ [listedName name]
      match t.node? place with
      | some .directory => missing t place rest
      | some (.file _) => 0
      | none => rest.length + 1

/-- Whether there is no room to make the directories of a path one inside the other. -/
def isTooDeep [StackRoom] (t : FileTree) (p : Path) : Bool :=
  StackRoom.directories < t.missing (origin p) p.names

/-- Create a directory and those above it as far as they are missing. Nothing is created for a path
    that cannot be handed over, or that too many are missing of. -/
def makeDirectories [StackRoom] (t : FileTree) (p : Path) : FileTree × Except FileFailure Unit :=
  match p.fault? with
  | some fault => (t, .error (.name fault))
  | none =>
    if p.isTooLong then (t, .error .system)
    else if t.isTooDeep p then (t, .error .tooDeep)
    else match t.makeFrom (origin p) p.names with
      | (made, true) => (made, .ok ())
      | (made, false) => (made, .error .system)

/-- Give a file its content; there is none where a directory is or where no directory is above. -/
def write (t : FileTree) (p : Path) (content : Bytes) : Except FileFailure FileTree :=
  match p.fault? with
  | some fault => .error (.name fault)
  | none =>
    match t.lookup p with
    | .file place _ | .absent place => .ok (t.put place (.file content))
    | _ => .error .system

def read? (t : FileTree) (p : Path) : Option Bytes :=
  match t.lookup p with
  | .file _ content => some content
  | _ => none

/-- Remove a file, or a directory with what it holds. -/
def remove (t : FileTree) (p : Path) : FileTree :=
  match t.lookup p with
  | .file place _ | .directory place =>
    { t with nodes := t.nodes.filter fun (other, _) => !place.isPrefixOf other }
  | _ => t

/-- The names in a directory, in order of code points. -/
def names (t : FileTree) (d : Place) : List Text :=
  (t.nodes.filterMap fun (place, _) =>
    if place.dropLast = d && !place.isEmpty then place.getLast? else none).mergeSort Text.le

end FileTree

end WindowLayouts
