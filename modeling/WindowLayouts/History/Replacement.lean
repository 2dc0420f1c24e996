import WindowLayouts.History.Compaction

/- Replacing a log step by step. Directories are made, a temporary file is created beside the log
   and filled, and it is moved to where the path of the log leads; whatever fails after it was
   created, the temporary file is removed again. The system may refuse each step for reasons that
   the files do not show: no room, no right, a broken disk.

     `Refusals`                  what the system refuses for such reasons, here and elsewhere
     `Store.replaceBySteps`      the steps
     `Store.compactBySteps`      a compaction that takes them one by one -/
namespace WindowLayouts

/-- What the system refuses for reasons of its own, whatever the files show. -/
structure Refusals where
  /-- After how many names on the way to the log no directory is made any more. -/
  directories : Option Nat
  /-- To tell whether the log is there. -/
  telling : Bool
  /-- After how many lines of the log no more is read. -/
  reading : Option Nat
  /-- To open the log for one more event. -/
  opening : Bool
  /-- After how many bytes of an event no more are taken. -/
  appending : Option Nat
  creation : Bool
  /-- After how many bytes of the new log no more are taken. -/
  filling : Option Nat
  moving : Bool
deriving Repr, DecidableEq

def Refusals.none : Refusals := ⟨.none, false, .none, false, .none, false, .none, false⟩

namespace FileTree

/-- Make the directories that a path leads through, or only those of its first names. A system that
    refuses at once does so before it is known how many are missing. -/
def makeDirectoriesUpTo [StackRoom] (t : FileTree) (p : Path) :
    Option Nat → FileTree × Except FileFailure Unit
  | none => t.makeDirectories p
  | some n =>
    match p.fault? with
    | some fault => (t, .error (.name fault))
    | none =>
      if p.isTooLong then (t, .error .system)
      else if 0 < n && t.isTooDeep p then (t, .error .tooDeep)
      else ((t.makeFrom (origin p) (p.names.take n)).1, .error .system)

/-- The place of a new file with a listed name in the directory that a path leads to. There is none
    without the directory, and where the name is in use. -/
def freePlace? (t : FileTree) (p : Path) (name : Text) : Option Place :=
  match t.follow (origin p) p.names with
  | .directory d => if (t.node? (d ++ [name])).isNone then some (d ++ [name]) else none
  | _ => none

def unlink (t : FileTree) (place : Place) : FileTree :=
  { t with nodes := Keyed.erase place t.nodes }

/-- Move a file from its place to where a path leads. -/
def moveFile (t : FileTree) (place : Place) (p : Path) : Except FileFailure FileTree :=
  match t.node? place with
  | some (.file content) => (t.unlink place).write p content
  | _ => .error .system

end FileTree

namespace Store

/-- Where the temporary file is created, if that works. All temporary names are as long as the one
    that is judged here. -/
def createTemporary (s : Store) (refused : Refusals) (name : Text) (files : FileTree) :
    Except FileFailure Place :=
  match (s.temporaryPath files).fault? with
  | some fault => .error (.name fault)
  | none =>
    if refused.creation || isNameTooLong (temporaryName s.path.name) ||
        (s.temporaryPath files).isTooLong then .error .system
    else match files.freePlace? s.path.parent name with
      | some place => .ok place
      | none => .error .system

/-- Fill the temporary file and move it to the log. -/
def fillAndMove (s : Store) (refused : Refusals) (files : FileTree) (temporary : Place)
    (content : Bytes) : FileTree × Except FileFailure Unit :=
  match refused.filling with
  | some n => (files.put temporary (.file (content.take n)), .error .system)
  | none =>
    let filled := files.put temporary (.file content)
    if refused.moving then (filled, .error .system)
    else match filled.moveFile temporary s.path with
      | .ok moved => (moved, .ok ())
      | .error reason => (filled, .error reason)

/-- Replace the log step by step, with a temporary file of some name. -/
def replaceBySteps [StackRoom] (s : Store) (refused : Refusals) (name : Text) (files : FileTree)
    (content : Bytes) : FileTree × Except FileFailure Unit :=
  match files.makeDirectoriesUpTo s.path.parent refused.directories with
  | (made, .error reason) => (made, .error reason)
  | (made, .ok ()) =>
    match s.createTemporary refused name made with
    | .error reason => (made, .error reason)
    | .ok temporary =>
      match s.fillAndMove refused (made.put temporary (.file [])) temporary content with
      | (left, .error reason) => (left.unlink temporary, .error reason)
      | (replaced, .ok ()) => (replaced, .ok ())

/-- Compact with all steps of the replacement. -/
def compactBySteps [StackRoom] (s : Store) (refused : Refusals) (name : Text) (files : FileTree) :
    Outcome Bool :=
  let kept := s.kept
  s.compacted kept (s.replaceBySteps refused name files (Log.ofEvents kept))

end Store

end WindowLayouts
