import WindowLayouts.History.Replacement
import WindowLayouts.History.Run

/- Recording and loading step by step, as `Store.compactBySteps` compacts. Recording makes the
   directories, looks at the end of the log, opens it, and writes what makes a line of the event;
   loading asks whether the log is there, reads it line by line, and compacts what is long. The
   system may refuse each of these steps for reasons of its own, and in the midst of some: an event
   may be written in part, and a log read in part.

     `Store.appendBySteps`    what an append leaves that may be refused anywhere
     `Store.loadBySteps`      what a load takes up that may be refused anywhere
     `Run.stepBySteps`        one operation, whatever is refused -/
namespace WindowLayouts

namespace FileTree

/-- Whether a path leads to a file or a directory, which the system may refuse to tell. A path that
    cannot be handed over is not asked about. -/
def tells (t : FileTree) (refused : Refusals) (p : Path) : Except FileFailure Bool :=
  if refused.telling && p.fault?.isNone then .error .system else t.holds p

end FileTree

namespace Store

/-- Look whether the last line of the log was not ended. -/
def looksMidLine (s : Store) (refused : Refusals) (files : FileTree) : Except FileFailure Bool :=
  match files.tells refused s.path with
  | .error reason => .error reason
  | .ok false => .ok false
  | .ok true =>
    match files.read? s.path, refused.reading with
    | some content, none => .ok (Log.endsMidLine content)
    | _, _ => .error .system

/-- Open the log for more and write a line to its end, or only the first bytes of it. -/
def writeMore (s : Store) (refused : Refusals) (files : FileTree)
    (line : Except FileFailure Bytes) : FileTree × Except FileFailure Unit :=
  let more := line.toOption.getD []
  let taken := more.take (refused.appending.getD more.length)
  match files.write s.path ((files.read? s.path).getD [] ++ taken) with
  | .error reason => (files, .error reason)
  | .ok written =>
    if refused.opening then (files, .error .system)
    else (written, line.bind fun _ => if refused.appending.isSome then .error .system else .ok ())

/-- Append an event to the log step by step. -/
def appendBySteps [StackRoom] (s : Store) (refused : Refusals) (files : FileTree) (e : Event) :
    FileTree × Except FileFailure Unit :=
  match files.makeDirectoriesUpTo s.path.parent refused.directories with
  | (made, .error reason) => (made, .error reason)
  | (made, .ok ()) =>
    match s.looksMidLine refused made with
    | .error reason => (made, .error reason)
    | .ok midLine => s.writeMore refused made (e.lineAfter midLine)

/-- Record a choice with all steps of the append. -/
def selectBySteps [StackRoom] (s : Store) (refused : Refusals) (files : FileTree)
    (now windowId : Int) (windowClass title layoutId : Text) :
    Outcome (Except RecordingFailure Unit) :=
  if windowClass.isEmpty then s.withoutClass files
  else
    let e := s.nextEvent now windowClass title layoutId
    s.afterAppend windowId e (hashTrace windowClass ++ hashTrace title)
      (s.appendBySteps refused files e)

/-- Read the events of the log, or fail after the first lines of it. -/
def readEventsBySteps [StackRoom] (s : Store) (refused : Refusals) (files : FileTree)
    (known : KnownLayouts) : Trace × Except LoadError (List Event) :=
  match files.read? s.path, refused.reading with
  | some content, some n =>
    let reading := Log.readLines 1 ((Log.lines content).take n)
    (reading.trace,
      match reading.events with
      | .error reason => .error (.line reason)
      | .ok _ => .error .system)
  | _, _ => s.readEvents files known

/-- Load the log step by step. A compaction writes to a temporary file of some name. -/
def loadBySteps [StackRoom] (s : Store) (refused : Refusals) (name : Text) (files : FileTree)
    (known : KnownLayouts) : Outcome (Except FileFailure Unit) :=
  s.loadIfThere files (files.tells refused s.path)
    (s.takeRead (fun s files => s.compactBySteps refused name files) files known
      (s.readEventsBySteps refused files known))

end Store

/-- One operation step by step, with the name that a temporary file has if one is needed. -/
def Run.stepBySteps [StackRoom] (r : Run) (refused : Refusals) (name : Text) : Operation → Run
  | .load known => r.after (r.store.loadBySteps refused name r.files known)
  | .select now windowId windowClass title layoutId =>
    r.after (r.store.selectBySteps refused r.files now windowId windowClass title layoutId)
  | .forget windowId => { r with store := r.store.forget windowId }
  | .compact => r.after (r.store.compactBySteps refused name r.files)

end WindowLayouts
