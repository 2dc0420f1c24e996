import WindowLayouts.History.Store

/- Recording: a window chose a layout. The session remembers the choice by window whatever happens;
   the event goes to the log first and only then to the store, so that a log that cannot be written
   leaves both without it. The time of an event is never before that of the one before it.

   A number that is too long to be shown ends the operation where it is to be written: the time of
   the event, when the log is open for it already, or the number of the window, with which the
   choice is reported when the event is in the log and in the store. -/
namespace WindowLayouts

/-- Why recording a choice fails. -/
inductive RecordingFailure where
  | log (reason : FileFailure)
  | report (reason : Numeral.Unshowable)
deriving Repr, DecidableEq

def RecordingFailure.message : RecordingFailure → Text
  | .log reason => reason.message
  | .report reason => reason.message

/-- What is to be written for an event, unless its time is too long for it: a line, after the end of
    the one before it if that is missing. -/
def Event.lineAfter (e : Event) (midLine : Bool) : Except FileFailure Bytes :=
  if Numeral.isShowable e.time then .ok (if midLine then newline :: e.bytes else e.bytes)
  else .error (.unshowable .tooLong)

namespace Store

/-- The time of the next event: the clock's, but not before the last event. -/
def nextTime (s : Store) (now : Int) : Int :=
  match s.events.getLast? with
  | none => now
  | some last => if now < last.time then last.time else now

/-- The files after an event was appended to the log, and whether that worked. The log is opened
    first, and begins there if it is missing. -/
def appendToLog [StackRoom] (s : Store) (files : FileTree) (e : Event) :
    FileTree × Except FileFailure Unit :=
  match files.makeDirectories s.path.parent with
  | (files, .error reason) => (files, .error reason)
  | (files, .ok ()) =>
    let before := (files.read? s.path).getD []
    let line := e.lineAfter (Log.endsMidLine before)
    match files.write s.path (before ++ line.toOption.getD []) with
    | .ok files => (files, line.map fun _ => ())
    | .error reason => (files, .error reason)

def nextEvent (s : Store) (now : Int) (windowClass title layoutId : Text) : Event :=
  ⟨s.nextTime now, hashText windowClass, hashText title, layoutId⟩

def withEvent (s : Store) (e : Event) : Store :=
  { s with events := s.events ++ [e], index := s.index.record s.limit e }

/-- What is said about a choice that was recorded. -/
def recordedTrace (windowId : Int) (e : Event) : Except Numeral.Unshowable Trace :=
  (Numeral.shown windowId).map fun shown =>
    storeRecord .info
      (text "Recorded selection: windowId=" ++ shown ++
        text ", wmClassHash=" ++ e.classHash ++ text ", titleHash=" ++ e.titleHash ++
        text " -> " ++ e.layoutId)

/-- A store whose session remembers a choice. -/
def remembering (s : Store) (windowId : Int) (layoutId : Text) : Store :=
  { s with session := Keyed.set windowId layoutId s.session }

/-- What becomes of a choice once its event was appended to the log or was not, after what was said
    before. A refusal of the system is reported and goes no further; any other reason is a failure
    of the operation itself. -/
def afterAppend (s : Store) (windowId : Int) (e : Event) (said : Trace)
    (appended : FileTree × Except FileFailure Unit) : Outcome (Except RecordingFailure Unit) :=
  let remembering := s.remembering windowId e.layoutId
  match appended with
  | (files, .error .system) =>
    ⟨.ok (), remembering, files,
      said ++ storeRecord .error (text "Error appending event: " ++ systemError)⟩
  | (files, .error reason) => ⟨.error (.log reason), remembering, files, said⟩
  | (files, .ok ()) =>
    match recordedTrace windowId e with
    | .error reason => ⟨.error (.report reason), remembering.withEvent e, files, said⟩
    | .ok recorded =>
      ⟨.ok (), remembering.withEvent e, files,
        said ++ recorded ++ s.publish (.layoutRecorded e.layoutId e.classHash e.titleHash)⟩

/-- A window without a class has no history. -/
def withoutClass (s : Store) (files : FileTree) : Outcome (Except RecordingFailure Unit) :=
  ⟨.ok (), s, files, storeRecord .warning (text "Window class is empty, skipping history update")⟩

/-- Record that a window chose a layout. -/
def select [StackRoom] (s : Store) (files : FileTree) (now : Int) (windowId : Int)
    (windowClass title layoutId : Text) : Outcome (Except RecordingFailure Unit) :=
  if windowClass.isEmpty then s.withoutClass files
  else
    let e := s.nextEvent now windowClass title layoutId
    s.afterAppend windowId e (hashTrace windowClass ++ hashTrace title) (s.appendToLog files e)

end Store

end WindowLayouts
