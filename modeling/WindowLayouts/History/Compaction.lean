import WindowLayouts.History.Store

/- Compaction: the log is replaced by one that holds just the events that can still be found. An
   event is kept if it is the last of its class and title, or if its layout is ranked for its class.
   The new log is written beside the old one and takes its place at once; where that fails nothing
   in the store changes.

     `Index.thin`       the events that are kept
     `Store.compact`    the log is replaced first, and the store follows only if that worked -/
namespace WindowLayouts

namespace Index

def ranks (ix : Index) (e : Event) : Bool := (ix.retained e.classHash).contains e.layoutId

/-- Whether an event is kept, given the events after it. -/
def keeps (ix : Index) (later : List Event) (e : Event) : Bool :=
  !(later.any fun l => l.titleKey = e.titleKey) || ix.ranks e

/-- The events that are kept of some that stand beside their title keys. -/
def thinKeyed (ix : Index) : List (Text × Event) → List Event
  | [] => []
  | (key, e) :: later =>
    if !(later.any fun l => l.1 = key) || ix.ranks e then e :: ix.thinKeyed later
    else ix.thinKeyed later

def thin (ix : Index) (events : List Event) : List Event :=
  ix.thinKeyed (events.map fun e => (e.titleKey, e))

theorem thin_cons (ix : Index) (e : Event) (later : List Event) :
    ix.thin (e :: later) = if ix.keeps later e then e :: ix.thin later else ix.thin later := by
  simp [thin, thinKeyed, keeps, List.any_map, Function.comp_def]

end Index

namespace Store

/-- The events that a compaction keeps, in order of time. -/
def kept (s : Store) : List Event := (s.index.thin s.events).mergeSort Event.notAfter

/-- The name under which a new log is first written, beside the old one: hidden, and with letters
    that tell it from any other. Which letters they are shows nowhere. -/
def temporaryName (name : Text) : Text := text "." ++ name ++ text ".abcdefgh.tmp"

/-- Where a new log is first written, as a path from the root. -/
def temporaryPath (s : Store) (files : FileTree) : Path :=
  (s.path.parent.absolute files.workingDirectory).child (temporaryName s.path.name)

/-- The files after the log was replaced, and whether that worked. The new log is written beside the
    old one first, so the system has to take that longer name and path too. -/
def replaceLog [StackRoom] (s : Store) (files : FileTree) (content : Bytes) :
    FileTree × Except FileFailure Unit :=
  match files.makeDirectories s.path.parent with
  | (files, .error reason) => (files, .error reason)
  | (files, .ok ()) =>
    match (s.temporaryPath files).fault? with
    | some fault => (files, .error (.name fault))
    | none =>
      if isNameTooLong (temporaryName s.path.name) || (s.temporaryPath files).isTooLong then
        (files, .error .system)
      else match files.write s.path content with
        | .error reason => (files, .error reason)
        | .ok replaced => (replaced, .ok ())

/-- What a compaction that keeps some events leaves behind, once the log was replaced or was not. -/
def compacted (s : Store) (kept : List Event) (replaced : FileTree × Except FileFailure Unit) :
    Outcome Bool :=
  let before := s.events.length
  let started := storeRecord .info
    (text "Starting compaction (" ++ Numeral.ofNat before ++ text " events)")
  match replaced with
  | (files, .error reason) =>
    ⟨false, s, files,
      started ++ storeRecord .error (text "Error during compaction: " ++ reason.message)⟩
  | (files, .ok ()) =>
    ⟨true, s.withEvents kept, files,
      started ++
      storeRecord .info
        (text "Compaction complete: " ++ Numeral.ofNat kept.length ++ text " events kept") ++
      s.publish (.historyCompacted before kept.length)⟩

/-- Replace the log by one with the events that are kept, and tell whether that worked. -/
def compact [StackRoom] (s : Store) (files : FileTree) : Outcome Bool :=
  let kept := s.kept
  s.compacted kept (s.replaceLog files (Log.ofEvents kept))

end Store

end WindowLayouts
