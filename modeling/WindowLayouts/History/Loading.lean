import WindowLayouts.History.Compaction

/- Loading: the store starts again from its log. The events are read line by line, those of unknown
   layouts are left out, the others are sorted by time so that events of one time keep the order of
   the log, and the index is made from them. Whatever goes wrong leaves an empty store. A log with
   more events than the threshold is compacted at once.

     `Store.commit`    the events of a log, chosen and sorted, become the store's
     `Store.load`      load a log that may be missing or unreadable -/
namespace WindowLayouts

inductive LoadError where
  | system
  | line (reason : Event.ReadError)
  | known (reason : Text)
deriving Repr, DecidableEq

def LoadError.message : LoadError → Text
  | .system => systemError
  | .line .notJson => []
  | .line (.numeralTooLong reason) => reason.message
  | .line (.tooDeep container) => container.tooDeepMessage
  | .line .timeTooLarge => EvalError.message .integerTooLarge
  | .known reason => reason

namespace KnownLayouts

def select (known : KnownLayouts) (events : List Event) : List Event :=
  match known with
  | .only ids => events.filter fun e => ids.contains e.layoutId
  | _ => events

def error? : KnownLayouts → Option LoadError
  | .failed reason => some (.known reason)
  | _ => none

end KnownLayouts

namespace Store

/-- Read the events of the log, and then learn which layouts are known. -/
def readEvents [StackRoom] (s : Store) (files : FileTree) (known : KnownLayouts) :
    Trace × Except LoadError (List Event) :=
  match files.read? s.path with
  | none => ([], .error .system)
  | some content =>
    let reading := Log.read content
    (reading.trace,
      match reading.events, known.error? with
      | .error reason, _ => .error (.line reason)
      | .ok _, some error => .error error
      | .ok events, none => .ok events)

def prunedTrace (read selected : List Event) : Trace :=
  let pruned := read.length - selected.length
  if pruned = 0 then []
  else storeRecord .info
    (text "Filtered " ++ Numeral.ofNat pruned ++ text " events with unknown layoutId")

/-- An empty store, which says so. -/
def loadedNothing (s : Store) (files : FileTree) (said : Trace) :
    Outcome (Except FileFailure Unit) :=
  ⟨.ok (), s.reset, files, said ++ s.publish (.historyLoaded 0)⟩

/-- Take up events that were read, before any compaction. -/
def commit (s : Store) (files : FileTree) (known : KnownLayouts) (read : List Event) :
    Outcome (Except FileFailure Unit) :=
  let selected := known.select read
  let sorted := selected.mergeSort Event.notAfter
  ⟨.ok (), s.reset.withEvents sorted, files,
    prunedTrace read selected ++
    storeRecord .info (text "Loaded " ++ Numeral.ofNat sorted.length ++ text " events") ++
    s.publish (.historyLoaded sorted.length)⟩

/-- Compact the log, in some way, if there are more events than the threshold. -/
def compactIfLong {α : Type} (compacting : Store → FileTree → Outcome Bool) (o : Outcome α) :
    Outcome α :=
  if o.store.threshold < o.store.events.length then
    let after := compacting o.store o.files
    ⟨o.result, after.store, after.files, o.trace ++ after.trace⟩
  else o

/-- Take up what was read of a log, and compact the log if it is long. -/
def takeRead (s : Store) (compacting : Store → FileTree → Outcome Bool) (files : FileTree)
    (known : KnownLayouts) :
    Trace × Except LoadError (List Event) → Outcome (Except FileFailure Unit)
  | (said, .error reason) =>
    s.loadedNothing files
      (said ++ storeRecord .error (text "Error loading history: " ++ reason.message))
  | (said, .ok read) =>
    let committed := s.commit files known read
    compactIfLong compacting { committed with trace := said ++ committed.trace }

/-- Take up what a log holds that is there. -/
def loadLog [StackRoom] (s : Store) (files : FileTree) (known : KnownLayouts) :
    Outcome (Except FileFailure Unit) :=
  s.takeRead compact files known (s.readEvents files known)

/-- Begin a new session with what a log gives, if the system tells that the log is there. Loading
    fails only where the system does not tell. -/
def loadIfThere (s : Store) (files : FileTree) (there : Except FileFailure Bool)
    (loaded : Outcome (Except FileFailure Unit)) : Outcome (Except FileFailure Unit) :=
  match there with
  | .error reason => ⟨.error reason, s.reset, files, []⟩
  | .ok false =>
    s.loadedNothing files
      (storeRecord .info (s.path.toText ++ text " does not exist, using empty history"))
  | .ok true => loaded

/-- Load the log and begin a new session. -/
def load [StackRoom] (s : Store) (files : FileTree) (known : KnownLayouts) :
    Outcome (Except FileFailure Unit) :=
  s.loadIfThere files (files.holds s.path) (s.loadLog files known)

end Store

end WindowLayouts
