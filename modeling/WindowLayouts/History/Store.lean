import WindowLayouts.History.Index
import WindowLayouts.History.Log
import WindowLayouts.Storage.FileTree

/- The history store: the events of one log, the index made from them, and the choices of this
   session by window. The operations on a store are in modules of their own; each takes the store
   and the files and gives back both, with a result and a trace.

   The store answers for a window from the session first, then by class and title, then by class. -/
namespace WindowLayouts

structure Store where
  path : Path
  /-- Loading more events than this compacts the log. -/
  threshold : Int
  /-- How many layouts are ranked for a class. -/
  limit : Int
  /-- Whether the store has a bus to send messages on. -/
  onBus : Bool
  events : List Event
  index : Index
  session : List (Int × Text)
deriving Repr, DecidableEq

/-- Which layouts are known when a log is loaded: any, only some, or nobody can tell. -/
inductive KnownLayouts where
  | all
  | only (ids : List Text)
  | failed (reason : Text)
deriving Repr, DecidableEq

/-- What an operation leaves behind. -/
structure Outcome (α : Type) where
  result : α
  store : Store
  files : FileTree
  trace : Trace

def storeRecord (level : Level) (content : Text) : Trace :=
  [.record ⟨level, .store, text "[LayoutHistory] " ++ content⟩]

@[simp] theorem Trace.messages_storeRecord (level : Level) (content : Text) :
    (storeRecord level content).messages = [] := rfl

namespace Store

def new (path : Path) (threshold limit : Int) (onBus : Bool) : Store :=
  ⟨path, threshold, limit, onBus, [], Index.empty, []⟩

def reset (s : Store) : Store := { s with events := [], index := Index.empty, session := [] }

/-- A store with other events, indexed anew. -/
def withEvents (s : Store) (events : List Event) : Store :=
  { s with events := events, index := Index.rebuild s.limit events }

def publish (s : Store) (m : Message) : Trace := if s.onBus then [.message m] else []

@[simp] theorem messages_publish (s : Store) (m : Message) :
    (s.publish m).messages = if s.onBus then [m] else [] := by
  unfold publish
  split <;> rfl

/-- Forget the choice of a window that was closed. -/
def forget (s : Store) (windowId : Int) : Store :=
  { s with session := Keyed.erase windowId s.session }

end Store

def Event.notAfter (a b : Event) : Bool := a.time ≤ b.time

end WindowLayouts
