import WindowLayouts.History.Event
import WindowLayouts.Keyed

/- The index: what can be looked up, derived from events. For each class it ranks the layouts last
   chosen, each once, the latest first and no more than a limit; for each class and title together
   it knows the latest choice. Recording an event moves its layout to the front.

   The limit may be any integer. A negative one drops that many entries from the end each time. -/
namespace WindowLayouts

/-- A layout and when it was last chosen. -/
structure Entry where
  layoutId : Text
  lastUsed : Int
deriving Repr, DecidableEq

def Event.entry (e : Event) : Entry := ⟨e.layoutId, e.time⟩

/-- What can be looked up: ranked entries by class, and the latest entry by title key. -/
structure Index where
  classes : List (Text × List Entry)
  titles : List (Text × Entry)
deriving Repr, DecidableEq

namespace Index

def empty : Index := ⟨[], []⟩

def within (limit : Int) (entries : List Entry) : List Entry :=
  match limit with
  | .ofNat n => entries.take n
  | .negSucc n => entries.take (entries.length - (n + 1))

/-- An entry in front of the others, the old one of its layout removed. -/
def promote (entry : Entry) (entries : List Entry) : List Entry :=
  entry :: entries.eraseP fun old => old.layoutId = entry.layoutId

def entries (ix : Index) (classHash : Text) : List Entry :=
  (Keyed.get? classHash ix.classes).getD []

def record (limit : Int) (ix : Index) (e : Event) : Index :=
  ⟨Keyed.set e.classHash (within limit (promote e.entry (ix.entries e.classHash))) ix.classes,
   Keyed.set e.titleKey e.entry ix.titles⟩

/-- The index of some events, in the order in which they happened. -/
def rebuild (limit : Int) (events : List Event) : Index := events.foldl (record limit) empty

/-- The layout last chosen for a class and title together. -/
def lookupTitle (ix : Index) (classHash titleHash : Text) : Option Text :=
  (Keyed.get? (titleKey classHash titleHash) ix.titles).map (·.layoutId)

/-- The layout that ranks first for a class. -/
def lookupClass (ix : Index) (classHash : Text) : Option Text :=
  (ix.entries classHash).head?.map (·.layoutId)

/-- The layouts that are ranked for a class. -/
def retained (ix : Index) (classHash : Text) : List Text := (ix.entries classHash).map (·.layoutId)

end Index

end WindowLayouts
