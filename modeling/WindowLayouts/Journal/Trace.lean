import WindowLayouts.Journal.Record
import WindowLayouts.Layout.Basic

/- What an operation says while it runs: records, and messages on the bus, in one order. Parts that
   hear messages are run by whoever handles them; here a message is only written down.

   Windows are named by a handle, which is what a message shows of them. -/
namespace WindowLayouts

/-- What tells one window from another while a session lasts. -/
abbrev Handle := Text

inductive Message where
  | focusChanged (window : Option Handle)
  | windowClosed (window : Handle)
  | applyLayout (layout : Layout) (window : Option Handle) (monitorKey : Option Text)
  | layoutApplied (window : Handle) (layout : Layout) (monitorKey : Text) (geometry : Geometry)
  | layoutRecorded (layoutId classHash titleHash : Text)
  | historyLoaded (count : Nat)
  | historyCompacted (before after : Nat)
deriving Repr, DecidableEq

inductive Item where
  | record (r : Record)
  | message (m : Message)
deriving Repr, DecidableEq

abbrev Trace := List Item

namespace Trace

def records (t : Trace) : List Record :=
  t.filterMap fun | .record r => some r | .message _ => none

def messages (t : Trace) : List Message :=
  t.filterMap fun | .message m => some m | .record _ => none

theorem messages_append (t t' : Trace) : (t ++ t').messages = t.messages ++ t'.messages :=
  List.filterMap_append

end Trace

/-! ## Showing messages -/

namespace Message

def topic : Message → Text
  | .focusChanged _ => text "focus.changed"
  | .windowClosed _ => text "window.closed"
  | .applyLayout .. => text "cmd.apply_layout"
  | .layoutApplied .. => text "layout.applied"
  | .layoutRecorded .. => text "layout.recorded"
  | .historyLoaded _ => text "history.loaded"
  | .historyCompacted .. => text "history.compacted"

def showOption {α : Type} (display : α → Text) : Option α → Text
  | none => text "None"
  | some a => display a

def showWindow (h : Handle) : Text := text "<" ++ h ++ text ">"

def showFields (fields : List (String × Text)) : Text :=
  (text ", ").intercalate (fields.map fun (name, value) => text name ++ text "=" ++ value)

/-- A kind of value with its fields in parentheses. -/
def showStructure (kind : String) (fields : List (String × Text)) : Text :=
  text kind ++ text "(" ++ showFields fields ++ text ")"

def showLayout (l : Layout) : Text :=
  showStructure "Layout"
    [("id", l.id.quoted), ("label", l.label.quoted), ("x", l.x.quoted), ("y", l.y.quoted),
     ("width", l.width.quoted), ("height", l.height.quoted),
     ("monitor_key", showOption Text.quoted l.monitorKey)]

def showGeometry (g : Geometry) : Text :=
  showStructure "LayoutGeometry"
    [("x", Numeral.ofInt g.x), ("y", Numeral.ofInt g.y), ("width", Numeral.ofInt g.width),
     ("height", Numeral.ofInt g.height)]

def fields : Message → List (String × Text)
  | .focusChanged window => [("window", showOption showWindow window)]
  | .windowClosed window => [("window", showWindow window)]
  | .applyLayout layout window key =>
    [("layout", showLayout layout), ("window", showOption showWindow window),
     ("monitor_key", showOption id key)]
  | .layoutApplied window layout key geometry =>
    [("window", showWindow window), ("layout", showLayout layout), ("monitor_key", key),
     ("geometry", showGeometry geometry)]
  | .layoutRecorded id classHash titleHash =>
    [("layout_id", id), ("window_class_hash", classHash), ("title_hash", titleHash)]
  | .historyLoaded count => [("event_count", Numeral.ofNat count)]
  | .historyCompacted before after =>
    [("before", Numeral.ofNat before), ("after", Numeral.ofNat after)]

/-- The record that an observer of the whole bus makes of a message. -/
def observed (m : Message) : Record :=
  ⟨.debug, .bus, text "EVENT: " ++ m.topic ++ text " | " ++ showFields m.fields⟩

end Message

/-- A trace with the record of an observer directly after each message. -/
def Trace.observed (t : Trace) : Trace :=
  t.flatMap fun
    | .record r => [.record r]
    | .message m => [.message m, .record m.observed]

/-- A trace as it is with or without an observer of the whole bus. -/
def Trace.observedIf (observer : Bool) (t : Trace) : Trace := if observer then t.observed else t

end WindowLayouts
