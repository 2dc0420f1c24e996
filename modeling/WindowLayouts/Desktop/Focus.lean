import WindowLayouts.Desktop.Placement

/- A desk that hears the bus. It follows which window has the focus, forgets the session's choice of
   a window that is closed, and places windows on command: the window named, or the focused one. A
   command with a malformed layout is reported; any other failure leaves the desk. -/
namespace WindowLayouts

/-- A desk with its windows, and the window that has the focus. -/
structure FocusedDesk where
  desk : Desk
  windows : List (Handle × Window)
  focused : Option Handle

/-- What a message leaves behind: the failure that left the desk, if there is one. -/
structure Heard where
  failure : Option PlacementFailure
  state : FocusedDesk
  trace : Trace

namespace FocusedDesk

def window? (d : FocusedDesk) (handle : Option Handle) : Option Window :=
  handle.bind fun h => Keyed.get? h d.windows

def afterPlacing (d : FocusedDesk) (p : Placed) : FocusedDesk :=
  { d with
    desk := p.desk
    windows := match p.window with
      | some w => Keyed.set w.handle w d.windows
      | none => d.windows }

/-- Place the window that a command names, or the focused one. -/
def command [StackRoom] (d : FocusedDesk) (layout : Layout) (window : Option Handle)
    (key : Option Text) :
    Heard :=
  let placed := d.desk.place (d.window? (window.or d.focused)) layout key
  let after := d.afterPlacing placed
  match placed.result with
  | .ok _ => ⟨none, after, placed.trace⟩
  | .error (.layout (.parse (.malformed fault))) =>
    ⟨none, after, placed.trace ++ placementRecord .error
      (text "Invalid layout " ++ layout.id ++ text ": " ++ fault.message)⟩
  | .error reason => ⟨some reason, after, placed.trace⟩

/-- A window was closed: it has no focus any more, and the session forgets it. -/
def closed (d : FocusedDesk) (handle : Handle) : FocusedDesk :=
  let focused := if d.focused = some handle then none else d.focused
  match d.window? (some handle) with
  | none => { d with focused := focused }
  | some w =>
    { d with
      focused := focused
      desk := { d.desk with store := d.desk.store.forget w.objectId } }

/-- What a message does. Messages that announce something do nothing here. -/
def hear [StackRoom] (d : FocusedDesk) : Message → Heard
  | .focusChanged window => ⟨none, { d with focused := window }, []⟩
  | .windowClosed handle => ⟨none, d.closed handle, []⟩
  | .applyLayout layout window key => d.command layout window key
  | _ => ⟨none, d, []⟩

def hearAll [StackRoom] (d : FocusedDesk) (messages : List Message) : FocusedDesk :=
  messages.foldl (fun d m => (d.hear m).state) d

end FocusedDesk

end WindowLayouts
