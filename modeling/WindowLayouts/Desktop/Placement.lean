import WindowLayouts.Desktop.Window
import WindowLayouts.History.Lookup
import WindowLayouts.History.Recording

/- Placing a window: choose a monitor, calculate the layout, record the choice, move the window and
   announce it. A layout that cannot be calculated leaves the window, the store and the files as
   they were. A choice that cannot be recorded, or a number that is too long to be reported, ends
   the placement before the window is moved, when the choice is already known. -/
namespace WindowLayouts

def placementRecord (level : Level) (content : Text) : Trace :=
  [.record ⟨level, .applicator, text "[LayoutApplicator] " ++ content⟩]

/-- What is needed to place windows, and the store that remembers it. -/
structure Desk where
  monitors : MonitorProvider
  /-- Whether placements are announced on a bus. -/
  onBus : Bool
  now : Int
  store : Store
  files : FileTree

/-- Why placing a window fails. -/
inductive PlacementFailure where
  | layout (reason : Expr.ResolveError)
  | history (reason : RecordingFailure)
  /-- A number has too many digits to be reported. -/
  | report
deriving Repr, DecidableEq

def PlacementFailure.message : PlacementFailure → Text
  | .layout reason => reason.message
  | .history reason => reason.message
  | .report => Numeral.limitMessage []

/-- Why there is no monitor for a placement. -/
inductive NoMonitor where
  /-- None was found; what is said about it. -/
  | notFound (said : Text)
  /-- The window's own has a number that is too long for a key. -/
  | noKey (reason : Numeral.Unshowable)
deriving Repr, DecidableEq

structure Placed where
  result : Except PlacementFailure (Option Geometry)
  /-- What the window was told, in this order. -/
  calls : List WindowCall
  window : Option Window
  desk : Desk
  trace : Trace

namespace Desk

/-- The monitor for a placement with its key: the one named, or else the window's own. -/
def chooseMonitor (d : Desk) (w : Window) : Option Text → Except NoMonitor (Monitor × Text)
  | some key =>
    match d.monitors.withKey? key with
    | some m => .ok (m, key)
    | none => .error (.notFound (text "Could not find monitor with key: " ++ key))
  | none =>
    match d.monitors.of? w with
    | some m => (m.key.map fun key => (m, key)).mapError .noKey
    | none => .error (.notFound (text "Could not determine monitor for window"))

/-- Record the choice of a layout for a window that has a class. -/
def remember [StackRoom] (d : Desk) (w : Window) (layoutId : Text) :
    Outcome (Except RecordingFailure Unit) :=
  let who := w.identity
  if who.windowClass.isEmpty then
    ⟨.ok (), d.store, d.files,
      placementRecord .info (text "Window has no class, skipping history update")⟩
  else d.store.select d.files d.now who.windowId who.windowClass who.title layoutId

/-- The numbers that are reported before a window is moved. -/
def reportedNumbers (area : Area) (g : Geometry) : List Int :=
  [g.x, g.y, g.width, g.height, area.x, area.y, area.width, area.height]

/-- What is said before a window is moved, unless one of the numbers cannot be shown. -/
def movingTrace? (area : Area) (g : Geometry) : Option Trace :=
  if (reportedNumbers area g).all Numeral.isShowable then
    some (placementRecord .info
      (text "Moving window to x=" ++ Numeral.ofInt g.x ++ text ", y=" ++ Numeral.ofInt g.y ++
        text ", w=" ++ Numeral.ofInt g.width ++ text ", h=" ++ Numeral.ofInt g.height ++
        text " (work area: " ++ Numeral.ofInt area.x ++ text "," ++ Numeral.ofInt area.y ++
        text " " ++ Numeral.ofInt area.width ++ text "x" ++ Numeral.ofInt area.height ++
        text ")"))
  else none

/-- What moves a window to a geometry: a maximized window is unmaximized before. -/
def movingCalls (w : Window) (g : Geometry) : List WindowCall × Trace :=
  if w.maximized then
    ([.unmaximize, .move g], placementRecord .info (text "Unmaximizing window"))
  else ([.move g], [])

/-- Record, move and announce, once the geometry is known. -/
def settle [StackRoom] (d : Desk) (w : Window) (layout : Layout) (m : Monitor) (key : Text)
    (g : Geometry) :
    Placed :=
  let remembered := d.remember w layout.id
  let after := { d with store := remembered.store, files := remembered.files }
  match remembered.result, movingTrace? m.workArea g with
  | .error reason, _ => ⟨.error (.history reason), [], some w, after, remembered.trace⟩
  | .ok (), none => ⟨.error .report, [], some w, after, remembered.trace⟩
  | .ok (), some moving =>
    let (calls, unmaximized) := movingCalls w g
    let announced := if d.onBus then [.message (.layoutApplied w.handle layout key g)] else []
    ⟨.ok (some g), calls, some (w.obeyAll calls), after,
      remembered.trace ++ moving ++ unmaximized ++ announced⟩

/-- Place a window in a layout. The monitor is the one asked for, else the layout's, else the
    window's own. -/
def place [StackRoom] (d : Desk) (window : Option Window) (layout : Layout) (key : Option Text) :
    Placed :=
  let said := placementRecord .info
    (text "Apply layout: " ++ layout.label ++ text " (ID: " ++ layout.id ++ text ")")
  match window with
  | none =>
    ⟨.ok none, [], none, d, said ++ placementRecord .info (text "No window to apply layout to")⟩
  | some w =>
    match d.chooseMonitor w (key.or layout.monitorKey) with
    | .error (.notFound reason) => ⟨.ok none, [], some w, d, said ++ placementRecord .info reason⟩
    | .error (.noKey _) => ⟨.error .report, [], some w, d, said⟩
    | .ok (m, key) =>
      match layout.calculate m.workArea with
      | .error reason => ⟨.error (.layout reason), [], some w, d, said⟩
      | .ok g =>
        let placed := d.settle w layout m key g
        { placed with trace := said ++ placed.trace }

/-- The first of some layouts that is the one remembered for a window, and what is reported. -/
def suggest (s : Store) (window : Option Window) (layouts : List Layout) :
    Except Numeral.Unshowable (Option Layout) × Trace :=
  match window with
  | none => (.ok none, [])
  | some w =>
    let who := w.identity
    let (found, said) := s.lookup who.windowId who.windowClass who.title
    (found.map fun remembered => remembered.bind fun id => layouts.find? fun l => l.id = id, said)

end Desk

end WindowLayouts
