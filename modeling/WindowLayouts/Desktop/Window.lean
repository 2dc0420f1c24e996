import WindowLayouts.Journal.Trace

/- Monitors and windows. A monitor is known by its number, written out. A window keeps what was done
   to it; it has an id that other windows may share, and a handle that none does.

     `WindowCall`         what a window can be told
     `MonitorProvider`    whoever finds monitors, by key or for a window -/
namespace WindowLayouts

/-- A monitor, with the area that windows may use. -/
structure Monitor where
  index : Int
  geometry : Area
  workArea : Area
  isPrimary : Bool
deriving Repr, DecidableEq

/-- The key that layouts and messages name a monitor by, unless its number is too long to be
    shown. -/
def Monitor.key (m : Monitor) : Except Numeral.Unshowable Text := Numeral.shown m.index

def Monitor.hasKey (m : Monitor) (key : Text) : Bool := m.key.toOption = some key

structure Window where
  handle : Handle
  objectId : Int
  appId : Option Text
  title : Option Text
  maximized : Bool
  /-- The key of the monitor that the window is on. -/
  monitorKey : Option Text
  unmaximizeCalls : Nat
  /-- Where the window was moved, the latest last. -/
  moves : List Geometry
deriving Repr, DecidableEq

/-- What history knows a window by. -/
structure WindowIdentity where
  windowId : Int
  windowClass : Text
  title : Text
deriving Repr, DecidableEq

namespace Window

/-- A window's identity; what is absent counts as empty. -/
def identity (w : Window) : WindowIdentity := ⟨w.objectId, w.appId.getD [], w.title.getD []⟩

def unmaximize (w : Window) : Window :=
  { w with maximized := false, unmaximizeCalls := w.unmaximizeCalls + 1 }

def move (w : Window) (g : Geometry) : Window := { w with moves := w.moves ++ [g] }

end Window

/-- What a window can be told to do. -/
inductive WindowCall where
  | unmaximize
  | move (g : Geometry)
deriving Repr, DecidableEq

namespace Window

def obey (w : Window) : WindowCall → Window
  | .unmaximize => w.unmaximize
  | .move g => w.move g

/-- A window that was told several things, one after the other. -/
def obeyAll (w : Window) (calls : List WindowCall) : Window := calls.foldl obey w

end Window

/-- Who finds monitors: by key, or for a window. -/
structure MonitorProvider where
  withKey? : Text → Option Monitor
  of? : Window → Option Monitor

namespace MonitorProvider

/-- Find the first of some monitors with a key; a window is on the monitor whose key it has. -/
def ofList (monitors : List Monitor) : MonitorProvider where
  withKey? key := monitors.find? (·.hasKey key)
  of? w := w.monitorKey.bind fun key => monitors.find? (·.hasKey key)

instance : Coe (List Monitor) MonitorProvider := ⟨ofList⟩

end MonitorProvider

end WindowLayouts
