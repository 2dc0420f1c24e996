import WindowLayouts.Keyed
import WindowLayouts.Layout.Basic

/- The layouts that are known, by monitor. Groups are kept under the key of a monitor, in the order
   in which the keys were first given; giving a key again replaces its groups and keeps its place.
   The catalog finds the first layout with an id and lists the ids that it can find. -/
namespace WindowLayouts

/-- The ids of all layouts of some groups, in order. -/
def layoutIds (groups : List LayoutGroup) : List Text :=
  groups.flatMap fun g => g.layouts.map (·.id)

/-- Distinct texts in order of code points. -/
def sortDistinct (ts : List Text) : List Text := ts.eraseDups.mergeSort Text.le

structure Catalog where
  byMonitor : List (Text × List LayoutGroup)
deriving Repr, DecidableEq

namespace Catalog

def empty : Catalog := ⟨[]⟩

def setGroups (c : Catalog) (monitorKey : Text) (groups : List LayoutGroup) : Catalog :=
  ⟨Keyed.set monitorKey groups c.byMonitor⟩

/-- The catalog of a list of monitors; of equal keys the last has the say. -/
def ofList (monitors : List (Text × List LayoutGroup)) : Catalog :=
  monitors.foldl (fun c (key, groups) => c.setGroups key groups) empty

def groups (c : Catalog) : List LayoutGroup := c.byMonitor.flatMap (·.2)

def ids (c : Catalog) : List Text := (layoutIds c.groups).eraseDups

def find? (c : Catalog) (id : Text) : Option Layout :=
  (c.groups.flatMap (·.layouts)).find? fun l => l.id = id

end Catalog

end WindowLayouts
