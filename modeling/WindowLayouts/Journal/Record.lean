import WindowLayouts.Journal.Level

/- Records: one line of what the library reports, with a level and the part that reports it. -/
namespace WindowLayouts

inductive Reporter where
  | store
  | events
  | applicator
  | bus
deriving Repr, DecidableEq

def Reporter.label : Reporter → Text
  | .store => text "snapspace.history.store"
  | .events => text "snapspace.history.events"
  | .applicator => text "snapspace.layout_applicator"
  | .bus => text "snapspace.bus"

structure Record where
  level : Level
  reporter : Reporter
  content : Text
deriving Repr, DecidableEq

/-- The name that a part without a name is shown under. -/
def rootReporter : Text := text "root"

def recordLine (name content : Text) : Text :=
  text "[" ++ (if name.isEmpty then rootReporter else name) ++ text "] " ++ content ++ text "\n"

def Record.line (r : Record) : Text := recordLine r.reporter.label r.content

/-- A record is shown from a least rank on. -/
def Record.isShown (least : Nat) (r : Record) : Bool := least ≤ r.level.rank

end WindowLayouts
