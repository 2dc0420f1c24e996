import WindowLayouts.Keyed
import WindowLayouts.Storage.Path
import WindowLayouts.Text.Numeral

/- Settings: where the log is, when it is compacted, how many layouts are ranked, which records are
   shown, and whether every message on the bus is reported. What is not given comes from the
   environment, and what is not there either has a fixed default. A tilde in front of a path must
   stand for a home directory that is known, and the two numbers must be positive. -/
namespace WindowLayouts

abbrev Environment := List (Text × Text)

namespace Environment

def get? (env : Environment) (name : String) : Option Text := Keyed.get? (text name) env

/-- The value of a variable that is set and not empty. -/
def filled? (env : Environment) (name : String) : Option Text :=
  (env.get? name).filter fun t => !t.isEmpty

/-- The home directory; the root where none is known. -/
def home (env : Environment) : Text := (env.get? "HOME").getD []

end Environment

structure Settings where
  historyPath : Path
  threshold : Int
  limit : Int
  levelName : Text
  debug : Bool
deriving Repr, DecidableEq

/-- The settings that are given; the others are found elsewhere. -/
structure Overrides where
  historyPath : Option Text
  threshold : Option Int
  limit : Option Int
  levelName : Option Text
  debug : Option Bool
deriving Repr, DecidableEq

def Overrides.none : Overrides := ⟨.none, .none, .none, .none, .none⟩

inductive SettingsError where
  | home (reason : Path.HomeFault)
  | threshold (n : Int)
  | limit (n : Int)
deriving Repr, DecidableEq

def SettingsError.message : SettingsError → Text
  | .home reason => reason.message
  | .threshold n => text "compaction_threshold must be positive, got " ++ Numeral.ofInt n
  | .limit n => text "max_layouts_per_class must be positive, got " ++ Numeral.ofInt n

namespace Settings

/-- More events than this compact the log when it is loaded. -/
def defaultThreshold : Int := 5000

def defaultLimit : Int := 5

def logName : Text := text "layout-history.jsonl"

/-- The directory for data, from the environment or below the home directory. -/
def dataDirectory (env : Environment) : Except Path.HomeFault Path := do
  let base := match env.filled? "XDG_DATA_HOME" with
    | some t => Path.ofText t
    | none => Path.ofText (text "~/.local/share")
  return (← base.expandHome env.home).child (text "snapspace")

/-- The log, from the environment or in the data directory. -/
def historyPathOf (env : Environment) : Except Path.HomeFault Path :=
  match env.filled? "SNAPSPACE_HISTORY_FILE" with
  | some t => (Path.ofText t).expandHome env.home
  | none => do return (← dataDirectory env).child logName

/-- The log that is given, or else found. A tilde in front of what was given or found is replaced,
    also where a home directory that is the working directory brought one to the front. -/
def historyPathFrom (env : Environment) (given : Option Text) : Except Path.HomeFault Path := do
  let path ← match given with
    | some t => .ok (Path.ofText t)
    | none => historyPathOf env
  path.expandHome env.home

/-- Settings from what is given and the environment. The path is settled before the numbers are
    judged. -/
def make (env : Environment) (given : Overrides) : Except SettingsError Settings := do
  let threshold := given.threshold.getD defaultThreshold
  let limit := given.limit.getD defaultLimit
  let path ← (historyPathFrom env given.historyPath).mapError .home
  if threshold ≤ 0 then .error (.threshold threshold)
  else if limit ≤ 0 then .error (.limit limit)
  else .ok {
    historyPath := path
    threshold := threshold
    limit := limit
    levelName := given.levelName.getD ((env.get? "SNAPSPACE_LOG_LEVEL").getD (text "INFO"))
    debug := given.debug.getD (env.filled? "SNAPSPACE_DEBUG").isSome }

end Settings

end WindowLayouts
