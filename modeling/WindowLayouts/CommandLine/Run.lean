import WindowLayouts.CommandLine.Arguments
import WindowLayouts.History.Loading
import WindowLayouts.History.Lookup
import WindowLayouts.Settings

/- Running a command. A run takes the environment, the arguments and the files, and gives an exit
   code, what is written, and the files. Records are written to the error stream as they come, from
   the least rank on; the other texts of a command are written between them in order.

   The arguments and the environment alone decide which command runs under which settings, before
   any file is looked at.

     `prepare`    the command and its settings
     `run`        what the command does to the files -/
namespace WindowLayouts.CommandLine

/-- Why a run ends without an exit code of its own. -/
inductive Failure where
  | arguments (reason : Refusal)
  | level (reason : ReservedName)
  | settings (reason : SettingsError)
  | expression (reason : Expr.ResolveError)
  | files (reason : FileFailure)
  | report (reason : Numeral.Unshowable)
deriving Repr, DecidableEq

def usage : Text :=
  text "usage: snapspace [--log-level LEVEL] [--history FILE] eval EXPRESSION SIZE | " ++
    text "check EXPRESSION... | suggest --wm-class CLASS [--title TITLE] [--all] | compact"

/-- What is said about such an end. -/
def Failure.message : Failure → Text
  | .arguments _ => usage
  | .level reason => reason.message
  | .settings reason => reason.message
  | .expression reason => reason.message
  | .files reason => reason.message
  | .report reason => reason.message

/-- A command that ran to its end. -/
structure Finished where
  code : Nat
  output : Text
  errors : Text
  files : FileTree

abbrev Ending := Except Failure Finished

def asLine (t : Text) : Text := t ++ text "\n"

/-- The lines of the records that are shown. -/
def shownLines (least : Nat) (t : Trace) : Text :=
  (t.records.filter (·.isShown least)).flatMap Record.line

def runEval [StackRoom] (files : FileTree) (expression : Text) (size : Size) : Ending :=
  match Expr.resolve (some expression) size with
  | .ok value => .ok ⟨0, asLine (Numeral.ofInt value), [], files⟩
  | .error (.parse (.malformed fault)) =>
    .ok ⟨1, [], asLine (text "error: " ++ fault.message), files⟩
  | .error reason => .error (.expression reason)

/-- The verdict on one expression, and whether it is good. -/
def verdict (expression : Text) : Except Failure (Text × Bool) :=
  match Expr.parse expression with
  | .ok _ => .ok (asLine (expression.quoted ++ text ": ok"), true)
  | .error (.malformed fault) =>
    .ok (asLine (expression.quoted ++ text ": " ++ fault.category.label), false)
  | .error reason => .error (.expression (.parse reason))

def runCheck (files : FileTree) (expressions : List Text) : Ending :=
  match expressions.mapM verdict with
  | .ok verdicts =>
    .ok ⟨if verdicts.all (·.2) then 0 else 1, verdicts.flatMap (·.1), [], files⟩
  | .error reason => .error reason

/-- The store that settings describe; it always has a bus. -/
def openStore (settings : Settings) : Store :=
  Store.new settings.historyPath settings.threshold settings.limit true

/-- What is heard of an operation under some settings. -/
def heard (settings : Settings) (least : Nat) (t : Trace) : Text :=
  shownLines least (t.observedIf settings.debug)

/-- The id of a window that no session knows. -/
def noWindow : Int := -1

/-- Tell the layout remembered for a class and title, or all layouts ranked for the class. -/
def runSuggest [StackRoom] (settings : Settings) (least : Nat) (files : FileTree)
    (windowClass title : Text) (all : Bool) : Ending := do
  let loaded := (openStore settings).load files .all
  loaded.result.mapError .files
  let heardLoading := heard settings least loaded.trace
  if all then
    let ids := loaded.store.recent windowClass
    .ok ⟨if ids.isEmpty then 1 else 0, ids.flatMap asLine,
      heardLoading ++ heard settings least (Store.recentTrace windowClass), loaded.files⟩
  else
    let (found, said) := loaded.store.lookup noWindow windowClass title
    let errors := heardLoading ++ heard settings least said
    match found with
    | .error reason => .error (.report reason)
    | .ok none => .ok ⟨1, [], errors, loaded.files⟩
    | .ok (some id) => .ok ⟨0, asLine id, errors, loaded.files⟩

/-- Compact the log, if there is one. -/
def runCompact [StackRoom] (settings : Settings) (least : Nat) (files : FileTree) : Ending := do
  let path := settings.historyPath
  if !(← (files.holds path).mapError .files) then
    .ok ⟨0, asLine (text "No history at " ++ path.toText), [], files⟩
  else
    let loaded := (openStore settings).load files .all
    loaded.result.mapError .files
    let before := loaded.store.events.length
    let compacted := loaded.store.compact loaded.files
    let errors := heard settings least (loaded.trace ++ compacted.trace)
    if compacted.result then
      let after := compacted.store.events.length
      .ok ⟨0,
        asLine (text "Compacted " ++ path.toText ++ text ": " ++ Numeral.ofNat before ++
          text " -> " ++ Numeral.ofNat after ++ text " events"),
        errors, compacted.files⟩
    else .ok ⟨1, [], errors ++ asLine (text "Compaction failed"), compacted.files⟩

def runCommand [StackRoom] (settings : Settings) (least : Nat) (files : FileTree) : Command → Ending
  | .eval expression size => runEval files expression size
  | .check expressions => runCheck files expressions
  | .suggest windowClass title all => runSuggest settings least files windowClass title all
  | .compact => runCompact settings least files

/-- The name of the least level: an option, else from the environment, else warnings. -/
def levelNameOf (env : Environment) (given : Option Text) : Text :=
  given.getD ((env.get? "SNAPSPACE_LOG_LEVEL").getD (text "WARNING"))

/-- A command with what it runs under: the settings, and the least rank that is shown. -/
structure Prepared where
  settings : Settings
  least : Nat
  command : Command

/-- Read the arguments and find the settings. An empty path to the log counts as none. -/
def prepare (env : Environment) (arguments : List Text) : Except Failure Prepared := do
  let invocation ← (parseAll arguments).mapError .arguments
  let given : Overrides := { Overrides.none with
    historyPath := invocation.history.filter fun t => !t.isEmpty
    levelName := some (levelNameOf env invocation.levelName) }
  let settings ← (Settings.make env given).mapError .settings
  let least ← (leastRank (some settings.levelName)).mapError .level
  return ⟨settings, least, invocation.command⟩

def Prepared.run [StackRoom] (p : Prepared) (files : FileTree) : Ending :=
  runCommand p.settings p.least files p.command

def run [StackRoom] (env : Environment) (arguments : List Text) (files : FileTree) : Ending := do
  let p ← prepare env arguments
  p.run files

end WindowLayouts.CommandLine
