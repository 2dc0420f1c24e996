import WindowLayouts.CommandLine.Run

/- The program. It reads the environment and the log, runs the command on a tree of files that holds
   what lies along the path to the log, and writes the log back if the command changed it. -/
namespace WindowLayouts.Program

def variableNames : List String :=
  ["HOME", "XDG_DATA_HOME", "SNAPSPACE_HISTORY_FILE", "SNAPSPACE_LOG_LEVEL", "SNAPSPACE_DEBUG"]

def readEnvironment : IO Environment :=
  variableNames.filterMapM fun name => do
    let value ← IO.getEnv name
    return value.map fun v => (text name, text v)

/-- A text as a string; surrogates have no character of their own. -/
def asString (t : Text) : String := String.ofList (t.map fun c => Char.ofNat c.val)

/-- The paths that lead to a path, the shortest first, and the path itself. -/
def pathsTo (path : Path) : List Path :=
  (List.range (path.names.length + 1)).map fun n => ⟨path.root, path.names.take n⟩

/-- A tree of files with what is really found along some paths, up to the first that is a file or is
    not there. What can be found but not read counts as a directory. -/
def readAlong (files : FileTree) : List Path → IO FileTree
  | [] => return files
  | path :: rest => do
    match ← (IO.FS.readBinFile (asString path.toText)).toBaseIO with
    | .ok content => return (files.write path content.toList).toOption.getD files
    | .error (.noFileOrDirectory ..) => return files
    | .error _ => readAlong (files.makeDirectories path).1 rest

/-- Replace the log at once, if it changed. -/
def writeBack (path : Path) (before after : FileTree) : IO Unit := do
  match after.read? path with
  | none => return
  | some content =>
    if before.read? path != some content then
      let name := asString path.toText
      IO.FS.writeBinFile (name ++ ".new") (ByteArray.mk content.toArray)
      IO.FS.rename (name ++ ".new") name

def put (stream : IO.FS.Stream) (t : Text) : IO Unit :=
  stream.write (ByteArray.mk (t.flatMap Utf8.encodePoint).toArray)

/-- Say why a run failed, and give the exit code for it. Help that was asked for is no failure. -/
def fail (reason : CommandLine.Failure) : IO UInt32 := do
  let said := CommandLine.asLine reason.message
  match reason with
  | .arguments .help => put (← IO.getStdout) said; return 0
  | .arguments .malformed => put (← IO.getStderr) said; return 2
  | _ => put (← IO.getStderr) said; return 1

end WindowLayouts.Program

open WindowLayouts Program in
def main (arguments : List String) : IO UInt32 := do
  match CommandLine.prepare (← readEnvironment) (arguments.map Text.ofString) with
  | .error reason => fail reason
  | .ok prepared =>
    let path := prepared.settings.historyPath
    let here := Path.ofText (text (toString (← IO.currentDir)))
    let before ← readAlong (FileTree.empty here) (pathsTo path)
    match prepared.run before with
    | .error reason => fail reason
    | .ok finished =>
      writeBack path before finished.files
      put (← IO.getStdout) finished.output
      put (← IO.getStderr) finished.errors
      return UInt32.ofNat finished.code
