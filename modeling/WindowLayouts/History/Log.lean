import WindowLayouts.History.Event
import WindowLayouts.Text.Blank

/- The event log: a file with one event a line. Each line is read by itself, so a line that holds
   no event costs only itself; but a numeral too long to be read, a time too large, or arrays and
   objects inside too many others end the reading of the whole log. Lines end at newlines only and
   are numbered from one; blank ones are passed over.

     `LineReading.of`    what one line is
     `Log.read`          the events of a log, and the lines that were skipped
     `Log.append`        a log with one more event, on a line of its own -/
namespace WindowLayouts

/-- The bytes of an event's line, which is ASCII. -/
def Event.bytes (e : Event) : Bytes := e.line.map fun c => UInt8.ofNat c.val

def newline : UInt8 := 10

/-- What one line of a log is. -/
inductive LineReading where
  | blank
  | event (e : Event)
  /-- No event; the bytes are shown in a warning. -/
  | invalid (trimmed : Bytes)
  | failed (reason : Event.ReadError)
deriving Repr, DecidableEq

def LineReading.of [StackRoom] (raw : Bytes) : LineReading :=
  let trimmed := raw.trim
  if trimmed.isEmpty then .blank
  else match Utf8.decode? trimmed with
    | none => .invalid trimmed
    | some t =>
      match Event.ofText t with
      | .ok (some e) => .event e
      | .ok none => .invalid trimmed
      | .error .notJson => .invalid trimmed
      | .error reason => .failed reason

namespace Log

def consByte (b : UInt8) (lines : List Bytes) : List Bytes :=
  if b = newline then [] :: lines
  else match lines with
    | [] => [[b]]
    | line :: more => (b :: line) :: more

/-- The lines of a log, without the newlines; what follows the last newline is a line too. -/
def lines (content : Bytes) : List Bytes := content.foldr consByte [[]]

/-- How many bytes of a skipped line are shown. -/
def shownBytes : Nat := 80

def skipped (number : Nat) (trimmed : Bytes) : Record :=
  ⟨.warning, .store,
    text "[LayoutHistory] Skipping invalid line " ++ Numeral.ofNat number ++ text ": " ++
      Bytes.quoted (trimmed.take shownBytes)⟩

/-- Reading some lines: what was reported, and the events unless reading failed. -/
structure Reading where
  trace : Trace
  events : Except Event.ReadError (List Event)

/-- Read lines that are numbered from a number on, up to the first that fails. -/
def readLines [StackRoom] (number : Nat) : List Bytes → Reading
  | [] => ⟨[], .ok []⟩
  | raw :: rest =>
    match LineReading.of raw with
    | .blank => readLines (number + 1) rest
    | .event e =>
      let r := readLines (number + 1) rest
      ⟨r.trace, r.events.map (e :: ·)⟩
    | .invalid trimmed =>
      let r := readLines (number + 1) rest
      ⟨.record (skipped number trimmed) :: r.trace, r.events⟩
    | .failed reason => ⟨[], .error reason⟩

def read [StackRoom] (content : Bytes) : Reading := readLines 1 (lines content)

/-- A log that does not end a line, as after a write that was cut short. -/
def endsMidLine (content : Bytes) : Bool :=
  match content.getLast? with
  | none => false
  | some b => b != newline

/-- What is written for one more event: a broken line is ended first. -/
def appended (content : Bytes) (e : Event) : Bytes :=
  if endsMidLine content then newline :: e.bytes else e.bytes

def append (content : Bytes) (e : Event) : Bytes := content ++ appended content e

def ofEvents (events : List Event) : Bytes := events.flatMap Event.bytes

end Log

end WindowLayouts
