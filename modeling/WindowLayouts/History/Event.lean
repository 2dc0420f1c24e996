import WindowLayouts.Digest.Sha256
import WindowLayouts.Journal.Trace
import WindowLayouts.Json.Quoted
import WindowLayouts.Json.Reader
import WindowLayouts.Text.Utf8

/- Events: one durable fact each, that a window of some class and title chose a layout at some time.
   Class and title are kept as hashes. An event is written as one line of JSON and read back from
   any JSON object with the four members, whatever else it holds.

     `hashText`        the hash of a class or a title
     `Event.line`      the line of an event
     `Event.ofText`    the event of a line, nothing where the line holds something else -/
namespace WindowLayouts

/-! ## Hashes -/

/-- How many hexadecimal digits of a digest make a hash. -/
def hashLength : Nat := 16

/-- The hash of all texts that have no UTF-8 form. -/
def fallbackHash : Text := List.replicate hashLength '0'

/-- The record that a text could not be hashed. -/
def hashingFailed (run : Utf8.SurrogateRun) : Record :=
  ⟨.warning, .events, text "[LayoutHistory] Hashing failed, using fallback: " ++ run.message⟩

/-- The hash of a text: the first digits of the digest of its UTF-8 form. -/
def hashText (t : Text) : Text :=
  match Utf8.encode t with
  | .ok bytes => (Sha256.hex bytes).take hashLength
  | .error _ => fallbackHash

def hashTrace (t : Text) : Trace :=
  match Utf8.encode t with
  | .ok _ => []
  | .error run => [.record (hashingFailed run)]

@[simp] theorem Trace.messages_hashTrace (t : Text) : (hashTrace t).messages = [] := by
  unfold hashTrace
  split <;> rfl

/-! ## Events -/

structure Event where
  time : Int
  classHash : Text
  titleHash : Text
  layoutId : Text
deriving Repr, DecidableEq

def titleKey (classHash titleHash : Text) : Text := classHash ++ text ":" ++ titleHash

namespace Event

def titleKey (e : Event) : Text := WindowLayouts.titleKey e.classHash e.titleHash

/-- The JSON object of an event. -/
def body (e : Event) : Text :=
  text "\x7b\"ts\": " ++ Numeral.ofInt e.time ++
  text ", \"wmClassHash\": " ++ Json.quote e.classHash ++
  text ", \"titleHash\": " ++ Json.quote e.titleHash ++
  text ", \"layoutId\": " ++ Json.quote e.layoutId ++ text "\x7d"

/-- The line of an event, with the newline that ends it. -/
def line (e : Event) : Text := e.body ++ text "\n"

/-- Why a line is neither an event nor something else. -/
inductive ReadError where
  | notJson
  | numeralTooLong (reason : Numeral.TooLong)
  | tooDeep (container : Json.Container)
  | timeTooLarge
deriving Repr, DecidableEq

/-- The time that a value stands for, in whole milliseconds: a fraction is cut off. A whole number
    must not be too large for a double, though it is kept exactly. -/
def time? : Json.Value → Except ReadError (Option Int)
  | .integer i => if (Double.ofInt i).isFinite then .ok (some i) else .error .timeTooLarge
  | .double x => .ok x.truncate.toOption
  | _ => .ok none

/-- The text that a value is, if it is one. -/
def text? : Json.Value → Option Text
  | .string t => some t
  | _ => none

/-- The last member of a name; a member that is absent counts as null. -/
def member (name : String) (members : List (Text × Json.Value)) : Json.Value :=
  ((members.reverse.find? fun m => m.1 = text name).map (·.2)).getD .null

/-- The event that a value stands for. The time is judged before the texts. -/
def ofValue : Json.Value → Except ReadError (Option Event)
  | .object members => do
    let time ← time? (member "ts" members)
    return do
      let time ← time
      let classHash ← text? (member "wmClassHash" members)
      let titleHash ← text? (member "titleHash" members)
      let layoutId ← text? (member "layoutId" members)
      some ⟨time, classHash, titleHash, layoutId⟩
  | _ => .ok none

def ofText [StackRoom] (t : Text) : Except ReadError (Option Event) :=
  match Json.read t with
  | .ok v => ofValue v
  | .error .malformed => .error .notJson
  | .error (.numeralTooLong reason) => .error (.numeralTooLong reason)
  | .error (.tooDeep container) => .error (.tooDeep container)

example : line ⟨-5, text "c", text "t", text "l"⟩ =
    text "\x7b\"ts\": -5, \"wmClassHash\": \"c\", \"titleHash\": \"t\", \"layoutId\": \"l\"\x7d\n" := by
  decide +kernel

example : hashText [] = text "e3b0c44298fc1c14" := by decide +kernel

end Event

end WindowLayouts
