import WindowLayouts.Json.Value
import WindowLayouts.Text.Hex

/- Reading JSON. One machine takes a text code point by code point, so that reading is a fold and
   reading a text in two parts is reading it at once. The machine has a scanner, which collects
   strings and scalars, and a phase with a stack of open arrays and objects, which says what may
   come next. The first error is kept: nothing after it counts. One error is no fault of the text:
   an array or an object is not opened inside too many others.

     `Machine.run_append`   reading in two parts is reading at once
     `read`                 the value of a whole text -/
namespace WindowLayouts.Json

/-! ## Phases -/

/-- An open array or object that waits for a value inside it. What it holds so far is kept with
    the latest first. -/
inductive Frame where
  | array (items : List Value)
  | object (members : List (Text × Value)) (key : Text)

/-- What may come next. -/
inductive Phase where
  /-- A value. -/
  | value
  /-- The first value of an array, or its end. -/
  | firstItem
  /-- The first key of an object, or its end. -/
  | firstKey
  /-- A key. -/
  | key (members : List (Text × Value))
  /-- A colon. -/
  | colon (members : List (Text × Value)) (key : Text)
  /-- A comma or the end of an array. -/
  | afterItem (items : List Value)
  /-- A comma or the end of an object. -/
  | afterMember (members : List (Text × Value))
  /-- Nothing: the text's value is complete. -/
  | done (v : Value)
  | failed (reason : ReadError)

inductive Mark where
  | openObject
  | closeObject
  | openArray
  | closeArray
  | comma
  | colon
deriving Repr, DecidableEq

def Mark.ofPoint? (c : CodePoint) : Option Mark :=
  match c.val with
  | 0x7B => some .openObject
  | 0x7D => some .closeObject
  | 0x5B => some .openArray
  | 0x5D => some .closeArray
  | 0x2C => some .comma
  | 0x3A => some .colon
  | _ => none

/-- A phase with the arrays and objects that are open around it, the innermost first. -/
structure Place where
  phase : Phase
  stack : List Frame

namespace Place

/-- Nothing but an error follows an error. -/
def fail (reason : ReadError) : Place := ⟨.failed reason, []⟩

/-- A complete value goes into the innermost open array or object. -/
def complete (v : Value) : List Frame → Place
  | [] => ⟨.done v, []⟩
  | .array items :: stack => ⟨.afterItem (v :: items), stack⟩
  | .object members key :: stack => ⟨.afterMember ((key, v) :: members), stack⟩

def scalar (p : Place) (v : Value) : Place :=
  match p.phase with
  | .value => complete v p.stack
  | .firstItem => complete v (.array [] :: p.stack)
  | .failed reason => fail reason
  | _ => fail .malformed

def string (p : Place) (t : Text) : Place :=
  match p.phase with
  | .firstKey => ⟨.colon [] t, p.stack⟩
  | .key members => ⟨.colon members t, p.stack⟩
  | _ => p.scalar (.string t)

/-- A scalar without quotes, read only where a value may come. -/
def bare (p : Place) (t : Text) : Place :=
  match p.phase with
  | .value | .firstItem =>
    match readScalar t with
    | .ok v => p.scalar v
    | .error reason => fail reason
  | .failed reason => fail reason
  | _ => fail .malformed

/-- Inside a container that opens, if there is room for it inside those around it. -/
def inside [StackRoom] (container : Container) (around : List Frame) : Place :=
  if around.length ≤ StackRoom.containers then
    match container with
    | .array => ⟨.firstItem, around⟩
    | .object => ⟨.firstKey, around⟩
  else fail (.tooDeep container)

def mark [StackRoom] (p : Place) (m : Mark) : Place :=
  match p.phase, m with
  | .failed reason, _ => fail reason
  | .value, .openObject => inside .object p.stack
  | .value, .openArray => inside .array p.stack
  | .firstItem, .openObject => inside .object (.array [] :: p.stack)
  | .firstItem, .openArray => inside .array (.array [] :: p.stack)
  | .firstItem, .closeArray => complete (.array []) p.stack
  | .firstKey, .closeObject => complete (.object []) p.stack
  | .colon members key, .colon => ⟨.value, .object members key :: p.stack⟩
  | .afterItem items, .comma => ⟨.value, .array items :: p.stack⟩
  | .afterItem items, .closeArray => complete (.array items.reverse) p.stack
  | .afterMember members, .comma => ⟨.key members, p.stack⟩
  | .afterMember members, .closeObject => complete (.object members.reverse) p.stack
  | _, _ => fail .malformed

end Place

/-! ## Scanning -/

/-- A code point of a string, with whether it was written as a number: only two surrogates that
    both were make a pair. -/
structure Piece where
  point : CodePoint
  numbered : Bool
deriving Repr, DecidableEq

/-- The text of a string: a high and a low surrogate written as numbers are joined. -/
def joinPieces : List Piece → Text
  | high :: low :: rest =>
    if high.numbered && low.numbered && high.point.isHighSurrogate && low.point.isLowSurrogate then
      CodePoint.joinPair high.point low.point :: joinPieces rest
    else high.point :: joinPieces (low :: rest)
  | short => short.map (·.point)

/-- What is being collected, the latest first. -/
inductive Scanner where
  | between
  | bare (points : Text)
  | string (pieces : List Piece)
  | escape (pieces : List Piece)
  /-- The digits of a numbered code point: how many are still to come, and their value. -/
  | numbered (pieces : List Piece) (left : Nat) (value : Nat)

def isSpace (c : CodePoint) : Bool := c.val == 0x20 || c.val == 9 || c.val == 10 || c.val == 13

def escaped? (c : CodePoint) : Option CodePoint :=
  match c.val with
  | 0x22 => some 0x22
  | 0x5C => some 0x5C
  | 0x2F => some 0x2F
  | 0x62 => some 0x08
  | 0x66 => some 0x0C
  | 0x6E => some 0x0A
  | 0x72 => some 0x0D
  | 0x74 => some 0x09
  | _ => none

structure Machine where
  scanner : Scanner
  place : Place

namespace Machine

def start : Machine := ⟨.between, ⟨.value, []⟩⟩

def malformed (p : Place) : Machine :=
  match p.phase with
  | .failed reason => ⟨.between, .fail reason⟩
  | _ => ⟨.between, .fail .malformed⟩

/-- A code point that is in no string and no scalar. -/
def stepBetween [StackRoom] (p : Place) (c : CodePoint) : Machine :=
  if isSpace c then ⟨.between, p⟩
  else if c.val = 0x22 then ⟨.string [], p⟩
  else match Mark.ofPoint? c with
    | some m => ⟨.between, p.mark m⟩
    | none => ⟨.bare [c], p⟩

/-- Whether a code point ends a scalar without quotes. -/
def endsBare (c : CodePoint) : Bool := isSpace c || c.val == 0x22 || (Mark.ofPoint? c).isSome

def step [StackRoom] (m : Machine) (c : CodePoint) : Machine :=
  match m.scanner with
  | .between => stepBetween m.place c
  | .bare points =>
    if endsBare c then stepBetween (m.place.bare points.reverse) c
    else ⟨.bare (c :: points), m.place⟩
  | .string pieces =>
    if c.val = 0x22 then ⟨.between, m.place.string (joinPieces pieces.reverse)⟩
    else if c.val = 0x5C then ⟨.escape pieces, m.place⟩
    else if c.val < 0x20 then malformed m.place
    else ⟨.string (⟨c, false⟩ :: pieces), m.place⟩
  | .escape pieces =>
    if c.val = 0x75 then ⟨.numbered pieces 4 0, m.place⟩
    else match escaped? c with
      | some e => ⟨.string (⟨e, false⟩ :: pieces), m.place⟩
      | none => malformed m.place
  | .numbered pieces left value =>
    match c.hexValue? with
    | none => malformed m.place
    | some d =>
      let value := 16 * value + d
      if 1 < left then ⟨.numbered pieces (left - 1) value, m.place⟩
      else ⟨.string (⟨Fin.ofNat _ value, true⟩ :: pieces), m.place⟩

def run [StackRoom] (m : Machine) (t : Text) : Machine := t.foldl step m

theorem run_append [StackRoom] (m : Machine) (s t : Text) : m.run (s ++ t) = (m.run s).run t :=
  List.foldl_append

/-- The place where the text ends. -/
def finish (m : Machine) : Place :=
  match m.scanner with
  | .between => m.place
  | .bare points => m.place.bare points.reverse
  | _ => (malformed m.place).place

end Machine

def read [StackRoom] (t : Text) : Except ReadError Value :=
  match (Machine.start.run t).finish.phase with
  | .done v => .ok v
  | .failed reason => .error reason
  | _ => .error .malformed

end WindowLayouts.Json
