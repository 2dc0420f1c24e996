import WindowLayouts.Text.Numeral
import WindowLayouts.Text.Quoted

/- UTF-8. Encoding fails exactly on texts with surrogates and then names their first run; decoding
   is strict: it refuses bytes that no text encodes to, overlong forms and encoded surrogates
   among them. -/
namespace WindowLayouts.Utf8

/-- A run of surrogates in a text: its first code point, where it starts and how long it is. -/
structure SurrogateRun where
  first : CodePoint
  start : Nat
  length : Nat
deriving Repr, DecidableEq

/-- The first run of surrogates that begins with a code point of some kind, if there is any. -/
def runFrom? (begins : CodePoint → Bool) (t : Text) : Option SurrogateRun :=
  match t.dropWhile (!begins ·) with
  | [] => none
  | c :: rest =>
    some ⟨c, (t.takeWhile (!begins ·)).length, (rest.takeWhile (·.isSurrogate)).length + 1⟩

def surrogateRun? (t : Text) : Option SurrogateRun := runFrom? CodePoint.isSurrogate t

/-- The surrogates of a text that cannot be encoded, as a message names them. -/
def SurrogateRun.message (run : SurrogateRun) : Text :=
  text "'utf-8' codec can't encode " ++
  (if run.length = 1 then
    text "character '" ++ hexEscape run.first.val ++ text "' in position " ++
      Numeral.ofNat run.start
  else
    text "characters in position " ++ Numeral.ofNat run.start ++ text "-" ++
      Numeral.ofNat (run.start + run.length - 1)) ++
  text ": surrogates not allowed"

def encodePoint (c : CodePoint) : Bytes :=
  let n := c.val
  if n < 0x80 then [UInt8.ofNat n]
  else if n < 0x800 then [UInt8.ofNat (0xC0 + n / 0x40), UInt8.ofNat (0x80 + n % 0x40)]
  else if n < 0x10000 then
    [UInt8.ofNat (0xE0 + n / 0x1000), UInt8.ofNat (0x80 + n / 0x40 % 0x40),
     UInt8.ofNat (0x80 + n % 0x40)]
  else
    [UInt8.ofNat (0xF0 + n / 0x40000), UInt8.ofNat (0x80 + n / 0x1000 % 0x40),
     UInt8.ofNat (0x80 + n / 0x40 % 0x40), UInt8.ofNat (0x80 + n % 0x40)]

/-- The bytes of a text without surrogates. -/
def encode (t : Text) : Except SurrogateRun Bytes :=
  match surrogateRun? t with
  | some run => .error run
  | none => .ok (t.flatMap encodePoint)

/-- A byte that may follow the first one of a code point. -/
def isContinuation (b : UInt8) : Bool := 0x80 ≤ b.toNat && b.toNat ≤ 0xBF

/-- The code point with a number, if there is one and it is no surrogate. -/
def scalar? (n : Nat) : Option CodePoint :=
  if h : n < 0x110000 then
    if 0xD800 ≤ n && n ≤ 0xDFFF then none else some ⟨n, h⟩
  else none

/-- The code point of a first byte below 0xE0 and one more byte. -/
def fromTwo? (a b : UInt8) : Option CodePoint :=
  if isContinuation b then scalar? ((a.toNat - 0xC0) * 0x40 + (b.toNat - 0x80)) else none

/-- The code point of a first byte below 0xF0 and two more bytes. -/
def fromThree? (a b c : UInt8) : Option CodePoint :=
  let value := (a.toNat - 0xE0) * 0x1000 + (b.toNat - 0x80) * 0x40 + (c.toNat - 0x80)
  if isContinuation b && isContinuation c && 0x800 ≤ value then scalar? value else none

/-- The code point of a first byte below 0xF5 and three more bytes. -/
def fromFour? (a b c d : UInt8) : Option CodePoint :=
  let value := (a.toNat - 0xF0) * 0x40000 + (b.toNat - 0x80) * 0x1000 + (c.toNat - 0x80) * 0x40 +
    (d.toNat - 0x80)
  if isContinuation b && isContinuation c && isContinuation d && 0x10000 ≤ value then scalar? value
  else none

/-- Strict decoding after some code points, the latest first. -/
def decodeFrom (done : Text) : Bytes → Option Text
  | [] => some done.reverse
  | a :: rest =>
    if a.toNat < 0x80 then (scalar? a.toNat).bind fun p => decodeFrom (p :: done) rest
    else if a.toNat < 0xC2 then none
    else if a.toNat < 0xE0 then
      match rest with
      | b :: rest => (fromTwo? a b).bind fun p => decodeFrom (p :: done) rest
      | _ => none
    else if a.toNat < 0xF0 then
      match rest with
      | b :: c :: rest => (fromThree? a b c).bind fun p => decodeFrom (p :: done) rest
      | _ => none
    else if a.toNat < 0xF5 then
      match rest with
      | b :: c :: d :: rest => (fromFour? a b c d).bind fun p => decodeFrom (p :: done) rest
      | _ => none
    else none

def decode? (bytes : Bytes) : Option Text := decodeFrom [] bytes

end WindowLayouts.Utf8
