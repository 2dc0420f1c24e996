import WindowLayouts.Number.Decimal
import WindowLayouts.StackRoom

/- JSON values as a log line may hold them, and the scalars that are written without quotes.

   Beside the numbers of the standard there are `NaN`, `Infinity` and `-Infinity`. A number with a
   point or an exponent is a double, any other number a whole one. -/
namespace WindowLayouts.Json

/-- A JSON value. Objects keep their members in the order of the text. -/
inductive Value where
  | null
  | bool (b : Bool)
  | integer (i : Int)
  | double (x : Double)
  | string (t : Text)
  | array (items : List Value)
  | object (members : List (Text × Value))

/-- What may hold other values. -/
inductive Container where
  | array
  | object
deriving Repr, DecidableEq

/-- What is said where an array or an object stands inside too many others. -/
def Container.tooDeepMessage : Container → Text
  | .array => stackMessage " while decoding a JSON array from a unicode string"
  | .object => stackMessage " while decoding a JSON object from a unicode string"

inductive ReadError where
  | malformed
  | numeralTooLong (reason : Numeral.TooLong)
  /-- An array or an object inside too many others. -/
  | tooDeep (container : Container)
deriving Repr, DecidableEq

/-! ## Scalars without quotes -/

/-- The digits of a whole number in front of a text: a single zero, or digits that do not begin with
    zero. -/
def splitWhole (t : Text) : Text × Text :=
  match t with
  | [] => ([], [])
  | c :: rest => if c = CodePoint.ofChar '0' then ([c], rest) else t.span CodePoint.isDigit

/-- A point and digits in front of a text: the digits, and what follows them. -/
def splitFraction (t : Text) : Text × Text :=
  match t with
  | [] => ([], [])
  | c :: rest =>
    if c = CodePoint.ofChar '.' then
      match rest.span CodePoint.isDigit with
      | ([], _) => ([], t)
      | split => split
    else ([], t)

/-- An exponent in front of a text: its value, and what follows it. -/
def splitExponent (t : Text) : Option Int × Text :=
  match t with
  | [] => (none, [])
  | c :: rest =>
    if c = CodePoint.ofChar 'e' || c = CodePoint.ofChar 'E' then
      let (negative, rest) := Decimal.splitSign rest
      match rest.span CodePoint.isDigit with
      | ([], _) => (none, t)
      | (digits, after) =>
        let n : Int := Numeral.valueByHalves digits
        (some (if negative then -n else n), after)
    else (none, t)

/-- The integer that a row of digits stands for. -/
def readInteger (negative : Bool) (digits : Text) : Except ReadError Int :=
  match Numeral.read digits with
  | .ok n => .ok (if negative then -(n : Int) else n)
  | .error reason => .error (.numeralTooLong reason)

/-- A number. Where more follows than belongs to it the whole is malformed, but a whole number is
    read first and may be found too long. -/
def readNumber (t : Text) : Except ReadError Value :=
  let (negative, unsigned) := match t with
    | c :: rest => if c = CodePoint.ofChar '-' then (true, rest) else (false, t)
    | [] => (false, t)
  match splitWhole unsigned with
  | ([], _) => .error .malformed
  | (whole, rest) =>
    let (fraction, rest) := splitFraction rest
    let (exponent, rest) := splitExponent rest
    if fraction.isEmpty && exponent.isNone then do
      let i ← readInteger negative whole
      if rest.isEmpty then .ok (.integer i) else .error .malformed
    else if rest.isEmpty then
      .ok (.double (Decimal.toDouble negative (Numeral.valueByHalves (whole ++ fraction))
        (exponent.getD 0 - fraction.length)))
    else .error .malformed

/-- A scalar without quotes: one of six words, or a number. -/
def readScalar (t : Text) : Except ReadError Value :=
  if t = text "null" then .ok .null
  else if t = text "true" then .ok (.bool true)
  else if t = text "false" then .ok (.bool false)
  else if t = text "NaN" then .ok (.double .nan)
  else if t = text "Infinity" then .ok (.double (.infinite false))
  else if t = text "-Infinity" then .ok (.double (.infinite true))
  else readNumber t

end WindowLayouts.Json
