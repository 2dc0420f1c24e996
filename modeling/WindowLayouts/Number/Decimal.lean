import WindowLayouts.Number.Double
import WindowLayouts.Text.Digit
import WindowLayouts.Text.Blank
import WindowLayouts.Text.Numeral

/- Decimal numbers as doubles. A decimal is a row of digits with a power of ten; it stands for the
   nearest double. Powers so large or so small that the answer is certain are settled from the
   length of the digits, without computing the power. -/
namespace WindowLayouts.Decimal

/-- The double nearest to `digits` times ten to the power `exponent`. Ten is more than two to the
    third, so past 2^1100 the result is infinite and below 2^-1100 it is zero. -/
def toDouble (negative : Bool) (digits : Nat) (exponent : Int) : Double :=
  if digits = 0 then Double.zero negative
  else match exponent with
    | .ofNat e =>
      if 1100 < Nat.log2 digits + 3 * e then .infinite negative
      else Double.ofRatio negative (digits * Nat.pow 10 e) 1
    | .negSucc e =>
      if Nat.log2 digits + 1101 < 3 * (e + 1) then Double.zero negative
      else Double.ofRatio negative digits (Nat.pow 10 (e + 1))

/-- The double nearest to the decimal with these digits before and after the point. -/
def ofParts (whole fraction : Text) : Double :=
  toDouble false (Numeral.valueByHalves (whole ++ fraction)) (-(fraction.length : Int))

/-! ## Unsigned numbers of an expression -/

/-- The digits before and after the point of a number: ASCII digits, then perhaps a point and
    ASCII digits. -/
def parts? (t : Text) : Option (Text × Text) :=
  match t.span CodePoint.isDigit with
  | ([], _) => none
  | (whole, []) => some (whole, [])
  | (whole, c :: fraction) =>
    if c = CodePoint.ofChar '.' && Numeral.isDigits fraction then some (whole, fraction) else none

/-- The double that a number of an expression stands for. -/
def number? (t : Text) : Option Double :=
  (parts? t).map fun (whole, fraction) => ofParts whole fraction

/-! ## Free text

A number given as an argument may have blanks around it, a sign, digits of any script, underscores
between digits, a point, an exponent, and may be infinite or no number. -/

/-- The blanks that may surround a number: all but the information separators of ASCII. -/
def isOuterBlank (c : CodePoint) : Bool := c.isBlank && !(0x1C ≤ c.val && c.val ≤ 0x1F)

/-- ASCII letters in lower case, digits of any script as ASCII digits, all else as it is. -/
def normalPoint (c : CodePoint) : CodePoint :=
  match c.asciiDigit? with
  | some d => d
  | none =>
    if h : 0x41 ≤ c.val ∧ c.val ≤ 0x5A then ⟨c.val + 0x20, by omega⟩ else c

/-- A text without the underscores that stand between two digits; none if there are others. -/
def dropUnderscores? : Text → Option Text
  | [] => some []
  | c :: rest =>
    if c = CodePoint.ofChar '_' then none
    else match rest with
      | u :: d :: rest' =>
        if u = CodePoint.ofChar '_' then
          if c.isDigit && d.isDigit then (dropUnderscores? (d :: rest')).map (c :: ·) else none
        else (dropUnderscores? (u :: d :: rest')).map (c :: ·)
      | short => (dropUnderscores? short).map (c :: ·)

def splitSign (t : Text) : Bool × Text :=
  match t with
  | c :: rest =>
    if c = CodePoint.ofChar '-' then (true, rest)
    else if c = CodePoint.ofChar '+' then (false, rest)
    else (false, t)
  | [] => (false, [])

/-- The exponent after its letter; none if the text is no exponent. -/
def exponent? (t : Text) : Option Int :=
  match t with
  | [] => some 0
  | c :: rest =>
    if c = CodePoint.ofChar 'e' then
      let (negative, digits) := splitSign rest
      if Numeral.isDigits digits then
        let n : Int := Numeral.valueByHalves digits
        some (if negative then -n else n)
      else none
    else none

/-- Digits with a point and an exponent, all but one digit optional. -/
def unsigned? (negative : Bool) (t : Text) : Option Double :=
  let (whole, rest) := t.span CodePoint.isDigit
  let (fraction, rest) := match rest with
    | c :: after => if c = CodePoint.ofChar '.' then after.span CodePoint.isDigit else ([], rest)
    | [] => ([], [])
  if whole.isEmpty && fraction.isEmpty then none
  else do
    let exponent ← exponent? rest
    some (toDouble negative (Numeral.valueByHalves (whole ++ fraction))
      (exponent - fraction.length))

/-- The double that an argument stands for, if it is a number. -/
def ofText? (t : Text) : Option Double := do
  let inner := dropTailWhile isOuterBlank (t.dropWhile isOuterBlank)
  let plain ← dropUnderscores? (inner.map normalPoint)
  let (negative, rest) := splitSign plain
  if rest = text "inf" || rest = text "infinity" then some (.infinite negative)
  else if rest = text "nan" then some .nan
  else unsigned? negative rest

end WindowLayouts.Decimal
