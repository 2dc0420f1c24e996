import WindowLayouts.Expr.Parser
import WindowLayouts.StackRoom

/- Evaluation. An expression has a value, as a double, for each size of its container, and is
   rounded to whole pixels once at the end. A whole size enters fractions exactly: the product with
   the numerator is an integer, and only the quotient is rounded to a double. Without a size only
   the terms that need none have a value. A sum waits for the values of its operands, so sums inside
   too many others have none. -/
namespace WindowLayouts

inductive Size where
  | whole (n : Int)
  | real (x : Double)
  /-- No size: an empty list of numbers stands in its place. -/
  | absent
deriving DecidableEq

inductive EvalError where
  | divisionByZero
  | realDivisionByZero
  | quotientTooLarge
  | integerTooLarge
  | notWhole (reason : Double.NotWhole)
  | unknownNode (label : Text)
  /-- A sum or a difference inside too many others. -/
  | tooDeep
  /-- A fraction of no size. -/
  | noSizeToDivide
  /-- A fraction of no size whose numerator is too large to count repetitions with. -/
  | noSizeToRepeat
  /-- A percentage of no size. -/
  | noSizeToScale
  /-- No size where a number is rounded. -/
  | noSizeToRound
deriving Repr, DecidableEq

def EvalError.message : EvalError → Text
  | .divisionByZero => text "division by zero"
  | .realDivisionByZero => text "float division by zero"
  | .quotientTooLarge => text "integer division result too large for a float"
  | .integerTooLarge => text "int too large to convert to float"
  | .notWhole .infinite => text "cannot convert float infinity to integer"
  | .notWhole .nan => text "cannot convert float NaN to integer"
  | .unknownNode label => text "Unknown layout expression node: " ++ label.quoted
  | .tooDeep => stackMessage ""
  | .noSizeToDivide => text "unsupported operand type(s) for /: 'list' and 'int'"
  | .noSizeToRepeat => text "cannot fit 'int' into an index-sized integer"
  | .noSizeToScale => text "can't multiply sequence by non-int of type 'float'"
  | .noSizeToRound => text "bad operand type for abs(): 'list'"

def Double.finiteOr (x : Double) (e : EvalError) : Except EvalError Double :=
  match x with
  | .infinite _ => .error e
  | x => .ok x

namespace Size

/-- A whole number as a double, if it is not too large for one. -/
def toDouble (n : Int) : Except EvalError Double := (Double.ofInt n).finiteOr .integerTooLarge

def asDouble : Size → Except EvalError Double
  | .whole n => toDouble n
  | .real x => .ok x
  | .absent => .error .noSizeToScale

/-- Whether a number can count repetitions: it fits in 64 bits with a sign. -/
def countsRepetitions (n : Int) : Bool := -9223372036854775808 ≤ n && n ≤ 9223372036854775807

/-- The quotient of two whole numbers, rounded once. -/
def quotient (n d : Int) : Except EvalError Double :=
  if d = 0 then .error .divisionByZero
  else (Double.ofRatio (decide (n < 0) != decide (d < 0)) n.natAbs d.natAbs).finiteOr
    .quotientTooLarge

def fraction (size : Size) (numerator denominator : Int) : Except EvalError Double :=
  match size with
  | .whole n => quotient (n * numerator) denominator
  | .real x => do
    let upper ← toDouble numerator
    let lower ← toDouble denominator
    if denominator = 0 then .error .realDivisionByZero
    else .ok ((x.mul upper).div lower)
  | .absent => .error (if countsRepetitions numerator then .noSizeToDivide else .noSizeToRepeat)

end Size

namespace Expr

/-- The value of an expression before rounding, if there is room for as many sums and differences
    around each of its terms. Left operands are evaluated before right ones. -/
def valueWithin (size : Size) (room : Nat) : Expr → Except EvalError Double
  | .zero => .ok (Double.zero false)
  | .fraction n d => size.fraction n d
  | .percentage share => do
    let whole ← size.asDouble
    .ok (whole.mul share)
  | .pixel offset => .ok offset
  | .add left right =>
    match room with
    | 0 => .error .tooDeep
    | room + 1 => do
      let x ← valueWithin size room left
      let y ← valueWithin size room right
      .ok (x.add y)
  | .sub left right =>
    match room with
    | 0 => .error .tooDeep
    | room + 1 => do
      let x ← valueWithin size room left
      let y ← valueWithin size room right
      .ok (x.sub y)
  | .unknown label => .error (.unknownNode label)
termination_by structural e => e

def value [StackRoom] (size : Size) (e : Expr) : Except EvalError Double :=
  e.valueWithin size StackRoom.sums

/-- The value of an expression in whole pixels. -/
def evaluate [StackRoom] (size : Size) (e : Expr) : Except EvalError Int := do
  let x ← e.value size
  x.roundAway.mapError .notWhole

inductive ResolveError where
  | parse (reason : ParseError)
  | eval (reason : EvalError)
deriving Repr, DecidableEq

def ResolveError.message : ResolveError → Text
  | .parse reason => reason.message
  | .eval reason => reason.message

def resolve [StackRoom] (source : Option Text) (size : Size) : Except ResolveError Int := do
  let e ← (parse? source).mapError .parse
  (e.evaluate size).mapError .eval

end Expr

namespace Size

/-- The largest whole number that is not above the magnitude. -/
def floorAbs : Size → Except EvalError Nat
  | .whole n => .ok n.natAbs
  | .real x => x.floorAbs.mapError .notWhole
  | .absent => .error .noSizeToRound

/-- Whether the magnitude is at least a half more than a whole number. -/
def exceedsByHalf (whole : Nat) : Size → Bool
  | .whole n => 1 ≤ 2 * ((n.natAbs : Int) - whole)
  | .real x => (x.abs.sub (Double.ofInt whole)).atLeastHalf
  | .absent => false

def isNegative : Size → Bool
  | .whole n => n < 0
  | .real x => x.isNegative
  | .absent => false

/-- Round a size to the nearest whole one, halves away from zero. Whole sizes take the same steps as
    doubles. -/
def round (size : Size) : Except EvalError Int := do
  let whole ← size.floorAbs
  let up := if size.exceedsByHalf whole then whole + 1 else whole
  return if size.isNegative then -(up : Int) else up

end Size

end WindowLayouts
