/- Double precision numbers, computed exactly. The magnitude of a finite double is a whole number
   of units of 2^-1074, so every sum, product and quotient is an exact fraction of natural numbers
   that is then rounded once, to the nearest double and on a tie to the even one.

     `Double.Fits`          the numbers of units that a double can hold
     `Double.roundUnits`    the rounding, on fractions of units
     `Double.ofRatio`       the double nearest to a fraction
     `Double.roundAway`     the whole number nearest to a double, halves away from zero

   Doubles differ as values here when their signs differ, also at zero; comparing for order or
   equality as numbers is not needed. -/
namespace WindowLayouts

namespace Double

def unitsPerOne : Nat := Nat.pow 2 1074

/-- Magnitudes from this number of units on are infinite. -/
def unitLimit : Nat := Nat.pow 2 2098

/-- Near this many units the doubles lie two to this power units apart: 53 binary digits count. -/
def spacing (units : Nat) : Nat := Nat.log2 units - 52

/-- The numbers of units that a finite double can hold. -/
def Fits (units : Nat) : Prop := units < unitLimit ∧ Nat.pow 2 (spacing units) ∣ units

instance (units : Nat) : Decidable (Fits units) :=
  inferInstanceAs (Decidable (units < unitLimit ∧ Nat.pow 2 (spacing units) ∣ units))

/-- The whole number nearest to a fraction, and the even one of two equally near. -/
def nearestEven (n d : Nat) : Nat :=
  let low := n / d
  let rest := n % d
  if 2 * rest < d then low
  else if d < 2 * rest then low + 1
  else low + low % 2

/-- The multiple of the spacing at a fraction of units that is nearest to the fraction. -/
def roundUnits (n d : Nat) : Nat :=
  let step := Nat.pow 2 (spacing (n / d))
  nearestEven n (d * step) * step

end Double

/-- A double precision number: a sign and a number of units, or infinite, or no number. -/
inductive Double where
  | finite (negative : Bool) (units : Nat) (fits : Double.Fits units)
  | infinite (negative : Bool)
  | nan
deriving DecidableEq

namespace Double

/-- The double nearest to a fraction of units; infinite where the rounded magnitude is too large. -/
def ofUnits (negative : Bool) (n d : Nat) : Double :=
  let units := roundUnits n d
  if h : Fits units then .finite negative units h else .infinite negative

/-- The double nearest to the fraction of two natural numbers, with a sign. -/
def ofRatio (negative : Bool) (n d : Nat) : Double := ofUnits negative (n * unitsPerOne) d

def zero (negative : Bool) : Double := ofUnits negative 0 1

def ofInt (i : Int) : Double := ofRatio (decide (i < 0)) i.natAbs 1

def signed (negative : Bool) (units : Nat) : Int := if negative then -(units : Int) else units

def neg : Double → Double
  | .finite s units h => .finite (!s) units h
  | .infinite s => .infinite (!s)
  | .nan => .nan

def abs : Double → Double
  | .finite _ units h => .finite false units h
  | .infinite _ => .infinite false
  | .nan => .nan

/-- The sum. Two infinities of different signs have none. -/
def add : Double → Double → Double
  | .finite s a _, .finite t b _ =>
    let sum := signed s a + signed t b
    if sum = 0 then zero (s && t) else ofUnits (decide (sum < 0)) sum.natAbs 1
  | .infinite s, .infinite t => if s = t then .infinite s else .nan
  | .infinite s, .finite .. => .infinite s
  | .finite .., .infinite t => .infinite t
  | _, _ => .nan

/-- The difference: the sum with the negated second number. -/
def sub (x y : Double) : Double := add x y.neg

/-- The product. Zero times infinity has none. -/
def mul : Double → Double → Double
  | .finite s a _, .finite t b _ => ofUnits (s != t) (a * b) unitsPerOne
  | .finite s a _, .infinite t => if a = 0 then .nan else .infinite (s != t)
  | .infinite s, .finite t b _ => if b = 0 then .nan else .infinite (s != t)
  | .infinite s, .infinite t => .infinite (s != t)
  | _, _ => .nan

/-- The quotient. A number over zero is infinite; zero over zero, and two infinities, have none. -/
def div : Double → Double → Double
  | .finite s a _, .finite t b _ =>
    if b = 0 then if a = 0 then .nan else .infinite (s != t)
    else ofUnits (s != t) (a * unitsPerOne) b
  | .finite s _ _, .infinite t => zero (s != t)
  | .infinite s, .finite t _ _ => .infinite (s != t)
  | _, _ => .nan

def isFinite : Double → Bool
  | .finite .. => true
  | _ => false

def isNegative : Double → Bool
  | .finite s units _ => s && units != 0
  | .infinite s => s
  | .nan => false

def atLeastHalf : Double → Bool
  | .finite s units _ => !s && unitsPerOne ≤ 2 * units
  | .infinite s => !s
  | .nan => false

/-! ## Whole numbers from doubles -/

/-- Why a double has no whole number near it. -/
inductive NotWhole where
  | infinite
  | nan
deriving Repr, DecidableEq

/-- The largest whole number that is not above the magnitude. -/
def floorAbs : Double → Except NotWhole Nat
  | .finite _ units _ => .ok (units / unitsPerOne)
  | .infinite _ => .error .infinite
  | .nan => .error .nan

def truncate (x : Double) : Except NotWhole Int := do
  let whole ← x.floorAbs
  return if x.isNegative then -(whole : Int) else whole

/-- The nearest whole number, halves away from zero: the part after the point decides, and it is
    computed as a difference of doubles. -/
def roundAway (x : Double) : Except NotWhole Int := do
  let whole ← x.floorAbs
  let up := if (x.abs.sub (ofInt whole)).atLeastHalf then whole + 1 else whole
  return if x.isNegative then -(up : Int) else up

end Double

end WindowLayouts
