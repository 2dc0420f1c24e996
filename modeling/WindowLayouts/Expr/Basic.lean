import WindowLayouts.Number.Double
import WindowLayouts.Text.Basic

/- Layout expressions: sums and differences of parts of a container. An expression read from a text
   is a left fold of terms; an expression built otherwise may have any shape, and may hold a node of
   a kind that evaluation does not know. -/
namespace WindowLayouts

inductive Expr where
  | zero
  | fraction (numerator denominator : Int)
  /-- A share of the container, one hundred percent being one. -/
  | percentage (share : Double)
  | pixel (offset : Double)
  | add (left right : Expr)
  | sub (left right : Expr)
  /-- A node of a kind that has no meaning, known by what it shows. -/
  | unknown (label : Text)
deriving DecidableEq

inductive Operator where
  | plus
  | minus
deriving Repr, DecidableEq

def Operator.sign : Operator → CodePoint
  | .plus => '+'
  | .minus => '-'

def Operator.ofSign? (c : CodePoint) : Option Operator :=
  if c = Operator.plus.sign then some .plus
  else if c = Operator.minus.sign then some .minus
  else none

/-- Two expressions joined by an operator. -/
def Expr.join (op : Operator) (left right : Expr) : Expr :=
  match op with
  | .plus => .add left right
  | .minus => .sub left right

end WindowLayouts
