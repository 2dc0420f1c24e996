import WindowLayouts.Expr.Eval

/- Layouts: named slots whose place and size are four expressions. A layout is calculated against
   the area of a monitor that windows may use: widths and horizontal positions are parts of the
   area's width, heights and vertical positions parts of its height, and positions are counted from
   the area's corner. -/
namespace WindowLayouts

structure Area where
  x : Int
  y : Int
  width : Int
  height : Int
deriving Repr, DecidableEq

structure Geometry where
  x : Int
  y : Int
  width : Int
  height : Int
deriving Repr, DecidableEq

/-- A layout. It may name the monitor that it is for. -/
structure Layout where
  id : Text
  label : Text
  x : Text
  y : Text
  width : Text
  height : Text
  monitorKey : Option Text
deriving Repr, DecidableEq

structure LayoutGroup where
  name : Text
  layouts : List Layout
deriving Repr, DecidableEq

namespace Layout

/-- The four expressions in the order in which they are checked. -/
def fields (l : Layout) : List Text := [l.x, l.y, l.width, l.height]

/-- The first field that is not read, as an error. -/
def validate (l : Layout) : Except ParseError Unit :=
  l.fields.forM fun source => do
    let _ ← Expr.parse source

/-- Whether all fields are expressions. Only faults are an answer; a numeral that is too long is
    not judged. -/
def isValid (l : Layout) : Except Numeral.TooLong Bool :=
  match l.validate with
  | .ok () => .ok true
  | .error (.malformed _) => .ok false
  | .error (.numeralTooLong reason) => .error reason

def calculate [StackRoom] (l : Layout) (area : Area) : Except Expr.ResolveError Geometry := do
  let x ← Expr.resolve l.x (.whole area.width)
  let y ← Expr.resolve l.y (.whole area.height)
  let width ← Expr.resolve l.width (.whole area.width)
  let height ← Expr.resolve l.height (.whole area.height)
  return ⟨area.x + x, area.y + y, width, height⟩

end Layout

end WindowLayouts
