import WindowLayouts.Text.Numeral
import WindowLayouts.Text.Quoted

/- What can be wrong with the text of an expression. A fault has a category, the whole text, and a
   detail that may be empty; its message shows all three. A fraction with a numeral that is too long
   to be read is refused apart from the faults. -/
namespace WindowLayouts

inductive FaultCategory where
  | empty
  | incomplete
  | invalidTerm
  | invalidFraction
  | fractionNotInteger
  | divisionByZero
  | invalidPercentage
  | invalidPixel
deriving Repr, DecidableEq

/-- The words that a message opens with. -/
def FaultCategory.label : FaultCategory → Text
  | .empty => text "Empty expression"
  | .incomplete => text "Incomplete expression"
  | .invalidTerm => text "Invalid term"
  | .invalidFraction => text "Invalid fraction"
  | .fractionNotInteger => text "Fractions must use integers"
  | .divisionByZero => text "Division by zero"
  | .invalidPercentage => text "Invalid percentage"
  | .invalidPixel => text "Invalid pixel value"

structure Fault where
  category : FaultCategory
  source : Text
  detail : Text
deriving Repr, DecidableEq

/-- The category, the quoted text, and the detail if there is one. -/
def Fault.message (f : Fault) : Text :=
  f.category.label ++ text ": " ++ f.source.quoted ++
    if f.detail.isEmpty then [] else text " (" ++ f.detail ++ text ")"

inductive ParseError where
  | malformed (fault : Fault)
  | numeralTooLong (reason : Numeral.TooLong)
deriving Repr, DecidableEq

def ParseError.message : ParseError → Text
  | .malformed fault => fault.message
  | .numeralTooLong reason => reason.message

end WindowLayouts
