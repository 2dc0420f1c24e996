import WindowLayouts.Text.Basic

/- Hexadecimal digits, written in lower case and read in either. -/
namespace WindowLayouts

/-- The hexadecimal digit of a number below sixteen. -/
def hexDigit (n : Nat) : CodePoint := Nat.digitChar (n % 16)

/-- The low `width` hexadecimal digits of a number, the highest first. -/
def hexDigits : Nat → Nat → Text
  | 0, _ => []
  | width + 1, n => hexDigits width (n / 16) ++ [hexDigit n]

def CodePoint.hexValue? (c : CodePoint) : Option Nat :=
  let n := c.val
  if 0x30 ≤ n && n ≤ 0x39 then some (n - 0x30)
  else if 0x61 ≤ n && n ≤ 0x66 then some (n - 0x61 + 10)
  else if 0x41 ≤ n && n ≤ 0x46 then some (n - 0x41 + 10)
  else none

end WindowLayouts
