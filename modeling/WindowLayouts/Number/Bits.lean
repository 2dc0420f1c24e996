import WindowLayouts.Number.Double

/- The 64 bit form of a double: a sign bit, eleven bits for the spacing and 52 bits for the digits.
   Every double that is a number has one such form. -/
namespace WindowLayouts.Double

/-- The double with a 64 bit form; higher bits are ignored. -/
def ofBits (bits : Nat) : Double :=
  let negative := bits / Nat.pow 2 63 % 2 == 1
  let scale := bits / Nat.pow 2 52 % 2048
  let digits := bits % Nat.pow 2 52
  if scale = 2047 then if digits = 0 then .infinite negative else .nan
  else
    let units := if scale = 0 then digits else (Nat.pow 2 52 + digits) * Nat.pow 2 (scale - 1)
    if h : Fits units then .finite negative units h else .infinite negative

/-- The 64 bit form; nothing for what is no number. -/
def toBits? : Double → Option Nat
  | .finite negative units _ =>
    let sign := if negative then Nat.pow 2 63 else 0
    if units < Nat.pow 2 52 then some (sign + units)
    else
      let step := spacing units
      some (sign + (step + 1) * Nat.pow 2 52 + (units / Nat.pow 2 step - Nat.pow 2 52))
  | .infinite negative => some ((if negative then Nat.pow 2 63 else 0) + 2047 * Nat.pow 2 52)
  | .nan => none

end WindowLayouts.Double
