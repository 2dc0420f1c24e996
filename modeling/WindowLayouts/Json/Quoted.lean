import WindowLayouts.Text.Hex

/- Strings as they are written in JSON with ASCII only. Quotes, backslashes and five controls have
   letters; every other code point outside the printable ASCII range is written as a number with
   four hexadecimal digits, and one that needs more as a pair of surrogates. -/
namespace WindowLayouts.Json

/-- A number of sixteen bits after a backslash and the letter u. -/
def unitEscape (n : Nat) : Text := text "\\u" ++ hexDigits 4 n

def escapeLetter? (n : Nat) : Option Char :=
  match n with
  | 0x22 => some (Char.ofNat 0x22)
  | 0x5C => some (Char.ofNat 0x5C)
  | 0x08 => some 'b'
  | 0x09 => some 't'
  | 0x0A => some 'n'
  | 0x0C => some 'f'
  | 0x0D => some 'r'
  | _ => none

def quotePoint (c : CodePoint) : Text :=
  let n := c.val
  match escapeLetter? n with
  | some letter => [0x5C, CodePoint.ofChar letter]
  | none =>
    if 0x20 ≤ n && n ≤ 0x7E then [c]
    else if n < 0x10000 then unitEscape n
    else unitEscape (0xD800 + (n - 0x10000) / 0x400) ++ unitEscape (0xDC00 + (n - 0x10000) % 0x400)

def quote (t : Text) : Text := 0x22 :: t.flatMap quotePoint ++ [0x22]

example : quote [0x22, 0x09, 0x7F, 0x1F600] = text "\"\\\"\\t\\u007f\\ud83d\\ude00\"" := by
  decide +kernel

end WindowLayouts.Json
