import WindowLayouts.Text.Hex
import WindowLayouts.Text.Printable

/- Quoted forms for messages. A text is shown between quote marks; the mark is the apostrophe
   unless the text has an apostrophe and no double quote. The mark in use and the backslash get a
   backslash, tab, newline and carriage return their letters, and any other unprintable code point
   its number in lower case hexadecimal with two, four or eight digits. Bytes are shown in the
   same way after a letter b. -/
namespace WindowLayouts

/-- The quote mark used first. -/
def apostrophe : CodePoint := 0x27

/-- The quote mark used where it spares escaping. -/
def doubleQuote : CodePoint := 0x22

def backslash : CodePoint := 0x5C

/-- The quote mark for a text: a double quote only when it spares escaping apostrophes. -/
def quoteMark (hasApostrophe hasDoubleQuote : Bool) : CodePoint :=
  if hasApostrophe && !hasDoubleQuote then doubleQuote else apostrophe

/-- The backslash letter of tab, newline and carriage return. -/
def blankLetter? (n : Nat) : Option Char :=
  match n with
  | 0x09 => some 't'
  | 0x0A => some 'n'
  | 0x0D => some 'r'
  | _ => none

/-- An unprintable code point as a backslash, a letter for the width, and its number. -/
def hexEscape (n : Nat) : Text :=
  if n < 0x100 then text "\\x" ++ hexDigits 2 n
  else if n < 0x10000 then text "\\u" ++ hexDigits 4 n
  else text "\\U" ++ hexDigits 8 n

def CodePoint.quotedWith (mark : CodePoint) (c : CodePoint) : Text :=
  if c = mark || c = backslash then [backslash, c]
  else match blankLetter? c.val with
    | some letter => [backslash, CodePoint.ofChar letter]
    | none => if c.isPrintable then [c] else hexEscape c.val

def Text.quoted (t : Text) : Text :=
  let mark := quoteMark (t.contains apostrophe) (t.contains doubleQuote)
  mark :: t.flatMap (CodePoint.quotedWith mark) ++ [mark]

/-- One byte inside quoted bytes: only printable ASCII stands for itself. -/
def quotedByte (mark : CodePoint) (b : UInt8) : Text :=
  let c : CodePoint := ⟨b.toNat, by have := b.toNat_lt; omega⟩
  if c = mark || c = backslash then [backslash, c]
  else match blankLetter? c.val with
    | some letter => [backslash, CodePoint.ofChar letter]
    | none => if 0x20 ≤ c.val && c.val < 0x7F then [c] else hexEscape c.val

/-- Bytes between quote marks, after the letter b. -/
def Bytes.quoted (bs : Bytes) : Text :=
  let mark := quoteMark (bs.contains 0x27) (bs.contains 0x22)
  CodePoint.ofChar 'b' :: mark :: bs.flatMap (quotedByte mark) ++ [mark]

/-! ## Which mark, and what is escaped -/

example : (text "it's").quoted = text "\"it's\"" := by decide +kernel

example : (text "it's \"b\"").quoted = text "'it\\'s \"b\"'" := by decide +kernel

example : Text.quoted [0x0A, 0x5C, 0xA0, 0x2028, 0x10FFFF] =
    text "'\\n\\\\\\xa0\\u2028\\U0010ffff'" := by decide +kernel

end WindowLayouts
