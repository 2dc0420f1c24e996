import WindowLayouts.Text.Basic

/- Blanks: the code points that separate words, and texts without the blanks at their ends. The
   set is the Unicode white space together with the four ASCII separators U+001C to U+001F.
   Log lines are trimmed by bytes, and there only the six ASCII blanks count. -/
namespace WindowLayouts

/-- White space of Unicode, and the information separators of ASCII. -/
def CodePoint.isBlank (c : CodePoint) : Bool :=
  let n := c.val
  (0x09 ≤ n && n ≤ 0x0D) || (0x1C ≤ n && n ≤ 0x20) || n == 0x85 || n == 0xA0 || n == 0x1680 ||
  (0x2000 ≤ n && n ≤ 0x200A) || n == 0x2028 || n == 0x2029 || n == 0x202F || n == 0x205F ||
  n == 0x3000

/-- A list without its longest tail that satisfies a test. -/
def dropTailWhile {α : Type} (p : α → Bool) (xs : List α) : List α :=
  (xs.reverse.dropWhile p).reverse

def Text.trim (t : Text) : Text := dropTailWhile CodePoint.isBlank (t.dropWhile CodePoint.isBlank)

/-- The bytes that count as blank at the ends of a log line. -/
def isBlankByte (b : UInt8) : Bool := (9 ≤ b && b ≤ 13) || b == 32

def Bytes.trim (bs : Bytes) : Bytes := dropTailWhile isBlankByte (bs.dropWhile isBlankByte)

end WindowLayouts
