/- Text as this library sees it: a list of code points. A code point is any number of the Unicode
   code space, the surrogates included, so that a text read from a log line or a command line is
   kept exactly even where it is no well-formed string.

     `Text.ofString`      the text of a string literal
     `Text.splitOn`       cut at every occurrence of a separator, never giving an empty list
     `Text.le`            order by code points, the order in which keys are listed
     `Text.joinPairs`     a high surrogate directly before a low one becomes one code point -/
namespace WindowLayouts

/-- A number of the Unicode code space; surrogates are allowed. -/
abbrev CodePoint := Fin 0x110000

abbrev Text := List CodePoint

abbrev Bytes := List UInt8

/-- There are code points, so numerals stand for some. -/
instance CodePoint.neZero : @NeZero Nat Zero.ofOfNat0 0x110000 := ⟨Nat.succ_ne_zero _⟩

namespace CodePoint

def ofChar (c : Char) : CodePoint :=
  ⟨c.toNat, by
    have h := c.valid
    have e : c.toNat = c.val.toNat := rfl
    simp only [UInt32.isValidChar, Nat.isValidChar] at h
    omega⟩

/-- The first half of a surrogate pair. -/
def isHighSurrogate (c : CodePoint) : Bool := 0xD800 ≤ c.val && c.val ≤ 0xDBFF

/-- The second half of a surrogate pair. -/
def isLowSurrogate (c : CodePoint) : Bool := 0xDC00 ≤ c.val && c.val ≤ 0xDFFF

def isSurrogate (c : CodePoint) : Bool := 0xD800 ≤ c.val && c.val ≤ 0xDFFF

def isDigit (c : CodePoint) : Bool := 0x30 ≤ c.val && c.val ≤ 0x39

def digitValue (c : CodePoint) : Nat := c.val - 0x30

/-- The code point that a high and a low surrogate stand for together; other arguments are
    brought into range. -/
def joinPair (high low : CodePoint) : CodePoint :=
  ⟨0x10000 + (high.val - 0xD800) % 0x400 * 0x400 + (low.val - 0xDC00) % 0x400, by omega⟩

end CodePoint

instance : Coe Char CodePoint := ⟨CodePoint.ofChar⟩

namespace Text

/-- Whether two texts are the same, compared point by point. -/
def same : Text → Text → Bool
  | [], [] => true
  | a :: s, b :: t => a.val == b.val && same s t
  | _, _ => false

theorem same_iff (s t : Text) : same s t = true ↔ s = t := by
  induction s generalizing t with
  | nil => cases t <;> simp [same]
  | cons a s ih => cases t <;> simp [same, ih, Fin.ext_iff]

/-- Equality of texts is decided in one walk over both. -/
instance decideEq : DecidableEq Text := fun s t => decidable_of_iff _ (same_iff s t)

def ofString (s : String) : Text := s.toList.map CodePoint.ofChar

def consPoint (sep c : CodePoint) (pieces : List Text) : List Text :=
  if c = sep then [] :: pieces
  else match pieces with
    | [] => [[c]]
    | piece :: more => (c :: piece) :: more

/-- The pieces of a text between the occurrences of a separator; there is one piece more than
    there are separators. -/
def splitOn (sep : CodePoint) (t : Text) : List Text := t.foldr (consPoint sep) [[]]

/-- Order by code points, a text before its extensions. -/
def le : Text → Text → Bool
  | [], _ => true
  | _ :: _, [] => false
  | a :: s, b :: t => a < b || (a == b && le s t)

/-- Each high surrogate directly before a low one is replaced, together with it, by the code point
    that the pair stands for. -/
def joinPairs : Text → Text
  | high :: low :: rest =>
    if high.isHighSurrogate && low.isLowSurrogate then CodePoint.joinPair high low :: joinPairs rest
    else high :: joinPairs (low :: rest)
  | short => short

end Text

/-- A string as a text, for the fixed parts of messages. -/
abbrev text (s : String) : Text := Text.ofString s

end WindowLayouts
