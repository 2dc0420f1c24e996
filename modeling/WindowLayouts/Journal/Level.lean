import WindowLayouts.Text.Quoted

/- Levels of records, and the least level that is shown. A level is chosen by name in any case;
   a name that is not known chooses the information level, and two names are refused. -/
namespace WindowLayouts

inductive Level where
  | debug
  | info
  | warning
  | error
  | critical
deriving Repr, DecidableEq

namespace Level

def rank : Level → Nat
  | .debug => 10
  | .info => 20
  | .warning => 30
  | .error => 40
  | .critical => 50

def label : Level → Text
  | .debug => text "DEBUG"
  | .info => text "INFO"
  | .warning => text "WARNING"
  | .error => text "ERROR"
  | .critical => text "CRITICAL"

end Level

/-- The ligatures of small Latin letters whose capitals are ASCII, with those capitals. -/
def ligatureCapitals : List (Nat × String) :=
  [(0xDF, "SS"), (0xFB00, "FF"), (0xFB01, "FI"), (0xFB02, "FL"), (0xFB03, "FFI"), (0xFB04, "FFL"),
   (0xFB05, "ST"), (0xFB06, "ST")]

/-- The capitals of a code point as far as they are ASCII letters: the dotless i, the long s and the
    ligatures have such capitals too. Any other code point stays. -/
def CodePoint.capitals (c : CodePoint) : Text :=
  if h : 0x61 ≤ c.val ∧ c.val ≤ 0x7A then [⟨c.val - 0x20, by omega⟩]
  else if c.val = 0x131 then text "I"
  else if c.val = 0x17F then text "S"
  else match ligatureCapitals.find? fun l => l.1 = c.val with
    | some l => text l.2
    | none => [c]

/-- The two names that are refused: each names something else that records are formatted with, and
    no level. -/
inductive ReservedName where
  /-- The format that records have by default. -/
  | recordFormat
  /-- The styles that a format may be written in. -/
  | formatStyles
deriving Repr, DecidableEq

/-- A style, with the class of its formatter and its format for a level, a name and a message. -/
def styleEntry (mark className format : String) : Text :=
  (text mark).quoted ++ text ": (<class 'logging." ++ text className ++ text "'>, " ++
    (text format).quoted ++ text ")"

def ReservedName.message : ReservedName → Text
  | .recordFormat =>
    text "Unknown level: " ++ (text "%(levelname)s:%(name)s:%(message)s").quoted
  | .formatStyles =>
    text "Level not an integer or a valid string: \x7b" ++
      (text ", ").intercalate
        [styleEntry "%" "PercentStyle" "%(levelname)s:%(name)s:%(message)s",
         styleEntry "\x7b" "StrFormatStyle" "\x7blevelname\x7d:\x7bname\x7d:\x7bmessage\x7d",
         styleEntry "$" "StringTemplateStyle"
           "$\x7blevelname\x7d:$\x7bname\x7d:$\x7bmessage\x7d"] ++
      text "\x7d"

/-- The least rank that is shown, chosen by name; no name and the empty name choose information. -/
def leastRank (name : Option Text) : Except ReservedName Nat :=
  let capitals := (name.getD []).flatMap CodePoint.capitals
  if capitals = text "CRITICAL" || capitals = text "FATAL" then .ok Level.critical.rank
  else if capitals = text "ERROR" then .ok Level.error.rank
  else if capitals = text "WARNING" || capitals = text "WARN" then .ok Level.warning.rank
  else if capitals = text "DEBUG" then .ok Level.debug.rank
  else if capitals = text "NOTSET" then .ok 0
  else if capitals = text "BASIC_FORMAT" then .error .recordFormat
  else if capitals = text "_STYLES" then .error .formatStyles
  else .ok Level.info.rank

end WindowLayouts
