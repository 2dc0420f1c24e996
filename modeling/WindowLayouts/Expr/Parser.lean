import WindowLayouts.Expr.Basic
import WindowLayouts.Expr.Fault
import WindowLayouts.Number.Decimal
import WindowLayouts.Text.Blank

/- Reading expressions. A text is cut at every operator, the pieces are trimmed, and each piece is
   read as a term: `0`, a fraction `3/4`, a percentage `12.5%` or a number of pixels `10px`. The
   terms are folded from the left.

   Faults are looked for in passes over the whole text: an empty text, a text that ends in an
   operator, the first missing term, and only then the terms themselves from left to right. -/
namespace WindowLayouts.Expr

/-- A text cut at its operators: the first piece, and each operator with the piece after it. -/
structure Pieces where
  first : Text
  rest : List (Operator × Text)
deriving Repr, DecidableEq

namespace Pieces

def consPoint (c : CodePoint) (p : Pieces) : Pieces :=
  match Operator.ofSign? c with
  | some op => ⟨[], (op, p.first) :: p.rest⟩
  | none => ⟨c :: p.first, p.rest⟩

def cut (t : Text) : Pieces := t.foldr consPoint ⟨[], []⟩

def trim (p : Pieces) : Pieces := ⟨p.first.trim, p.rest.map fun (op, t) => (op, t.trim)⟩

def terms (p : Pieces) : List Text := p.first :: p.rest.map (·.2)

/-- The last operator, if nothing follows it. -/
def dangling? (p : Pieces) : Option Operator :=
  match p.rest.getLast? with
  | some (op, []) => some op
  | _ => none

end Pieces

/-- The detail of an expression that ends in an operator. -/
def danglingDetail (op : Operator) : Text := text "dangling '" ++ [op.sign] ++ text "'"

/-- The detail of an expression with nothing at a position. -/
def missingDetail (position : Nat) : Text :=
  text "missing term at position " ++ Numeral.ofNat position

/-- The detail of a fraction with more than one stroke. -/
def strokesDetail (term : Text) : Text := text "too many '/' in " ++ term.quoted

/-- What is wrong with one term: a category and a detail, or a numeral that is too long. -/
inductive TermError where
  | malformed (category : FaultCategory) (detail : Text)
  | numeralTooLong (reason : Numeral.TooLong)
deriving Repr, DecidableEq

/-- The error of a whole text whose term is in error. -/
def TermError.inText (source : Text) : TermError → ParseError
  | .malformed category detail => .malformed ⟨category, source, detail⟩
  | .numeralTooLong reason => .numeralTooLong reason

def readNumeral (digits : Text) : Except TermError Nat :=
  (Numeral.read digits).mapError .numeralTooLong

/-- Read a fraction: two whole numbers and a stroke, the lower one not zero. The lower number is
    read first. -/
def parseFraction (term : Text) : Except TermError Expr :=
  match term.splitOn '/' with
  | [upper, lower] =>
    let upper := upper.trim
    let lower := lower.trim
    if upper.contains (CodePoint.ofChar '.') || lower.contains (CodePoint.ofChar '.') then
      .error (.malformed .fractionNotInteger term)
    else if !(Numeral.isDigits upper && Numeral.isDigits lower) then
      .error (.malformed .invalidFraction term)
    else do
      let denominator ← readNumeral lower
      if denominator = 0 then .error (.malformed .divisionByZero term)
      else do
        let numerator ← readNumeral upper
        .ok (.fraction numerator denominator)
  | _ => .error (.malformed .invalidFraction (strokesDetail term))

/-- The text before an ending, if it has that ending. -/
def dropEnding? (ending t : Text) : Option Text :=
  if ending.isSuffixOf t then some (t.take (t.length - ending.length)) else none

/-- Read a trimmed term that is not blank. -/
def parseTerm (term : Text) : Except TermError Expr :=
  if term = text "0" then .ok .zero
  else if term.contains (CodePoint.ofChar '/') then parseFraction term
  else match dropEnding? (text "%") term with
    | some number =>
      match Decimal.number? number.trim with
      | some x => .ok (.percentage (x.div (Double.ofInt 100)))
      | none => .error (.malformed .invalidPercentage term)
    | none =>
      match dropEnding? (text "px") term with
      | some number =>
        match Decimal.number? number.trim with
        | some x => .ok (.pixel x)
        | none => .error (.malformed .invalidPixel term)
      | none => .error (.malformed .invalidTerm term)

/-- Join further terms to an expression, from left to right, stopping at the first error. -/
def foldTerms (left : Expr) : List (Operator × Text) → Except TermError Expr
  | [] => .ok left
  | (op, term) :: rest => do
    let right ← parseTerm term
    foldTerms (join op left right) rest

/-- Read trimmed pieces of which none is blank. -/
def parsePieces (p : Pieces) : Except TermError Expr := do
  let first ← parseTerm p.first
  foldTerms first p.rest

def parse (source : Text) : Except ParseError Expr :=
  if source.trim.isEmpty then .error (.malformed ⟨.empty, source, []⟩)
  else
    let pieces := (Pieces.cut source).trim
    match pieces.dangling? with
    | some op => .error (.malformed ⟨.incomplete, source, danglingDetail op⟩)
    | none =>
      match pieces.terms.findIdx? List.isEmpty with
      | some i => .error (.malformed ⟨.invalidTerm, source, missingDetail i⟩)
      | none => (parsePieces pieces).mapError (TermError.inText source)

/-- Read an expression that may be absent; an absent one is empty. -/
def parse? (source : Option Text) : Except ParseError Expr := parse (source.getD [])

/-- Whether a text is an expression. Only faults are an answer; a numeral that is too long is not
    judged. -/
def isValid (source : Option Text) : Except Numeral.TooLong Bool :=
  match parse? source with
  | .ok _ => .ok true
  | .error (.malformed _) => .ok false
  | .error (.numeralTooLong reason) => .error reason

end WindowLayouts.Expr
