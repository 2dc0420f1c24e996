import WindowLayouts.Expr.Eval
import WindowLayouts.Number.Decimal

/- Arguments. Options of the whole program come before the command, options of a command after it.
   A long option may be shortened as long as it stays unambiguous, and its value may follow an
   equals sign. An argument that begins with a dash is an option, unless it is a single dash, looks
   like a negative number, or has a space in it; after a double dash nothing is an option. Behind an
   equals sign, and in the place of a size, a double dash stands for no value at all.

   Arguments are read from the left, and the first one that settles the matter does so: a request
   for help is granted even if arguments after it are wrong or missing, and refused where one before
   it was wrong. Only two things wait until all arguments are read: what is missing, and what is
   unknown or too much. Ambiguous options of the whole program are refused before anything else.

     `scan`        what arguments say, one after the other
     `parseAll`    the command and its options -/
namespace WindowLayouts.CommandLine

/-- Why there is no command to run. -/
inductive Refusal where
  | help
  | malformed
deriving Repr, DecidableEq

/-- How an option is used. -/
inductive Use where
  | value
  | flag
  | help
deriving Repr, DecidableEq

structure OptionName where
  label : Text
  use : Use
deriving Repr, DecidableEq

/-- The option that shows help; every command has it. -/
def helpOption : OptionName := ⟨text "--help", .help⟩

def shortHelp : Text := text "-h"

/-- The mark after which nothing is an option. -/
def endOfOptions : Text := text "--"

/-- What an argument is, for a list of options. -/
inductive Kind where
  | operand
  /-- An option with all that it needs. -/
  | setting (name : Text) (value : Option Text)
  /-- An option whose value is the next argument. -/
  | awaitsValue (name : Text)
  | unknownOption
  | ambiguous
  /-- An argument that settles the matter. -/
  | refused (reason : Refusal)
deriving Repr, DecidableEq

/-- Digits of any script, with one newline allowed at the end of the number that they end. -/
def looksNegative (t : Text) : Bool :=
  let isDigit : CodePoint → Bool := fun c => c.asciiDigit?.isSome
  let body := if t.getLast? = some 0x0A then t.dropLast else t
  match body with
  | [] => false
  | c :: rest =>
    if c = CodePoint.ofChar '-' then
      match rest.span isDigit with
      | (digits, []) => !digits.isEmpty
      | (_, point :: fraction) =>
        point = CodePoint.ofChar '.' && !fraction.isEmpty && fraction.all isDigit
    else false

/-- An argument at its first equals sign. -/
def splitEquals (t : Text) : Text × Option Text :=
  match t.span (· ≠ CodePoint.ofChar '=') with
  | (name, _ :: value) => (name, some value)
  | (name, []) => (name, none)

/-- A value as it was given; a double dash stands for none. -/
def givenValue (t : Text) : Text := if t = endOfOptions then [] else t

/-- An option with the value after its equals sign. -/
def OptionName.kind (o : OptionName) (value : Option Text) : Kind :=
  match o.use, value with
  | .help, none => .refused .help
  | .flag, none => .setting o.label none
  | .value, none => .awaitsValue o.label
  | .value, some value => .setting o.label (some (givenValue value))
  | _, some _ => .refused .malformed

/-- What the short form for help is with the rest of its argument: more short forms may follow,
    also behind one equals sign, and nothing else. -/
def shortHelpWith (rest : Text) : Kind :=
  let letters := match rest with
    | c :: more => if c = CodePoint.ofChar '=' then more else rest
    | [] => text "h"
  if !letters.isEmpty && letters.all (· = CodePoint.ofChar 'h') then .refused .help
  else .refused .malformed

/-- What an argument is that begins with a dash. -/
def classifyDashed (options : List OptionName) (t : Text) : Kind :=
  let (name, value) := splitEquals t
  match options.find? fun o => o.label = name with
  | some o => o.kind value
  | none =>
    if (text "--").isPrefixOf t then
      match options.filter fun o => name.isPrefixOf o.label with
      | [o] => o.kind value
      | _ :: _ :: _ => .ambiguous
      | [] => if t.contains (CodePoint.ofChar ' ') then .operand else .unknownOption
    else if shortHelp.isPrefixOf t then shortHelpWith (t.drop shortHelp.length)
    else if looksNegative t || t.contains (CodePoint.ofChar ' ') then .operand
    else .unknownOption

def classify (options : List OptionName) (t : Text) : Kind :=
  if !(text "-").isPrefixOf t || t = text "-" then .operand else classifyDashed options t

/-- What one or two arguments say. -/
inductive Part where
  | operand (t : Text)
  | setting (name : Text) (value : Option Text)
  | unknownOption
  | endOfOptions
deriving Repr, DecidableEq

/-- What arguments say, one after the other. -/
structure Scan where
  parts : List Part
  /-- The arguments from the first operand on, where reading stops at it. -/
  rest : List Text
  /-- How the matter was settled before all arguments were read. -/
  refusal : Option Refusal
deriving Repr, DecidableEq

namespace Scan

def add (s : Scan) (p : Part) : Scan := { s with parts := p :: s.parts }

def operands (s : Scan) : List Text :=
  s.parts.filterMap fun | .operand t => some t | _ => none

/-- The last value given to an option. -/
def value? (s : Scan) (name : String) : Option Text :=
  (s.parts.filterMap fun
    | .setting label value => if label = text name then value else none
    | _ => none).getLast?

def has (s : Scan) (name : String) : Bool :=
  s.parts.any fun | .setting label _ => label = text name | _ => false

/-- Whether there is an option that nobody knows. -/
def hasUnknown (s : Scan) : Bool := s.parts.contains .unknownOption

/-- Whether there is anything but options with what they need. -/
def hasExtra (s : Scan) : Bool := s.parts.any fun | .setting .. => false | _ => true

/-- The verdict on arguments that were all read, unless the matter was settled before. -/
def settle {α : Type} (s : Scan) (found : Option α) : Except Refusal α :=
  match s.refusal, found with
  | some reason, _ => .error reason
  | none, some a => .ok a
  | none, none => .error .malformed

end Scan

/-- Read arguments, all of them or up to the first operand. -/
def scan (options : List OptionName) (toOperand : Bool) : List Text → Scan
  | [] => ⟨[], [], none⟩
  | t :: rest =>
    if t = endOfOptions then
      if toOperand then ⟨[], t :: rest, none⟩
      else ⟨.endOfOptions :: rest.map .operand, [], none⟩
    else match classify options t with
      | .operand =>
        if toOperand then ⟨[], t :: rest, none⟩
        else (scan options toOperand rest).add (.operand t)
      | .setting name value => (scan options toOperand rest).add (.setting name value)
      | .awaitsValue name =>
        match rest with
        | value :: rest' =>
          if value ≠ endOfOptions && classify options value = .operand then
            (scan options toOperand rest').add (.setting name (some value))
          else ⟨[], [], some .malformed⟩
        | [] => ⟨[], [], some .malformed⟩
      | .unknownOption => (scan options toOperand rest).add .unknownOption
      | .ambiguous => ⟨[], [], some .malformed⟩
      | .refused reason => ⟨[], [], some reason⟩

/-! ## Commands -/

inductive Command where
  | eval (expression : Text) (size : Size)
  | check (expressions : List Text)
  | suggest (windowClass title : Text) (all : Bool)
  | compact
deriving DecidableEq

structure Invocation where
  levelName : Option Text
  history : Option Text
  command : Command
deriving DecidableEq

def programOptions : List OptionName :=
  [helpOption, ⟨text "--log-level", .value⟩, ⟨text "--history", .value⟩]

def suggestOptions : List OptionName :=
  [helpOption, ⟨text "--wm-class", .value⟩, ⟨text "--title", .value⟩, ⟨text "--all", .flag⟩]

/-- The size that an operand stands for. An operand that is a double dash is no size. -/
def size? (t : Text) : Option Size :=
  if t = endOfOptions then some .absent else (Decimal.ofText? t).map .real

/-- Evaluating an expression for a size. The size is read as soon as it is come to, so that one
    which is no number is refused before help is given. -/
def parseEval (s : Scan) : Except Refusal Command :=
  match s.operands with
  | expression :: size :: more =>
    match size? size with
    | none => .error .malformed
    | some size =>
      s.settle (if more.isEmpty && !s.hasUnknown then some (.eval expression size) else none)
  | _ => s.settle none

def parseCheck (s : Scan) : Except Refusal Command :=
  s.settle (if s.operands.isEmpty || s.hasUnknown then none else some (.check s.operands))

def parseSuggest (s : Scan) : Except Refusal Command :=
  s.settle (if s.hasExtra then none else (s.value? "--wm-class").map fun windowClass =>
    .suggest windowClass ((s.value? "--title").getD []) (s.has "--all"))

def parseCompact (s : Scan) : Except Refusal Command :=
  s.settle (if s.hasExtra then none else some .compact)

def parseCommand (name : Text) (arguments : List Text) : Except Refusal Command :=
  if name = text "eval" then parseEval (scan [helpOption] false arguments)
  else if name = text "check" then parseCheck (scan [helpOption] false arguments)
  else if name = text "suggest" then parseSuggest (scan suggestOptions false arguments)
  else if name = text "compact" then parseCompact (scan [helpOption] false arguments)
  else .error .malformed

/-- Whether an argument before the end of options could be two options of the program. -/
def anyAmbiguous (arguments : List Text) : Bool :=
  (arguments.takeWhile (· ≠ endOfOptions)).any fun t => classify programOptions t = .ambiguous

def parseAll (arguments : List Text) : Except Refusal Invocation :=
  if anyAmbiguous arguments then .error .malformed
  else
    let program := scan programOptions true arguments
    match program.rest with
    | [] => program.settle none
    | name :: rest => do
      let command ← parseCommand name rest
      program.settle (if program.hasUnknown then none
        else some ⟨program.value? "--log-level", program.value? "--history", command⟩)

end WindowLayouts.CommandLine
