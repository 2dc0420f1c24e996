import WindowLayouts.StackRoom
import WindowLayouts.Text.Utf8

/- Names of files. A name reaches the system as bytes: its UTF-8 form, in which the low surrogates
   from U+DC80 on stand for one byte each. Names with the same bytes are the same name, and it is
   listed as the text that its bytes are read as. A text with any other surrogate or with a zero in
   it is never handed over; a name that is too long is, and the system refuses it. -/
namespace WindowLayouts

/-- A surrogate that stands for a byte which is no UTF-8. -/
def CodePoint.standsForByte (c : CodePoint) : Bool := 0xDC80 ≤ c.val && c.val ≤ 0xDCFF

/-- Why a text cannot be handed to the system as a name. -/
inductive NameFault where
  /-- Surrogates from the first on that stands for no byte. -/
  | surrogates (run : Utf8.SurrogateRun)
  /-- A zero, which would end the name. -/
  | zero
deriving Repr, DecidableEq

def NameFault.message : NameFault → Text
  | .surrogates run => run.message
  | .zero => text "embedded null byte"

/-- Why a text cannot be handed to the system, if it cannot. Surrogates are found before zeros. -/
def nameFault? (t : Text) : Option NameFault :=
  match Utf8.runFrom? (fun c => c.isSurrogate && !c.standsForByte) t with
  | some run => some (.surrogates run)
  | none => if t.contains 0 then some .zero else none

def nameBytes (name : Text) : Bytes :=
  name.flatMap fun c =>
    if c.standsForByte then [UInt8.ofNat (c.val - 0xDC00)] else Utf8.encodePoint c

/-- The code point at the front of some bytes, and how many of them it takes. -/
def firstPoint? (bytes : Bytes) : Option (CodePoint × Nat) :=
  [1, 2, 3, 4].findSome? fun size =>
    match Utf8.decode? (bytes.take size) with
    | some [c] => some (c, size)
    | _ => none

/-- The surrogate that stands for a byte which is no UTF-8. -/
def byteSurrogate (b : UInt8) : CodePoint :=
  ⟨0xDC00 + b.toNat, by have := b.toNat_lt; omega⟩

/-- The text that bytes are read as: code points where they are UTF-8, and surrogates for the other
    bytes. -/
def textOfBytes : Bytes → Text
  | [] => []
  | b :: rest =>
    match firstPoint? (b :: rest) with
    | some (c, size) => c :: textOfBytes (rest.drop (size - 1))
    | none => byteSurrogate b :: textOfBytes rest
termination_by bytes => bytes.length
decreasing_by
  · simp only [List.length_drop, List.length_cons]; omega
  · simp

/-- The text that a name is listed as. -/
def listedName (name : Text) : Text :=
  if name.any (·.standsForByte) then textOfBytes (nameBytes name) else name

/-- The most bytes that a name may take. -/
def nameLimit : Nat := 255

/-- A name that the system refuses for its length. -/
def isNameTooLong (name : Text) : Bool := nameLimit < (nameBytes name).length

inductive FileFailure where
  /-- The system refused; its own words are left out of messages. -/
  | system
  /-- A path was never handed over. -/
  | name (fault : NameFault)
  /-- More directories are missing than there is room to make one inside the other. -/
  | tooDeep
  /-- A number in what was to be written is too long to be shown. -/
  | unshowable (reason : Numeral.Unshowable)
deriving Repr, DecidableEq

/-- What stands for the words of the operating system in messages. -/
def systemError : Text := text "<os error>"

def FileFailure.message : FileFailure → Text
  | .system => systemError
  | .name fault => fault.message
  | .tooDeep => stackMessage " while calling a Python object"
  | .unshowable reason => reason.message

end WindowLayouts
