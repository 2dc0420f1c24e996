import WindowLayouts.Text.Basic

/- Decimal numerals. Whole numbers are written without leading zeros, and read from digits that
   may have them. Reading refuses more digits than a fixed limit, and leading zeros count. A number
   with more digits than the limit is not shown in reports either.

     `shown`                 a number as reports show it, if they can
     `value_append`          the number of two rows of digits, one after the other
     `valueByHalves_eq`      long rows may be split in halves first -/
namespace WindowLayouts.Numeral

/-- The most digits that are read as one whole number, and the most that one is shown with. -/
def maxDigits : Nat := 4300

/-- A numeral with more digits than the limit; the count is what the message shows. -/
structure TooLong where
  digits : Nat
deriving Repr, DecidableEq

def ofNat (n : Nat) : Text := (Nat.toDigits 10 n).map CodePoint.ofChar

/-- The decimal digits of a number, after a minus sign if it is negative. -/
def ofInt : Int → Text
  | .ofNat n => ofNat n
  | .negSucc n => CodePoint.ofChar '-' :: ofNat (n + 1)

/-- Whether a number has few enough digits to be shown; its sign does not count. -/
def isShowable (n : Int) : Bool := (ofNat n.natAbs).length ≤ maxDigits

/-- What is said about a number beyond the limit, with what is known about its digits. -/
def limitMessage (known : Text) : Text :=
  text "Exceeds the limit (4300 digits) for integer string conversion" ++ known ++
    text "; use sys.set_int_max_str_digits() to increase the limit"

/-- A number has too many digits to be shown. How many is not said. -/
inductive Unshowable where
  | tooLong
deriving Repr, DecidableEq

def Unshowable.message : Unshowable → Text
  | .tooLong => limitMessage []

/-- A number as reports show it. -/
def shown (n : Int) : Except Unshowable Text :=
  if isShowable n then .ok (ofInt n) else .error .tooLong

theorem shown_of_isShowable {n : Int} (h : isShowable n = true) : shown n = .ok (ofInt n) :=
  if_pos h

theorem shown_of_not_isShowable {n : Int} (h : isShowable n = false) :
    shown n = .error .tooLong := by
  rw [shown, h]
  rfl

def value (digits : Text) : Nat := digits.foldl (fun n c => 10 * n + c.digitValue) 0

/-- Going on with digits after a number shifts the number by as many places. -/
theorem foldl_digits (digits : Text) (n : Nat) :
    digits.foldl (fun n c => 10 * n + c.digitValue) n =
      n * Nat.pow 10 digits.length + value digits := by
  induction digits generalizing n with
  | nil => exact (Nat.mul_one n).symm
  | cons c rest ih =>
    have first : value (c :: rest) = c.digitValue * Nat.pow 10 rest.length + value rest := by
      show rest.foldl (fun n c => 10 * n + c.digitValue) (10 * 0 + c.digitValue) = _
      rw [ih, Nat.mul_zero, Nat.zero_add]
    have place : Nat.pow 10 (rest.length + 1) = 10 * Nat.pow 10 rest.length :=
      Nat.mul_comm (Nat.pow 10 rest.length) 10
    rw [List.foldl_cons, ih, first, List.length_cons, place, Nat.add_mul, Nat.add_assoc,
      Nat.mul_comm 10 n, Nat.mul_assoc]

theorem value_append (high low : Text) :
    value (high ++ low) = value high * Nat.pow 10 low.length + value low := by
  unfold value
  rw [List.foldl_append, foldl_digits]
  rfl

/-- The number of a row of digits, with the row split in halves for some rounds. -/
def valueIn (rounds : Nat) (digits : Text) : Nat :=
  match rounds with
  | 0 => value digits
  | rounds + 1 =>
    let half := digits.length / 2
    valueIn rounds (digits.take half) * Nat.pow 10 (digits.length - half) +
      valueIn rounds (digits.drop half)

theorem valueIn_eq (rounds : Nat) (digits : Text) : valueIn rounds digits = value digits := by
  induction rounds generalizing digits with
  | zero => rfl
  | succ rounds ih =>
    have split := value_append (digits.take (digits.length / 2)) (digits.drop (digits.length / 2))
    rw [List.take_append_drop, List.length_drop] at split
    simp only [valueIn, ih]
    exact split.symm

/-- The number that a row of digits stands for, in time for rows of any length: a long row is split
    until its pieces are short. -/
def valueByHalves (digits : Text) : Nat := valueIn (Nat.log2 (digits.length / 64)) digits

@[simp] theorem valueByHalves_eq (digits : Text) : valueByHalves digits = value digits :=
  valueIn_eq _ digits

/-- The number that a row of digits stands for, if it is short enough to be read. -/
def read (digits : Text) : Except TooLong Nat :=
  if digits.length ≤ maxDigits then .ok (value digits) else .error ⟨digits.length⟩

/-- At least one ASCII digit and nothing else. -/
def isDigits (t : Text) : Bool := !t.isEmpty && t.all CodePoint.isDigit

def TooLong.message (e : TooLong) : Text :=
  limitMessage (text ": value has " ++ ofNat e.digits ++ text " digits")

end WindowLayouts.Numeral
