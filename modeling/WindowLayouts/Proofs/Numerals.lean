import Mathlib.Algebra.Group.Int.Defs
import Mathlib.Algebra.Group.Nat.Defs
import Mathlib.Data.List.TakeDrop
import Mathlib.Data.List.TakeWhile
import WindowLayouts.Json.Value

/- Whole numbers between their digits and their doubles. A number is written with digits that read
   back as it, and a number that some double is near has far fewer digits than may be read.

     `Numeral.value_ofNat`             the digits of a number stand for it
     `Numeral.length_ofNat_le`         a number that converts to a double can be read back
     `Double.isFinite_ofInt_truncate`  a double without its fraction converts to a double again
     `Json.readScalar_ofInt`           a written number is read as that number -/
namespace WindowLayouts

/-! ## Digits -/

namespace Numeral

theorem value_ofNat (n : Nat) : value (ofNat n) = n := by
  have h : Nat.ofDigitChars 10 (Nat.toDigits 10 n) 0 = n := Nat.ofDigitChars_ten_toDigits
  rw [Nat.ofDigitChars_eq_foldl] at h
  unfold value ofNat
  rw [List.foldl_map]
  exact h

theorem isDigit_ofChar {c : Char} (h : c.isDigit = true) : (CodePoint.ofChar c).isDigit = true := by
  have hc : (CodePoint.ofChar c).val = c.toNat := rfl
  simp only [Char.isDigit, Bool.and_eq_true, decide_eq_true_eq, ge_iff_le,
    UInt32.le_iff_toNat_le] at h
  simp only [CodePoint.isDigit, Bool.and_eq_true, decide_eq_true_eq, hc]
  exact h

theorem isDigit_of_mem_ofNat {n : Nat} {c : CodePoint} (h : c ∈ ofNat n) : c.isDigit = true := by
  obtain ⟨d, hd, rfl⟩ := List.mem_map.mp h
  exact isDigit_ofChar (Nat.isDigit_of_mem_toDigits (by decide) (by decide) hd)

theorem ofNat_ne_nil (n : Nat) : ofNat n ≠ [] := by
  simp [ofNat, Nat.toDigits_ne_nil]

theorem length_ofNat_le_iff {n k : Nat} (hk : 0 < k) : (ofNat n).length ≤ k ↔ n < 10 ^ k := by
  rw [ofNat, List.length_map]
  exact Nat.length_toDigits_le_iff (by decide) hk

/-- The numbers that are short enough to be shown. -/
theorem isShowable_iff {n : Int} : isShowable n = true ↔ n.natAbs < 10 ^ maxDigits := by
  rw [isShowable, decide_eq_true_eq, length_ofNat_le_iff (by decide)]

/-- The least number that cannot be shown. -/
theorem not_isShowable_pow : isShowable (10 ^ maxDigits) = false := by
  rw [← Bool.not_eq_true, isShowable_iff, Int.natAbs_pow, show Int.natAbs 10 = 10 from rfl]
  exact Nat.lt_irrefl _

/-- Only zero is written with a leading zero. -/
theorem head_ofNat_ne_zero {n : Nat} (hn : 0 < n) :
    ∃ c rest, ofNat n = c :: rest ∧ c ≠ CodePoint.ofChar '0' := by
  induction n using Nat.strongRecOn with
  | ind n ih =>
    by_cases h : n < 10
    · refine ⟨CodePoint.ofChar n.digitChar, [], ?_, ?_⟩
      · simp [ofNat, Nat.toDigits_of_lt_base h]
      · have all : ∀ m : Fin 10, 0 < m.val →
            CodePoint.ofChar m.val.digitChar ≠ CodePoint.ofChar '0' := by decide
        exact all ⟨n, h⟩ hn
    · have hle : 10 ≤ n := Nat.le_of_not_lt h
      obtain ⟨c, rest, he, hc⟩ := ih (n / 10) (by omega) (by omega)
      refine ⟨c, rest ++ ofNat (n % 10), ?_, hc⟩
      have split : ofNat n = ofNat (n / 10) ++ ofNat (n % 10) := by
        simp only [ofNat, ← List.map_append]
        rw [Nat.toDigits_of_base_le (by decide) hle,
          Nat.toDigits_of_lt_base (Nat.mod_lt n (by decide))]
      rw [split, he, List.cons_append]

theorem ofNat_zero : ofNat 0 = [CodePoint.ofChar '0'] := by
  simp [ofNat]

theorem value_cons (c : CodePoint) (t : Text) :
    value (c :: t) = c.digitValue * 10 ^ t.length + value t := by
  have happend := value_append [c] t
  have hone : value [c] = c.digitValue := Nat.zero_add _
  rw [hone] at happend
  exact happend

theorem digitValue_eq_zero_iff {c : CodePoint} (h : c.isDigit = true) :
    c.digitValue = 0 ↔ c = CodePoint.ofChar '0' := by
  simp only [CodePoint.isDigit, Bool.and_eq_true, decide_eq_true_eq] at h
  have hzero : (CodePoint.ofChar '0').val = 0x30 := rfl
  rw [CodePoint.digitValue, Fin.ext_iff, hzero]
  omega

theorem value_eq_zero_iff {t : Text} (h : ∀ c ∈ t, c.isDigit = true) :
    value t = 0 ↔ ∀ c ∈ t, c = CodePoint.ofChar '0' := by
  induction t with
  | nil => exact iff_of_true rfl fun _ hc => nomatch hc
  | cons c rest ih =>
    obtain ⟨hc, hrest⟩ := List.forall_mem_cons.mp h
    have hpow : 10 ^ rest.length ≠ 0 := Nat.ne_of_gt (Nat.pow_pos (by decide))
    rw [value_cons, Nat.add_eq_zero_iff, Nat.mul_eq_zero, or_iff_left hpow,
      digitValue_eq_zero_iff hc, ih hrest, List.forall_mem_cons]

theorem isDigits_iff {digits : Text} :
    isDigits digits = true ↔ digits ≠ [] ∧ ∀ c ∈ digits, c.isDigit = true := by
  rw [isDigits, Bool.and_eq_true, Bool.not_eq_true', List.isEmpty_eq_false_iff, List.all_eq_true]

/-- Digits are taken up to the first code point that is none. -/
theorem span_digits {digits : Text} (h : ∀ c ∈ digits, c.isDigit = true) (rest : Text)
    (hrest : ∀ c, rest.head? = some c → c.isDigit = false) :
    (digits ++ rest).span CodePoint.isDigit = (digits, rest) := by
  have hstop : rest.takeWhile CodePoint.isDigit = [] ∧ rest.dropWhile CodePoint.isDigit = rest := by
    cases rest with
    | nil => exact ⟨rfl, rfl⟩
    | cons c more =>
      have hc : ¬ c.isDigit = true := by
        rw [hrest c rfl]
        exact Bool.false_ne_true
      exact ⟨List.takeWhile_cons_of_neg hc, List.dropWhile_cons_of_neg hc⟩
  rw [List.span_eq_takeWhile_dropWhile, List.takeWhile_append_of_pos h,
    List.dropWhile_append_of_pos h, hstop.1, hstop.2, List.append_nil]

end Numeral

/-! ## Whole numbers as doubles -/

namespace Double

theorem isFinite_ofUnits (negative : Bool) (n d : Nat) :
    (ofUnits negative n d).isFinite = true ↔ Fits (roundUnits n d) := by
  unfold ofUnits
  by_cases h : Fits (roundUnits n d) <;> simp [h, isFinite]

theorem div_le_nearestEven (n d : Nat) : n / d ≤ nearestEven n d := by
  unfold nearestEven
  dsimp only
  split
  · exact Nat.le_refl _
  · split
    · exact Nat.le_succ _
    · exact Nat.le_add_right _ _

theorem nearestEven_of_dvd {n d : Nat} (hd : 0 < d) (h : d ∣ n) : nearestEven n d = n / d := by
  unfold nearestEven
  simp [Nat.mod_eq_zero_of_dvd h, hd]

theorem pow_spacing_le {n : Nat} (hn : n ≠ 0) : 2 ^ spacing n ≤ n := by
  calc 2 ^ spacing n ≤ 2 ^ Nat.log2 n := Nat.pow_le_pow_right (by decide) (Nat.sub_le _ _)
    _ ≤ n := Nat.log2_self_le hn

/-- Rounding to a double loses less than half of a number. -/
theorem lt_two_mul_roundUnits {n : Nat} (hn : n ≠ 0) : n < 2 * roundUnits n 1 := by
  have hstep : 0 < 2 ^ spacing n := Nat.pow_pos (by decide)
  have hle : 2 ^ spacing n ≤ n := pow_spacing_le hn
  have hfloor : n < 2 ^ spacing n * (n / 2 ^ spacing n) + 2 ^ spacing n := by
    have := Nat.div_add_mod n (2 ^ spacing n)
    have := Nat.mod_lt n hstep
    omega
  have hone : 2 ^ spacing n * 1 ≤ 2 ^ spacing n * (n / 2 ^ spacing n) :=
    Nat.mul_le_mul_left _ ((Nat.one_le_div_iff hstep).mpr hle)
  have hround : n / 2 ^ spacing n * 2 ^ spacing n ≤ roundUnits n 1 := by
    simp only [roundUnits, Nat.div_one, Nat.one_mul, Nat.pow_eq]
    exact Nat.mul_le_mul_right _ (div_le_nearestEven _ _)
  rw [Nat.mul_comm] at hround
  omega

/-- A number that fits is its own rounding. -/
theorem roundUnits_of_dvd {n : Nat} (h : 2 ^ spacing n ∣ n) : roundUnits n 1 = n := by
  have hstep : 0 < 2 ^ spacing n := Nat.pow_pos (by decide)
  simp only [roundUnits, Nat.div_one, Nat.one_mul, Nat.pow_eq]
  rw [nearestEven_of_dvd hstep h, Nat.div_mul_cancel h]

theorem fits_iff {units : Nat} : Fits units ↔ units < unitLimit ∧ 2 ^ spacing units ∣ units :=
  Iff.rfl

theorem two_mul_pow {a b c : Nat} (h : a + 1 = b + c) :
    2 * Nat.pow 2 a = Nat.pow 2 b * Nat.pow 2 c := by
  simp only [Nat.pow_eq]
  rw [← Nat.pow_add, ← h, Nat.pow_succ, Nat.mul_comm]

theorem two_pow_pos (k : Nat) : 0 < Nat.pow 2 k := Nat.pow_pos (by decide)

theorem two_mul_unitLimit : 2 * unitLimit = Nat.pow 2 1025 * unitsPerOne := by
  unfold unitLimit unitsPerOne
  apply two_mul_pow
  rfl

theorem unitsPerOne_pow : ∃ k, unitsPerOne = Nat.pow 2 k := by
  unfold unitsPerOne
  exact Exists.intro _ (Eq.refl _)

theorem unitsPerOne_pos : 0 < unitsPerOne := by
  unfold unitsPerOne
  apply two_pow_pos

theorem isFinite_ofInt_iff {i : Int} :
    (ofInt i).isFinite = true ↔ Fits (roundUnits (i.natAbs * unitsPerOne) 1) :=
  isFinite_ofUnits (decide (i < 0)) (i.natAbs * unitsPerOne) 1

theorem natAbs_lt_of_isFinite_ofInt {i : Int} (h : (ofInt i).isFinite = true) :
    i.natAbs < Nat.pow 2 1025 := by
  obtain ⟨hlimit, -⟩ := fits_iff.mp (isFinite_ofInt_iff.mp h)
  by_cases hi : i.natAbs * unitsPerOne = 0
  · have hzero := (Nat.mul_eq_zero.mp hi).resolve_right (Nat.ne_of_gt unitsPerOne_pos)
    rw [hzero]
    apply two_pow_pos
  · have hround := lt_two_mul_roundUnits hi
    have hlt : i.natAbs * unitsPerOne < 2 * unitLimit := by
      generalize i.natAbs * unitsPerOne = n at hround hlimit ⊢
      generalize unitLimit = limit at hlimit ⊢
      omega
    rw [two_mul_unitLimit] at hlt
    apply (Nat.mul_lt_mul_right unitsPerOne_pos).mp hlt

theorem spacing_mono {m n : Nat} (h : m ≤ n) : spacing m ≤ spacing n := by
  by_cases hm : m = 0
  · subst hm
    simp [spacing]
  · have hn : n ≠ 0 := by omega
    have hlog : Nat.log2 m ≤ Nat.log2 n :=
      (Nat.le_log2 hn).mpr (Nat.le_trans (Nat.log2_self_le hm) h)
    unfold spacing
    omega

/-- Cutting a number down to a multiple of a power of two leaves it a multiple of its spacing. -/
theorem pow_spacing_dvd_floor {units : Nat} (k : Nat) (h : 2 ^ spacing units ∣ units) :
    2 ^ spacing (units / Nat.pow 2 k * Nat.pow 2 k) ∣ units / Nat.pow 2 k * Nat.pow 2 k := by
  simp only [Nat.pow_eq]
  -- from a spacing of 2^k on nothing is cut off; below it what is left has at most 53 digits
  by_cases hbig : k ≤ spacing units
  · rw [Nat.div_mul_cancel (Nat.dvd_trans (Nat.pow_dvd_pow 2 hbig) h)]
    exact h
  · have hle : units / 2 ^ k * 2 ^ k ≤ units := Nat.div_mul_le_self _ _
    have hspacing : spacing (units / 2 ^ k * 2 ^ k) ≤ k := by
      have hmono := spacing_mono hle
      omega
    exact Nat.dvd_trans (Nat.pow_dvd_pow 2 hspacing) (Nat.dvd_mul_left _ _)

theorem fits_floor {units : Nat} (h : Fits units) : Fits (units / unitsPerOne * unitsPerOne) := by
  obtain ⟨hlimit, hdvd⟩ := fits_iff.mp h
  have hle : units / unitsPerOne * unitsPerOne ≤ units := Nat.div_mul_le_self _ _
  refine fits_iff.mpr ⟨Nat.lt_of_le_of_lt hle hlimit, ?_⟩
  obtain ⟨k, hk⟩ := unitsPerOne_pow
  rw [hk]
  exact pow_spacing_dvd_floor k hdvd

theorem isFinite_ofInt_of_natAbs {i : Int} (h : Fits (i.natAbs * unitsPerOne)) :
    (ofInt i).isFinite = true := by
  refine isFinite_ofInt_iff.mpr ?_
  rw [roundUnits_of_dvd (fits_iff.mp h).2]
  exact h

/-- What is left of a double without its fraction converts to a double. -/
theorem isFinite_ofInt_truncate {x : Double} {i : Int} (h : x.truncate = .ok i) :
    (ofInt i).isFinite = true := by
  cases x with
  | finite s units fits =>
    have hi : i.natAbs = units / unitsPerOne := by
      simp only [truncate, floorAbs, bind, Except.bind, pure, Except.pure, Except.ok.injEq] at h
      subst h
      split
      · exact (Int.natAbs_neg _).trans (Int.natAbs_natCast _)
      · exact Int.natAbs_natCast _
    apply isFinite_ofInt_of_natAbs
    rw [hi]
    exact fits_floor fits
  | infinite s => cases h
  | nan => cases h

end Double

/-! ## Reading a written number -/

namespace Numeral

theorem pow_le_pow {a b j k : Nat} (ha : 0 < a) (hab : a ≤ b) (hjk : j ≤ k) :
    Nat.pow a j ≤ Nat.pow b k :=
  Nat.le_trans (Nat.pow_le_pow_left hab j) (Nat.pow_le_pow_right (Nat.lt_of_lt_of_le ha hab) hjk)

/-- A number that converts to a double has fewer digits than may be read. -/
theorem length_ofNat_lt {i : Int} (h : (Double.ofInt i).isFinite = true) :
    (ofNat i.natAbs).length < maxDigits := by
  refine Nat.lt_succ_of_le ((length_ofNat_le_iff (k := maxDigits - 1) (by decide)).mpr ?_)
  refine Nat.lt_of_lt_of_le (Double.natAbs_lt_of_isFinite_ofInt h) ?_
  apply pow_le_pow (by decide) (by decide)
  decide

theorem length_ofNat_le {i : Int} (h : (Double.ofInt i).isFinite = true) :
    (ofNat i.natAbs).length ≤ maxDigits := Nat.le_of_lt (length_ofNat_lt h)

theorem ofInt_eq (i : Int) :
    ofInt i = if i < 0 then CodePoint.ofChar '-' :: ofNat i.natAbs else ofNat i.natAbs := by
  cases i with
  | ofNat n => rfl
  | negSucc n => simp [ofInt, Int.negSucc_lt_zero]

/-- A code point that a written whole number may hold. -/
def isNumberPoint (c : CodePoint) : Bool := c.isDigit || c = CodePoint.ofChar '-'

theorem isNumberPoint_of_mem_ofInt {i : Int} {c : CodePoint} (h : c ∈ ofInt i) :
    isNumberPoint c = true := by
  rw [ofInt_eq] at h
  split at h
  · rcases List.mem_cons.mp h with rfl | h
    · simp [isNumberPoint]
    · simp [isNumberPoint, isDigit_of_mem_ofNat h]
  · simp [isNumberPoint, isDigit_of_mem_ofNat h]

theorem length_ofInt_le {i : Int} (h : (Double.ofInt i).isFinite = true) :
    (ofInt i).length ≤ maxDigits := by
  have hlength := length_ofNat_lt h
  rw [ofInt_eq]
  split
  · exact hlength
  · exact Nat.le_of_lt hlength

theorem ofInt_ne_nil (i : Int) : ofInt i ≠ [] := by
  rw [ofInt_eq]
  split
  · exact List.cons_ne_nil _ _
  · exact ofNat_ne_nil _

end Numeral

namespace Json

theorem splitWhole_ofNat (n : Nat) : splitWhole (Numeral.ofNat n) = (Numeral.ofNat n, []) := by
  by_cases hn : n = 0
  · subst hn
    rw [Numeral.ofNat_zero]
    rfl
  · obtain ⟨c, rest, he, hc⟩ := Numeral.head_ofNat_ne_zero (Nat.pos_of_ne_zero hn)
    have hspan := Numeral.span_digits (fun c h => Numeral.isDigit_of_mem_ofNat (n := n) h) [] nofun
    rw [List.append_nil, he] at hspan
    rw [he]
    simp only [splitWhole, if_neg hc, hspan]

theorem readNumber_ofNat (n : Nat) :
    readNumber (Numeral.ofNat n) = (readInteger false (Numeral.ofNat n)).map .integer := by
  obtain ⟨c, rest, he⟩ := List.exists_cons_of_ne_nil (Numeral.ofNat_ne_nil n)
  have hdigit : c.isDigit = true :=
    Numeral.isDigit_of_mem_ofNat (n := n) (by rw [he]; exact List.mem_cons_self)
  have hsign : c ≠ CodePoint.ofChar '-' := by
    rintro rfl
    exact absurd hdigit (by decide)
  have hwhole := splitWhole_ofNat n
  rw [he] at hwhole ⊢
  simp only [readNumber, if_neg hsign, hwhole]
  cases readInteger false (c :: rest) <;> rfl

theorem readNumber_neg_ofNat (n : Nat) :
    readNumber (CodePoint.ofChar '-' :: Numeral.ofNat n) =
      (readInteger true (Numeral.ofNat n)).map .integer := by
  obtain ⟨c, rest, he⟩ := List.exists_cons_of_ne_nil (Numeral.ofNat_ne_nil n)
  have hwhole := splitWhole_ofNat n
  rw [he] at hwhole ⊢
  simp only [readNumber, if_true, hwhole]
  cases readInteger true (c :: rest) <;> rfl

theorem readNumber_ofInt (i : Int) :
    readNumber (Numeral.ofInt i) =
      (readInteger (decide (i < 0)) (Numeral.ofNat i.natAbs)).map .integer := by
  rw [Numeral.ofInt_eq]
  split
  · rename_i hneg
    rw [readNumber_neg_ofNat, decide_eq_true hneg]
  · rename_i hpos
    rw [readNumber_ofNat, decide_eq_false hpos]

theorem readInteger_ofNat_natAbs {i : Int}
    (h : (Numeral.ofNat i.natAbs).length ≤ Numeral.maxDigits) :
    readInteger (decide (i < 0)) (Numeral.ofNat i.natAbs) = .ok i := by
  simp only [readInteger, Numeral.read, if_pos h, Numeral.value_ofNat, decide_eq_true_eq]
  split
  · rename_i hneg
    rw [Int.ofNat_natAbs_of_nonpos (Int.le_of_lt hneg), Int.neg_neg]
  · rename_i hpos
    rw [Int.natAbs_of_nonneg (Int.not_lt.mp hpos)]

theorem readInteger_long {digits : Text} (h : Numeral.maxDigits < digits.length) (negative : Bool) :
    readInteger negative digits = .error (.numeralTooLong ⟨digits.length⟩) := by
  simp only [readInteger, Numeral.read, if_neg (Nat.not_le.mpr h)]

/-- No word is made of digits and signs only. -/
theorem ne_of_isNumberPoint {t : Text} (ht : ∀ c ∈ t, Numeral.isNumberPoint c = true) (word : Text)
    (hword : word.all Numeral.isNumberPoint = false) : t ≠ word := by
  rintro rfl
  rw [List.all_eq_true.mpr ht] at hword
  exact absurd hword (by decide)

theorem readScalar_ofInt (i : Int) :
    readScalar (Numeral.ofInt i) =
      (readInteger (decide (i < 0)) (Numeral.ofNat i.natAbs)).map .integer := by
  have hne := ne_of_isNumberPoint fun c hc => Numeral.isNumberPoint_of_mem_ofInt (i := i) hc
  unfold readScalar
  rw [if_neg (hne _ (by decide)), if_neg (hne _ (by decide)), if_neg (hne _ (by decide)),
    if_neg (hne _ (by decide)), if_neg (hne _ (by decide)), if_neg (hne _ (by decide))]
  exact readNumber_ofInt i

end Json

end WindowLayouts
