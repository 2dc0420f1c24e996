import WindowLayouts.Proofs.Numerals

/- Rounding to the nearest double, told without computing it. On the grid of the doubles, taken as
   if there were no largest one, a fraction is rounded to the point that is nearest to it, and of
   two that are equally near to the one whose last binary digit is zero; what does not fit is
   infinite. There is exactly one such double, and it is the one that is computed.

     `Double.NearestUnits`         the nearest point of the grid
     `Double.nearestUnits_iff`     it is what rounding gives
     `Double.IsNearest`            the double nearest to a fraction
     `Double.isNearest_iff`        it is what the quotient of two numbers is
     `Decimal.toDouble_eq`         the shortcuts for very large and very small decimals are right -/
namespace WindowLayouts

namespace Double

/-! ## The grid -/

/-- The magnitudes of the doubles, if there were no largest one: 53 binary digits and zeros. -/
def OnGrid (units : Nat) : Prop := 2 ^ spacing units ∣ units

/-- The 53 binary digits of a magnitude. -/
def digits (units : Nat) : Nat := units / 2 ^ spacing units

/-- How far a number of units is from a fraction, in parts of its denominator. -/
def distance (n d units : Nat) : Nat := ((units * d : Nat) - (n : Int)).natAbs

/-- The point of the grid nearest to a fraction of units. If another one is as near, the last digit
    of this one is zero. -/
structure NearestUnits (n d units : Nat) : Prop where
  onGrid : OnGrid units
  nearest : ∀ other, OnGrid other → distance n d units ≤ distance n d other
  even : ∀ other, OnGrid other → other ≠ units → distance n d other = distance n d units →
    digits units % 2 = 0

theorem spacing_le_of_lt {units k : Nat} (h : units < 2 ^ (k + 53)) : spacing units ≤ k := by
  unfold spacing
  by_cases hzero : units = 0
  · subst hzero
    simp
  · have hlog := (Nat.log2_lt hzero).mpr h
    omega

theorem le_spacing_of_le {units k : Nat} (h : 2 ^ (k + 52) ≤ units) : k ≤ spacing units := by
  have hzero : units ≠ 0 := by
    have hpos : 0 < 2 ^ (k + 52) := Nat.pow_pos (by decide)
    omega
  have hlog := (Nat.le_log2 hzero).mpr h
  unfold spacing
  omega

/-- At most 53 digits and any number of zeros are on the grid. -/
theorem onGrid_mul {k s : Nat} (h : k ≤ 2 ^ 53) : OnGrid (k * 2 ^ s) := by
  unfold OnGrid
  rcases Nat.lt_or_eq_of_le h with hlt | rfl
  · have hsmall : k * 2 ^ s < 2 ^ (s + 53) := by
      rw [Nat.pow_add, Nat.mul_comm (2 ^ s)]
      exact Nat.mul_lt_mul_of_pos_right hlt (Nat.pow_pos (by decide))
    exact Nat.dvd_trans (Nat.pow_dvd_pow 2 (spacing_le_of_lt hsmall)) (Nat.dvd_mul_left _ _)
  · rw [← Nat.pow_add]
    apply Nat.pow_dvd_pow 2
    unfold spacing
    rw [Nat.log2_two_pow]
    omega

/-- The last digit of a magnitude with its digits written out. -/
theorem digits_mul_even {k s : Nat} (h : k ≤ 2 ^ 53) (hfull : s = 0 ∨ 2 ^ 52 ≤ k) :
    digits (k * 2 ^ s) % 2 = 0 ↔ k % 2 = 0 := by
  have hpos : 0 < 2 ^ s := Nat.pow_pos (by decide)
  unfold digits
  rcases Nat.lt_or_eq_of_le h with hlt | rfl
  · have hspacing : spacing (k * 2 ^ s) = s := by
      apply Nat.le_antisymm
      · apply spacing_le_of_lt
        rw [Nat.pow_add, Nat.mul_comm (2 ^ s)]
        exact Nat.mul_lt_mul_of_pos_right hlt hpos
      · rcases hfull with rfl | hfull
        · exact Nat.zero_le _
        · apply le_spacing_of_le
          rw [Nat.pow_add, Nat.mul_comm (2 ^ s)]
          exact Nat.mul_le_mul_right _ hfull
    rw [hspacing, Nat.mul_div_cancel k hpos]
  · -- the next power of two, which has one digit more to spare
    have hspacing : spacing (2 ^ 53 * 2 ^ s) = s + 1 := by
      unfold spacing
      rw [← Nat.pow_add, Nat.log2_two_pow]
      omega
    have hhalf : 2 ^ 53 * 2 ^ s = 2 ^ 52 * 2 ^ (s + 1) := by
      rw [Nat.pow_succ 2 s]
      omega
    rw [hspacing, hhalf, Nat.mul_div_cancel _ (Nat.pow_pos (by decide))]
    decide

/-! ## The two points around a fraction -/

section Around

variable (n d : Nat)

/-- The zeros after the digits of a magnitude near a fraction. -/
def zeros : Nat := spacing (n / d)

/-- The digits of the point of the grid below a fraction. -/
def lowDigits : Nat := n / (d * 2 ^ zeros n d)

/-- What is missing from the point below to the fraction, in parts of the denominator. -/
def excess : Nat := n % (d * 2 ^ zeros n d)

theorem lowDigits_lt : lowDigits n d < 2 ^ 53 := by
  have hlt : n / d < 2 ^ 53 * 2 ^ zeros n d := by
    rw [← Nat.pow_add]
    apply Nat.lt_of_lt_of_le Nat.lt_log2_self
    apply Nat.pow_le_pow_right (by decide)
    unfold zeros spacing
    omega
  rw [lowDigits, ← Nat.div_div_eq_div_mul]
  exact (Nat.div_lt_iff_lt_mul (Nat.pow_pos (by decide))).mpr hlt

theorem zeros_eq_zero_or : zeros n d = 0 ∨ 2 ^ 52 ≤ lowDigits n d := by
  by_cases h : zeros n d = 0
  · exact Or.inl h
  · right
    have hlog : Nat.log2 (n / d) = 52 + zeros n d := by
      unfold zeros spacing at h ⊢
      omega
    have hne : n / d ≠ 0 := by
      intro hzero
      rw [hzero, Nat.log2_zero] at hlog
      omega
    have hle : 2 ^ 52 * 2 ^ zeros n d ≤ n / d := by
      rw [← Nat.pow_add, ← hlog]
      exact Nat.log2_self_le hne
    rw [lowDigits, ← Nat.div_div_eq_div_mul]
    exact (Nat.le_div_iff_mul_le (Nat.pow_pos (by decide))).mpr hle

theorem eq_low_add_excess : n = lowDigits n d * 2 ^ zeros n d * d + excess n d := by
  have h := Nat.div_add_mod n (d * 2 ^ zeros n d)
  unfold lowDigits excess
  rw [Nat.mul_assoc, Nat.mul_comm (2 ^ _) d, Nat.mul_comm]
  exact h.symm

variable {n d}

/-- No point of the grid lies between the two. -/
theorem OnGrid.le_or_le {v : Nat} (h : OnGrid v) :
    v ≤ lowDigits n d * 2 ^ zeros n d ∨ (lowDigits n d + 1) * 2 ^ zeros n d ≤ v := by
  have hpos : 0 < 2 ^ zeros n d := Nat.pow_pos (by decide)
  by_cases hle : v ≤ lowDigits n d * 2 ^ zeros n d
  · exact Or.inl hle
  · right
    have hdvd : 2 ^ zeros n d ∣ v := by
      rcases zeros_eq_zero_or n d with hzero | hfull
      · rw [hzero]
        exact Nat.one_dvd v
      · -- above the lower point the digits of the grid begin no later
        have hbig : 2 ^ (zeros n d + 52) ≤ v := by
          calc 2 ^ (zeros n d + 52) = 2 ^ 52 * 2 ^ zeros n d := by
                rw [Nat.pow_add, Nat.mul_comm]
            _ ≤ lowDigits n d * 2 ^ zeros n d := Nat.mul_le_mul_right _ hfull
            _ ≤ v := Nat.le_of_not_le hle
        exact Nat.dvd_trans (Nat.pow_dvd_pow 2 (le_spacing_of_le hbig)) h
    obtain ⟨m, rfl⟩ := hdvd
    rw [Nat.mul_comm _ m] at hle ⊢
    have hlt : lowDigits n d < m := by
      by_contra hnot
      exact hle (Nat.mul_le_mul_right _ (Nat.le_of_not_lt hnot))
    exact Nat.mul_le_mul_right _ hlt

/-- How far the points of the grid are: the two around the fraction are the nearest on their
    side. -/
theorem OnGrid.distance_cases (hd : 0 < d) {v : Nat} (h : OnGrid v) :
    (v = lowDigits n d * 2 ^ zeros n d ∧ distance n d v = excess n d) ∨
    (v = (lowDigits n d + 1) * 2 ^ zeros n d ∧
      distance n d v + excess n d = d * 2 ^ zeros n d) ∨
    excess n d < distance n d v ∧ v < lowDigits n d * 2 ^ zeros n d ∨
    d * 2 ^ zeros n d < distance n d v + excess n d ∧
      (lowDigits n d + 1) * 2 ^ zeros n d < v := by
  have hexcess : excess n d < d * 2 ^ zeros n d :=
    Nat.mod_lt n (Nat.mul_pos hd (Nat.pow_pos (by decide)))
  have hn := eq_low_add_excess n d
  have hside := h.le_or_le (n := n) (d := d)
  have hhigh : (lowDigits n d + 1) * 2 ^ zeros n d =
      lowDigits n d * 2 ^ zeros n d + 2 ^ zeros n d := Nat.succ_mul _ _
  rw [hhigh] at hside ⊢
  unfold distance
  generalize lowDigits n d * 2 ^ zeros n d = low at hn hside ⊢
  generalize 2 ^ zeros n d = step at hexcess hside ⊢
  generalize excess n d = rest at hn hexcess ⊢
  have hnext : ∀ {a b : Nat}, a < b → a * d + d ≤ b * d := by
    intro a b hab
    rw [← Nat.succ_mul]
    exact Nat.mul_le_mul_right d hab
  have hstep : (low + step) * d = low * d + d * step := by rw [Nat.add_mul, Nat.mul_comm step]
  rcases hside with hle | hge
  · rcases Nat.eq_or_lt_of_le hle with rfl | hlt
    · left
      omega
    · have hbelow := hnext hlt
      right; right; left
      omega
  · rcases Nat.eq_or_lt_of_le hge with rfl | hlt
    · right; left
      refine ⟨rfl, ?_⟩
      omega
    · have habove := hnext hlt
      right; right; right
      omega

/-! ## The nearest point -/

/-- Which of the two points rounding gives. -/
theorem roundUnits_cases (n d : Nat) :
    (2 * excess n d < d * 2 ^ zeros n d ∧ roundUnits n d = lowDigits n d * 2 ^ zeros n d) ∨
    (d * 2 ^ zeros n d < 2 * excess n d ∧
      roundUnits n d = (lowDigits n d + 1) * 2 ^ zeros n d) ∨
    (2 * excess n d = d * 2 ^ zeros n d ∧
      roundUnits n d = (lowDigits n d + lowDigits n d % 2) * 2 ^ zeros n d) := by
  have hround : roundUnits n d = nearestEven n (d * 2 ^ zeros n d) * 2 ^ zeros n d := rfl
  rw [hround]
  unfold nearestEven
  dsimp only
  split
  · rename_i hbelow
    exact Or.inl ⟨hbelow, rfl⟩
  · split
    · rename_i habove
      exact Or.inr (Or.inl ⟨habove, rfl⟩)
    · rename_i hnotBelow hnotAbove
      exact Or.inr (Or.inr ⟨Nat.le_antisymm (Nat.le_of_not_lt hnotAbove)
        (Nat.le_of_not_lt hnotBelow), rfl⟩)

theorem onGrid_low (n d : Nat) : OnGrid (lowDigits n d * 2 ^ zeros n d) :=
  onGrid_mul (Nat.le_of_lt (lowDigits_lt n d))

theorem onGrid_high (n d : Nat) : OnGrid ((lowDigits n d + 1) * 2 ^ zeros n d) :=
  onGrid_mul (lowDigits_lt n d)

/-- The last digits of the two points. -/
theorem digits_low_even (n d : Nat) :
    digits (lowDigits n d * 2 ^ zeros n d) % 2 = 0 ↔ lowDigits n d % 2 = 0 :=
  digits_mul_even (Nat.le_of_lt (lowDigits_lt n d)) (zeros_eq_zero_or n d)

theorem digits_high_even (n d : Nat) :
    digits ((lowDigits n d + 1) * 2 ^ zeros n d) % 2 = 0 ↔ (lowDigits n d + 1) % 2 = 0 :=
  digits_mul_even (lowDigits_lt n d) ((zeros_eq_zero_or n d).imp_right Nat.le_succ_of_le)

theorem low_lt_high (n d : Nat) :
    lowDigits n d * 2 ^ zeros n d < (lowDigits n d + 1) * 2 ^ zeros n d :=
  Nat.mul_lt_mul_of_pos_right (Nat.lt_succ_self _) (Nat.pow_pos (by decide))

theorem distance_low (hd : 0 < d) :
    distance n d (lowDigits n d * 2 ^ zeros n d) = excess n d := by
  have hlt := low_lt_high n d
  rcases (onGrid_low n d).distance_cases (n := n) hd with h | h | h | h <;> omega

theorem distance_high (hd : 0 < d) :
    distance n d ((lowDigits n d + 1) * 2 ^ zeros n d) + excess n d = d * 2 ^ zeros n d := by
  have hlt := low_lt_high n d
  rcases (onGrid_high n d).distance_cases (n := n) hd with h | h | h | h <;> omega

/-- Rounding gives the nearest point. -/
theorem nearestUnits_roundUnits (hd : 0 < d) (n : Nat) : NearestUnits n d (roundUnits n d) := by
  have hlt := low_lt_high n d
  have hbelow := distance_low (n := n) hd
  have habove := distance_high (n := n) hd
  rcases roundUnits_cases n d with ⟨hless, hround⟩ | ⟨hmore, hround⟩ | ⟨htie, hround⟩
  · rw [hround]
    refine ⟨onGrid_low n d, ?_, ?_⟩
    · intro other hother
      rcases hother.distance_cases (n := n) hd with h | h | h | h <;> omega
    · intro other hother hne hsame
      rcases hother.distance_cases (n := n) hd with h | h | h | h <;> omega
  · rw [hround]
    refine ⟨onGrid_high n d, ?_, ?_⟩
    · intro other hother
      rcases hother.distance_cases (n := n) hd with h | h | h | h <;> omega
    · intro other hother hne hsame
      rcases hother.distance_cases (n := n) hd with h | h | h | h <;> omega
  · -- both are as near, and the one with even digits is taken
    rcases Nat.mod_two_eq_zero_or_one (lowDigits n d) with heven | hodd
    · rw [hround, heven, Nat.add_zero]
      refine ⟨onGrid_low n d, ?_, fun _ _ _ _ => (digits_low_even n d).mpr heven⟩
      intro other hother
      rcases hother.distance_cases (n := n) hd with h | h | h | h <;> omega
    · rw [hround, hodd]
      refine ⟨onGrid_high n d, ?_, fun _ _ _ _ => (digits_high_even n d).mpr (by omega)⟩
      intro other hother
      rcases hother.distance_cases (n := n) hd with h | h | h | h <;> omega

/-- There is one nearest point. -/
theorem NearestUnits.eq_roundUnits (hd : 0 < d) {units : Nat} (h : NearestUnits n d units) :
    units = roundUnits n d := by
  have hlow := h.nearest _ (onGrid_low n d)
  have hhigh := h.nearest _ (onGrid_high n d)
  have hlt := low_lt_high n d
  have hbelow := distance_low (n := n) hd
  have habove := distance_high (n := n) hd
  rcases h.onGrid.distance_cases (n := n) hd with
    ⟨hunits, hdistance⟩ | ⟨hunits, hdistance⟩ | hfar | hfar
  · rcases roundUnits_cases n d with ⟨-, hround⟩ | ⟨hmore, -⟩ | ⟨htie, hround⟩
    · rw [hunits, hround]
    · omega
    · have heven := h.even _ (onGrid_high n d) (by omega) (by omega)
      rw [hunits, digits_low_even] at heven
      rw [hunits, hround, heven, Nat.add_zero]
  · rcases roundUnits_cases n d with ⟨hless, -⟩ | ⟨-, hround⟩ | ⟨htie, hround⟩
    · omega
    · rw [hunits, hround]
    · have heven := h.even _ (onGrid_low n d) (by omega) (by omega)
      rw [hunits, digits_high_even] at heven
      have hodd : lowDigits n d % 2 = 1 := by omega
      rw [hunits, hround, hodd]
  · omega
  · omega

theorem nearestUnits_iff (hd : 0 < d) {units : Nat} :
    NearestUnits n d units ↔ units = roundUnits n d := by
  constructor
  · exact NearestUnits.eq_roundUnits hd
  · rintro rfl
    exact nearestUnits_roundUnits hd n

end Around

/-! ## The nearest double -/

/-- The double nearest to the fraction of two natural numbers, with a sign. Where the nearest point
    of the grid is beyond the largest double it is infinite. -/
inductive IsNearest (negative : Bool) (n d : Nat) : Double → Prop where
  | finite {units : Nat} (fits : Fits units) (nearest : NearestUnits (n * unitsPerOne) d units) :
    IsNearest negative n d (.finite negative units fits)
  | infinite {units : Nat} (limit : unitLimit ≤ units)
    (nearest : NearestUnits (n * unitsPerOne) d units) :
    IsNearest negative n d (.infinite negative)

theorem fits_iff_of_onGrid {units : Nat} (h : OnGrid units) :
    Fits units ↔ ¬ unitLimit ≤ units := by
  rw [fits_iff, Nat.not_le]
  exact and_iff_left h

/-- The nearest double is the one that is computed. -/
theorem isNearest_iff {negative : Bool} {n d : Nat} (hd : 0 < d) {x : Double} :
    IsNearest negative n d x ↔ x = ofRatio negative n d := by
  have hnearest := nearestUnits_roundUnits hd (n * unitsPerOne)
  unfold ofRatio ofUnits
  dsimp only
  constructor
  · rintro (⟨hfits, h⟩ | ⟨hlimit, h⟩)
    · obtain rfl := (nearestUnits_iff hd).mp h
      rw [dif_pos hfits]
    · obtain rfl := (nearestUnits_iff hd).mp h
      have hnot : ¬ Fits (roundUnits (n * unitsPerOne) d) := by
        rw [fits_iff_of_onGrid h.onGrid, not_not]
        exact hlimit
      rw [dif_neg hnot]
  · intro hx
    rw [hx]
    split
    · rename_i hfits
      exact .finite hfits hnearest
    · rename_i hnot
      rw [fits_iff_of_onGrid hnearest.onGrid, not_not] at hnot
      exact .infinite hnot hnearest

/-! ## Fractions that are certain to vanish or to be infinite -/

/-- Less than half a unit is rounded to zero. -/
theorem roundUnits_of_lt {n d : Nat} (h : 2 * n < d) : roundUnits n d = 0 := by
  have hd : 0 < d := Nat.lt_of_le_of_lt (Nat.zero_le _) h
  have hzero : n / d = 0 := Nat.div_eq_of_lt (by omega)
  have hzeros : zeros n d = 0 := by
    unfold zeros spacing
    rw [hzero, Nat.log2_zero]
  have hlow : lowDigits n d = 0 := by
    unfold lowDigits
    rw [hzeros, Nat.pow_zero, Nat.mul_one, hzero]
  have hexcess : excess n d = n := by
    unfold excess
    rw [hzeros, Nat.pow_zero, Nat.mul_one]
    exact Nat.mod_eq_of_lt (by omega)
  rcases roundUnits_cases n d with ⟨-, hround⟩ | ⟨hmore, -⟩ | ⟨htie, -⟩
  · rw [hround, hlow, Nat.zero_mul]
  · rw [hexcess, hzeros, Nat.pow_zero, Nat.mul_one] at hmore
    omega
  · rw [hexcess, hzeros, Nat.pow_zero, Nat.mul_one] at htie
    omega

theorem ofRatio_eq_zero {n d : Nat} (negative : Bool) (h : 2 * (n * unitsPerOne) < d) :
    ofRatio negative n d = zero negative := by
  have hzero : roundUnits 0 1 = 0 := roundUnits_of_lt (by decide)
  unfold ofRatio zero ofUnits
  rw [roundUnits_of_lt h, hzero]

theorem pow_mul_pow {a b c : Nat} (h : a + b = c) : 2 ^ a * Nat.pow 2 b = 2 ^ c := by
  rw [Nat.pow_eq, ← Nat.pow_add, h]

theorem pow_mul_unitsPerOne (k : Nat) : 2 ^ k * unitsPerOne = 2 ^ (k + 1074) := by
  unfold unitsPerOne
  apply pow_mul_pow
  rfl

theorem ofRatio_eq_infinite {n : Nat} (negative : Bool) (h : Nat.pow 2 1025 ≤ n) :
    ofRatio negative n 1 = .infinite negative := by
  have hlimit : 2 * unitLimit ≤ n * unitsPerOne := by
    rw [two_mul_unitLimit]
    generalize Nat.pow 2 1025 = large at h
    exact Nat.mul_le_mul_right _ h
  have hpos : n * unitsPerOne ≠ 0 := by
    have hn : 0 < n := by
      apply Nat.lt_of_lt_of_le _ h
      apply two_pow_pos
    exact Nat.ne_of_gt (Nat.mul_pos hn unitsPerOne_pos)
  have hround := lt_two_mul_roundUnits hpos
  have hnot : ¬ Fits (roundUnits (n * unitsPerOne) 1) := by
    rw [fits_iff_of_onGrid (nearestUnits_roundUnits (by decide) _).onGrid, not_not]
    generalize n * unitsPerOne = m at hlimit hround
    generalize unitLimit = limit at hlimit ⊢
    omega
  unfold ofRatio ofUnits
  rw [dif_neg hnot]

end Double

namespace Decimal

/-! ## Decimals -/

/-- Ten is more than two to the third. -/
theorem two_pow_le_ten_pow (k : Nat) : 2 ^ (3 * k) ≤ 10 ^ k := by
  rw [Nat.pow_mul]
  exact Nat.pow_le_pow_left (by decide) k

theorem ofRatio_zero (negative : Bool) {d : Nat} (hd : 0 < d) :
    Double.ofRatio negative 0 d = Double.zero negative := by
  apply Double.ofRatio_eq_zero
  rw [Nat.zero_mul]
  exact hd

theorem ofRatio_large (negative : Bool) {digits e : Nat} (hzero : digits ≠ 0)
    (h : 1100 < Nat.log2 digits + 3 * e) :
    Double.ofRatio negative (digits * 10 ^ e) 1 = .infinite negative := by
  apply Double.ofRatio_eq_infinite
  have hexponent : 1025 ≤ Nat.log2 digits + 3 * e := by omega
  generalize 1025 = large at hexponent ⊢
  calc Nat.pow 2 large ≤ 2 ^ (Nat.log2 digits + 3 * e) :=
        Nat.pow_le_pow_right (by decide) hexponent
    _ = 2 ^ Nat.log2 digits * 2 ^ (3 * e) := Nat.pow_add _ _ _
    _ ≤ digits * 10 ^ e := Nat.mul_le_mul (Nat.log2_self_le hzero) (two_pow_le_ten_pow e)

theorem ofRatio_small (negative : Bool) {digits e : Nat} (h : Nat.log2 digits + 1101 < 3 * e) :
    Double.ofRatio negative digits (10 ^ e) = Double.zero negative := by
  apply Double.ofRatio_eq_zero
  have hdigits : digits < 2 ^ (Nat.log2 digits + 1) := Nat.lt_log2_self
  calc 2 * (digits * Double.unitsPerOne)
      < 2 * (2 ^ (Nat.log2 digits + 1) * Double.unitsPerOne) :=
        Nat.mul_lt_mul_of_pos_left
          (Nat.mul_lt_mul_of_pos_right hdigits Double.unitsPerOne_pos) (by decide)
    _ = 2 ^ (Nat.log2 digits + 1 + 1074 + 1) := by
        rw [Double.pow_mul_unitsPerOne, Nat.mul_comm]
        exact (Nat.pow_succ ..).symm
    _ ≤ 2 ^ (3 * e) := Nat.pow_le_pow_right (by decide) (by omega)
    _ ≤ 10 ^ e := two_pow_le_ten_pow e

/-- The shortcuts are right: a decimal is the nearest double of its fraction, whatever its power of
    ten is. -/
theorem toDouble_eq (negative : Bool) (digits : Nat) (exponent : Int) :
    toDouble negative digits exponent =
      match exponent with
      | .ofNat e => Double.ofRatio negative (digits * 10 ^ e) 1
      | .negSucc e => Double.ofRatio negative digits (10 ^ (e + 1)) := by
  unfold toDouble
  by_cases hzero : digits = 0
  · rw [if_pos hzero, hzero]
    cases exponent with
    | ofNat e =>
      dsimp only
      rw [Nat.zero_mul, ofRatio_zero negative Nat.one_pos]
    | negSucc e => exact (ofRatio_zero negative (Nat.pow_pos (by decide))).symm
  · rw [if_neg hzero]
    cases exponent with
    | ofNat e =>
      dsimp only
      split
      · rename_i hlarge
        exact (ofRatio_large negative hzero hlarge).symm
      · rfl
    | negSucc e =>
      dsimp only
      split
      · rename_i hsmall
        exact (ofRatio_small negative hsmall).symm
      · rfl

/-- Digits before and after a point are the double nearest to the number that they write. -/
theorem isNearest_ofParts (whole fraction : Text) :
    Double.IsNearest false (Numeral.value (whole ++ fraction)) (10 ^ fraction.length)
      (ofParts whole fraction) := by
  rw [Double.isNearest_iff (Nat.pow_pos (by decide)), ofParts, Numeral.valueByHalves_eq,
    toDouble_eq]
  cases fraction with
  | nil => exact congrArg (fun n => Double.ofRatio false n 1) (Nat.mul_one _)
  | cons c rest => rfl

end Decimal

end WindowLayouts
