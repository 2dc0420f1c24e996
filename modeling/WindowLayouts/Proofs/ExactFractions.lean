import WindowLayouts.Proofs.NearestWhole

/- Fractions of whole sizes. Their quotient is rounded twice, to the nearest double and then to the
   nearest whole number, and the first rounding could take it from just below a half up to that
   half. It does not while the product of size and numerator is less than 2^52. What a quotient is
   short of a half is at least one part of twice its denominator; to be rounded up to the half it
   would have to be so near that the denominator is large, and with a large denominator such a
   product gives a quotient that is smaller than the half by far.

     `Double.lt_midpoint_of_lt_half`   the gap below a half
     `Double.roundUnits_lt_half`       so no quotient is rounded up to a half
     `Double.nearestUp_roundUnits`     rounding twice gives what rounding once gives
     `Expr.fraction_rounds_exactly`    the fractions of whole sizes -/
namespace WindowLayouts

namespace Double

variable {k m n d p : Nat}

/-! ## A point of the grid below a half -/

/-- A fraction that is rounded up to a point, or past it, is at least half way to it from every
    point of the grid below. -/
theorem midpoint_le_of_le_roundUnits {low high : Nat} (hd : 0 < d) (hlow : OnGrid low)
    (hlt : low < high) (hn : n < high * d) (h : high ≤ roundUnits n d) :
    low * d + high * d ≤ 2 * n := by
  have hnearest := (nearestUnits_roundUnits hd n).nearest low hlow
  have hbelow : low * d < high * d := Nat.mul_lt_mul_of_pos_right hlt hd
  have habove : high * d ≤ roundUnits n d * d := Nat.mul_le_mul_right d h
  unfold distance at hnearest
  omega

/-- Every number of halves has 53 binary digits with some zeros after them. -/
theorem exists_scale (hpos : 0 < k) (hk : k ≤ 2 ^ 53) :
    ∃ zeros ≤ 53, k * 2 ^ zeros ≤ 2 ^ 53 ∧ 2 ^ 53 < 2 * (k * 2 ^ zeros) := by
  have hone : 1 ≤ 2 ^ 53 / k := (Nat.one_le_div_iff hpos).mpr hk
  have hle : k * 2 ^ Nat.log2 (2 ^ 53 / k) ≤ 2 ^ 53 := by
    calc k * 2 ^ Nat.log2 (2 ^ 53 / k) ≤ k * (2 ^ 53 / k) :=
          Nat.mul_le_mul_left k (Nat.log2_self_le (by omega))
      _ ≤ 2 ^ 53 := Nat.mul_div_le _ _
  refine ⟨Nat.log2 (2 ^ 53 / k), ?_, hle, ?_⟩
  · apply (Nat.pow_le_pow_iff_right (a := 2) (by decide)).mp
    exact Nat.le_trans (Nat.le_mul_of_pos_left _ hpos) hle
  · have hlt : 2 ^ 53 / k < 2 ^ (Nat.log2 (2 ^ 53 / k) + 1) := Nat.lt_log2_self
    rw [Nat.div_lt_iff_lt_mul hpos, Nat.pow_succ] at hlt
    calc 2 ^ 53 < 2 ^ Nat.log2 (2 ^ 53 / k) * 2 * k := hlt
      _ = 2 * (k * 2 ^ Nat.log2 (2 ^ 53 / k)) := by ring

/-- The gap between a quotient and a half above it. Where the half is `k * p` points of the grid up,
    the quotient is less than half way to it from the point below. -/
theorem lt_midpoint_of_lt_half (hm : m < 2 ^ 52) (hscale : 2 ^ 53 < 2 * (k * p))
    (h : 2 * m < k * d) : 4 * (m * p) + d < 2 * (k * p * d) := by
  by_contra hnear
  -- the half is at least one part of the denominator above the quotient
  have hgap : 2 * (m * p) + p ≤ k * p * d := by
    calc 2 * (m * p) + p = (2 * m + 1) * p := by ring
      _ ≤ k * d * p := Nat.mul_le_mul_right p h
      _ = k * p * d := by ring
  have hwide : 2 * p ≤ d := by omega
  have hsmall : 2 ^ 53 * d ≤ 4 * (m * p) := by
    have hmul : (2 ^ 53 + 1) * d ≤ 2 * (k * p) * d := Nat.mul_le_mul_right d hscale
    have hassoc : 2 * (k * p) * d = 2 * (k * p * d) := Nat.mul_assoc _ _ _
    omega
  have hlarge : m * p < 2 ^ 52 * p := by
    apply Nat.mul_lt_mul_of_pos_right hm
    by_contra hzero
    obtain rfl : p = 0 := by omega
    omega
  omega

/-! ## Halves and rounding to doubles -/

theorem exists_two_pow_eq {exponent zeros : Nat} (h : zeros < exponent) :
    ∃ rest, Nat.pow 2 exponent = 2 * (2 ^ zeros * 2 ^ rest) := by
  refine ⟨exponent - 1 - zeros, ?_⟩
  rw [← Nat.pow_add, Nat.mul_comm, ← Nat.pow_succ, Nat.pow_eq]
  congr 1
  omega

/-- A half is a power of two of units. -/
theorem exists_unitsPerOne_eq {zeros : Nat} (h : zeros ≤ 53) :
    ∃ rest, unitsPerOne = 2 * (2 ^ zeros * 2 ^ rest) := by
  unfold unitsPerOne
  apply exists_two_pow_eq
  omega

/-- A quotient below a half that is `k * p` points of the grid up is rounded to a point below it. -/
theorem roundUnits_lt_half_of_onGrid {point : Nat} (hd : 0 < d) (hm : m < 2 ^ 52)
    (hscale : 2 ^ 53 < 2 * (k * p)) (hpoint : 0 < point) (hgrid : OnGrid ((k * p - 1) * point))
    (h : 2 * m < k * d) : 2 * roundUnits (m * (2 * (p * point))) d < k * (2 * (p * point)) := by
  by_contra hpast
  have hhigh : k * p * point ≤ roundUnits (m * (2 * (p * point))) d := by
    have htwice : k * (2 * (p * point)) = 2 * (k * p * point) := by ring
    omega
  have hlow : (k * p - 1) * point + point = k * p * point := by
    rw [← Nat.succ_mul]
    congr 1
    omega
  have hp : 0 < p := by
    by_contra hzero
    obtain rfl : p = 0 := by omega
    omega
  have hbelow : m * (2 * (p * point)) < k * p * point * d := by
    calc m * (2 * (p * point)) = 2 * m * (p * point) := by ring
      _ < k * d * (p * point) := Nat.mul_lt_mul_of_pos_right h (Nat.mul_pos hp hpoint)
      _ = k * p * point * d := by ring
  have hnear := midpoint_le_of_le_roundUnits hd hgrid (by omega) hbelow hhigh
  -- the gap, in units
  have hfar : (4 * (m * p) + d) * point < 2 * (k * p * d) * point :=
    Nat.mul_lt_mul_of_pos_right (lt_midpoint_of_lt_half hm hscale h) hpoint
  have hleft : (4 * (m * p) + d) * point = 2 * (m * (2 * (p * point))) + point * d := by ring
  have hright : 2 * (k * p * d) * point =
      (k * p - 1) * point * d + point * d + k * p * point * d := by
    rw [← Nat.add_mul, hlow]
    ring
  omega

/-- A quotient below a half is rounded to a double below it. -/
theorem roundUnits_lt_half (hd : 0 < d) (hk : k ≤ 2 ^ 53) (hm : m < 2 ^ 52) (h : 2 * m < k * d) :
    2 * roundUnits (m * unitsPerOne) d < k * unitsPerOne := by
  have hpos : 0 < k := Nat.pos_of_mul_pos_right (Nat.lt_of_le_of_lt (Nat.zero_le _) h)
  obtain ⟨zeros, hzeros, hle, hscale⟩ := exists_scale hpos hk
  obtain ⟨rest, hunits⟩ := exists_unitsPerOne_eq hzeros
  rw [hunits]
  exact roundUnits_lt_half_of_onGrid hd hm hscale (Nat.two_pow_pos _) (onGrid_mul (by omega)) h

/-- And a quotient that is not below a half to one that is not. -/
theorem half_le_roundUnits (hd : 0 < d) (hk : k ≤ 2 ^ 53) (h : k * d ≤ 2 * m) :
    k * unitsPerOne ≤ 2 * roundUnits (m * unitsPerOne) d := by
  obtain ⟨rest, hunits⟩ := exists_unitsPerOne_eq (Nat.zero_le 53)
  rw [hunits, Nat.pow_zero, Nat.one_mul]
  have hround : k * 2 ^ rest ≤ roundUnits (m * (2 * 2 ^ rest)) d := by
    apply le_roundUnits hd (onGrid_mul hk)
    calc k * 2 ^ rest * d = k * d * 2 ^ rest := Nat.mul_right_comm _ _ _
      _ ≤ 2 * m * 2 ^ rest := Nat.mul_le_mul_right _ h
      _ = m * (2 * 2 ^ rest) := by ring
  calc k * (2 * 2 ^ rest) = 2 * (k * 2 ^ rest) := Nat.mul_left_comm _ _ _
    _ ≤ 2 * roundUnits (m * (2 * 2 ^ rest)) d := Nat.mul_le_mul_left 2 hround

/-! ## Rounding twice -/

/-- Between the half below and the half above there is one whole number. -/
theorem nearestUp_eq (hd : 0 < d) (hlow : 2 * k * d ≤ 2 * n + d) (hhigh : 2 * n < (2 * k + 1) * d) :
    nearestUp n d = k := by
  obtain ⟨hlow', hhigh'⟩ := nearestUp_bounds n hd
  have hnearest := isNearestWhole_natCast hd hlow' hhigh'
  exact_mod_cast (isNearestWhole_natCast hd hlow hhigh).unique hnearest

theorem nearestUp_le (n : Nat) (hd : 0 < d) : nearestUp n d ≤ n := by
  obtain ⟨hlow, -⟩ := nearestUp_bounds n hd
  by_contra hpast
  have hfar : 2 * (n + 1) * d ≤ 2 * nearestUp n d * d :=
    Nat.mul_le_mul_right d (Nat.mul_le_mul_left 2 (Nat.lt_of_not_le hpast))
  have hsplit : 2 * (n + 1) * d = 2 * (n * d) + 2 * d := by ring
  have hle : n ≤ n * d := Nat.le_mul_of_pos_right n hd
  omega

/-- The whole number nearest to the double nearest to a quotient is the one nearest to the
    quotient. -/
theorem nearestUp_roundUnits (hd : 0 < d) (hm : m < 2 ^ 52) :
    nearestUp (roundUnits (m * unitsPerOne) d) unitsPerOne = nearestUp m d := by
  obtain ⟨hlow, hhigh⟩ := nearestUp_bounds m hd
  have hle := nearestUp_le m hd
  generalize nearestUp m d = i at hlow hhigh hle ⊢
  apply nearestUp_eq unitsPerOne_pos
  · -- the half below the whole number, if there is one
    cases i with
    | zero =>
      rw [Nat.mul_zero, Nat.zero_mul]
      exact Nat.zero_le _
    | succ j =>
      have hhalf : (2 * j + 1) * d ≤ 2 * m := by
        have hsplit : 2 * (j + 1) * d = (2 * j + 1) * d + d := by ring
        omega
      have hround := half_le_roundUnits hd (by omega) hhalf
      have hsplit : 2 * (j + 1) * unitsPerOne = (2 * j + 1) * unitsPerOne + unitsPerOne := by ring
      rw [hsplit]
      exact Nat.add_le_add_right hround _
  · exact roundUnits_lt_half hd (by omega) hm hhigh

theorem ofRatio_of_fits (negative : Bool) (h : Fits (roundUnits (n * unitsPerOne) d)) :
    ofRatio negative n d = .finite negative (roundUnits (n * unitsPerOne) d) h := by
  rw [ofRatio, ofUnits]
  exact dif_pos h

/-! ## Quotients with signs -/

/-- The sign of a quotient is negative if one of the two numbers is. -/
def quotientSign (a d : Int) : Bool := decide (a < 0) != decide (d < 0)

theorem signed_div_natAbs (a d : Int) :
    ((signed (quotientSign a d) a.natAbs : Int) / d.natAbs : Rat) = a / d := by
  have habs : ∀ i : Int, |(i : Rat)| = if i < 0 then -(i : Rat) else i := by
    intro i
    split
    · rename_i hneg
      exact abs_of_neg (Int.cast_lt_zero.mpr hneg)
    · rename_i hnot
      exact abs_of_nonneg (Int.cast_nonneg (Int.not_lt.mp hnot))
  by_cases ha : a < 0 <;> by_cases hd : d < 0 <;>
    simp [quotientSign, signed, habs, ha, hd, neg_div, div_neg]

end Double

namespace Expr

open Double

/-- A quotient that is not too large is the nearest double. -/
theorem quotient_eq {a d : Int} (hd : d ≠ 0) (ha : a.natAbs ≤ 2 ^ 52) :
    ∃ fits, Size.quotient a d = .ok (.finite (quotientSign a d)
      (roundUnits (a.natAbs * unitsPerOne) d.natAbs) fits) := by
  have hpos : 0 < d.natAbs := Int.natAbs_pos.mpr hd
  have hwithin : (ofRatio (quotientSign a d) a.natAbs d.natAbs).Within 52 := by
    apply within_ofRatio _ hpos (by decide)
    exact Nat.le_trans ha (Nat.le_mul_of_pos_right _ hpos)
  have hfits : Fits (roundUnits (a.natAbs * unitsPerOne) d.natAbs) :=
    (isFinite_ofUnits _ _ _).mp hwithin.isFinite
  refine ⟨hfits, ?_⟩
  rw [Size.quotient, if_neg hd]
  refine (finiteOr_of_isFinite hwithin.isFinite _).trans ?_
  exact congrArg Except.ok (ofRatio_of_fits _ hfits)

/-- A fraction of a whole size is exact. Its quotient is rounded to a double first, but the whole
    number is the one nearest to the quotient itself, halves away from zero, if the product of size
    and numerator is less than 2^52; the denominator may be of any size. -/
theorem fraction_rounds_exactly [StackRoom] {s n d : Int} (hd : d ≠ 0) (h : |s * n| < 2 ^ 52) :
    ∃ x i, (Expr.fraction n d).value (.whole s) = .ok x ∧
      IsNearest (quotientSign (s * n) d) (s * n).natAbs d.natAbs x ∧
      (Expr.fraction n d).evaluate (.whole s) = .ok i ∧
      ∀ j, IsNearestWhole (s * n / d) j ↔ j = i := by
  have hpos : 0 < d.natAbs := Int.natAbs_pos.mpr hd
  have hbound : (s * n).natAbs < 2 ^ 52 := by
    rw [Int.abs_eq_natAbs] at h
    exact_mod_cast h
  obtain ⟨fits, hvalue⟩ := quotient_eq hd (Nat.le_of_lt hbound)
  have hround := roundAway_finite (quotientSign (s * n) d) fits
  rw [nearestUp_roundUnits hpos hbound] at hround
  have hnearest := isNearestWhole_nearestUp (quotientSign (s * n) d) (s * n).natAbs hpos
  rw [signed_div_natAbs, Int.cast_mul] at hnearest
  refine ⟨_, _, hvalue, ?_, ?_, fun j => hnearest.iff_eq⟩
  · rw [isNearest_iff hpos]
    exact (ofRatio_of_fits _ fits).symm
  · have hsteps : (Expr.fraction n d).evaluate (.whole s) =
        (Size.quotient (s * n) d).bind fun x => x.roundAway.mapError .notWhole := rfl
    rw [hsteps, hvalue]
    exact congrArg (Except.mapError EvalError.notWhole) hround

/-- One part of twice the denominator short of three halves, below zero. -/
theorem fraction_rounds_exactly_threeHalves :
    (3002399751580329 : Int) ≠ 0 ∧ |(-1 : Int) * 4503599627370493| < 2 ^ 52 ∧
      (Expr.fraction 4503599627370493 3002399751580329).evaluate (.whole (-1)) = .ok (-1) ∧
      ∀ j, IsNearestWhole ((-1 : Int) * (4503599627370493 : Int) / (3002399751580329 : Int)) j ↔
        j = -1 := by
  have hd : (3002399751580329 : Int) ≠ 0 := by decide
  have hbound : |(-1 : Int) * 4503599627370493| < 2 ^ 52 := by decide
  have hvalue : (Expr.fraction 4503599627370493 3002399751580329).evaluate (.whole (-1)) =
      .ok (-1) := by
    decide +kernel
  obtain ⟨x, i, -, -, hi, hnearest⟩ := fraction_rounds_exactly hd hbound
  obtain rfl := Except.ok.inj (hvalue.symm.trans hi)
  exact ⟨hd, hbound, hvalue, hnearest⟩

/-- A product of 2^52 and more may be too large: this quotient is below three halves as well. -/
example : 2 * (3 * 2 ^ 51 + 1) < 3 * (2 ^ 52 + 1) ∧
    (Expr.fraction (3 * 2 ^ 51 + 1) (2 ^ 52 + 1)).evaluate (.whole 1) = .ok 2 := by
  decide +kernel

end Expr

end WindowLayouts
