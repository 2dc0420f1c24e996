import Mathlib.Algebra.Order.Field.Rat
import Mathlib.Algebra.Order.Ring.Abs
import Mathlib.Tactic.Linarith
import Mathlib.Tactic.Ring
import WindowLayouts.Number.Bits
import WindowLayouts.Proofs.FiniteValues

/- Rounding to whole numbers, told without computing it. The whole number nearest to a fraction is
   the one that no other is nearer than; of two that are equally near it is the one farther from
   zero. Every finite double is a fraction, and rounding finds the nearest whole number of it
   exactly, since nothing is lost on the way: the floor of a double is a double, and what is above
   the floor is another one.

     `IsNearestWhole`             the nearest whole number
     `IsNearestWhole.mono`        it grows with the fraction, so there is no more than one
     `Double.ofInt_floor`         the floor of a double is a double
     `Double.abs_sub_floor`       and so is what is above it
     `Double.roundAway_finite`    what rounding a double gives
     `Size.rounds_to_nearest`     all of it, for doubles and for whole numbers -/
namespace WindowLayouts

/-! ## The nearest whole number -/

/-- The whole number nearest to a fraction, and of two that are equally near the one farther from
    zero. -/
structure IsNearestWhole (q : Rat) (i : Int) : Prop where
  nearest : ∀ j : Int, |q - i| ≤ |q - j|
  away : ∀ j : Int, |q - j| = |q - i| → |j| ≤ |i|

namespace IsNearestWhole

variable {p q : Rat} {i j : Int}

theorem neg (h : IsNearestWhole q i) : IsNearestWhole (-q) (-i) := by
  have hflip : ∀ j : Int, |-q - j| = |q - (-j : Int)| := by
    intro j
    rw [← abs_neg]
    congr 1
    push_cast
    ring
  constructor
  · intro j
    rw [hflip, hflip, neg_neg]
    exact h.nearest (-j)
  · intro j htie
    rw [hflip, hflip, neg_neg] at htie
    have hle := h.away (-j) htie
    rwa [abs_neg] at hle ⊢

theorem zero_le_of_neg_one_lt (h : (-1 : Rat) < i) : 0 ≤ i := by
  have hi : -1 < i := by exact_mod_cast h
  omega

/-- A fraction that is not negative is at most a half below its nearest whole number, and less than
    a half above it. -/
theorem bounds (hq : 0 ≤ q) (h : IsNearestWhole q i) : (i : Rat) ≤ q + 1 / 2 ∧ q < i + 1 / 2 := by
  have hlow : (i : Rat) ≤ q + 1 / 2 := by
    have hsquare := sq_le_sq.mpr (h.nearest (i - 1))
    have hexpand : (q - (i - 1 : Int)) ^ 2 = (q - i) ^ 2 + 2 * (q - i) + 1 := by
      push_cast
      ring
    linarith
  have hhigh : q ≤ i + 1 / 2 := by
    have hsquare := sq_le_sq.mpr (h.nearest (i + 1))
    have hexpand : (q - (i + 1 : Int)) ^ 2 = (q - i) ^ 2 - 2 * (q - i) + 1 := by
      push_cast
      ring
    linarith
  refine ⟨hlow, lt_of_le_of_ne hhigh ?_⟩
  -- at a half the number above is as near, and it is farther from zero
  intro hhalf
  have hi : 0 ≤ i := zero_le_of_neg_one_lt (by linarith)
  have htie : |q - (i + 1 : Int)| = |q - i| := by
    push_cast
    rw [abs_of_nonpos (by linarith), abs_of_nonneg (by linarith)]
    linarith
  have hle := h.away (i + 1) htie
  rw [abs_of_nonneg hi, abs_of_nonneg (by omega)] at hle
  omega

theorem of_bounds (hq : 0 ≤ q) (hlow : (i : Rat) ≤ q + 1 / 2) (hhigh : q < i + 1 / 2) :
    IsNearestWhole q i := by
  have hnear : |q - i| ≤ 1 / 2 := by
    rw [abs_le]
    constructor <;> linarith
  have hbelow : ∀ j : Int, j < i → 1 / 2 ≤ q - j := by
    intro j hj
    have : (j : Rat) + 1 ≤ i := by exact_mod_cast hj
    linarith
  have habove : ∀ j : Int, i < j → 1 / 2 < j - q := by
    intro j hj
    have : (i : Rat) + 1 ≤ j := by exact_mod_cast hj
    linarith
  constructor
  · intro j
    rcases lt_trichotomy j i with hj | rfl | hj
    · exact hnear.trans ((hbelow j hj).trans (le_abs_self _))
    · exact le_rfl
    · rw [abs_sub_comm q j]
      exact hnear.trans ((habove j hj).le.trans (le_abs_self _))
  · intro j htie
    rcases lt_trichotomy j i with hj | rfl | hj
    · have hfar := hbelow j hj
      rw [abs_of_nonneg (a := q - j) (by linarith)] at htie
      have hpos : 0 ≤ j := zero_le_of_neg_one_lt (by linarith)
      rw [abs_of_nonneg hpos, abs_of_nonneg (by omega)]
      exact hj.le
    · exact le_rfl
    · have hfar := habove j hj
      rw [abs_sub_comm q j, abs_of_nonneg (a := (j : Rat) - q) (by linarith)] at htie
      linarith

theorem nonneg (hq : 0 ≤ q) (h : IsNearestWhole q i) : 0 ≤ i := by
  obtain ⟨-, hhigh⟩ := h.bounds hq
  exact zero_le_of_neg_one_lt (by linarith)

theorem mono_of_nonneg (hp : IsNearestWhole p i) (hq : IsNearestWhole q j) (hpos : 0 ≤ p)
    (h : p ≤ q) : i ≤ j := by
  obtain ⟨hlow, -⟩ := hp.bounds hpos
  obtain ⟨-, hhigh⟩ := hq.bounds (hpos.trans h)
  have hlt : (i : Rat) < j + 1 := by linarith
  have hlt : i < j + 1 := by exact_mod_cast hlt
  omega

/-- A larger fraction has no smaller nearest whole number. -/
theorem mono (hp : IsNearestWhole p i) (hq : IsNearestWhole q j) (h : p ≤ q) : i ≤ j := by
  rcases le_total 0 p with hpos | hneg
  · exact hp.mono_of_nonneg hq hpos h
  · rcases le_total 0 q with hpos | hneg'
    · have hi := hp.neg.nonneg (neg_nonneg.mpr hneg)
      have hj := hq.nonneg hpos
      omega
    · have hle := hq.neg.mono_of_nonneg hp.neg (neg_nonneg.mpr hneg') (neg_le_neg h)
      omega

theorem unique (hi : IsNearestWhole q i) (hj : IsNearestWhole q j) : j = i :=
  le_antisymm (hj.mono hi le_rfl) (hi.mono hj le_rfl)

theorem iff_eq (hi : IsNearestWhole q i) : IsNearestWhole q j ↔ j = i := by
  constructor
  · exact hi.unique
  · rintro rfl
    exact hi

theorem of_int (n : Int) : IsNearestWhole n n := by
  constructor
  · intro j
    rw [sub_self, abs_zero]
    exact abs_nonneg _
  · intro j htie
    rw [sub_self, abs_zero, abs_eq_zero, sub_eq_zero] at htie
    have hj : n = j := by exact_mod_cast htie
    rw [hj]

end IsNearestWhole

namespace Double

/-! ## Fractions of natural numbers -/

/-- The whole number nearest to a fraction of natural numbers, halves up. -/
def nearestUp (n d : Nat) : Nat := if d ≤ 2 * (n % d) then n / d + 1 else n / d

/-- A fraction is at most a half below its nearest whole number, and less than a half above it. -/
theorem nearestUp_bounds (n : Nat) {d : Nat} (hd : 0 < d) :
    2 * nearestUp n d * d ≤ 2 * n + d ∧ 2 * n < (2 * nearestUp n d + 1) * d := by
  have hn : n / d * d + n % d = n := Nat.div_add_mod' n d
  have hrest : n % d < d := Nat.mod_lt n hd
  unfold nearestUp
  split
  · have hlow : 2 * (n / d + 1) * d = 2 * (n / d * d) + 2 * d := by ring
    have hhigh : (2 * (n / d + 1) + 1) * d = 2 * (n / d * d) + 3 * d := by ring
    omega
  · have hlow : 2 * (n / d) * d = 2 * (n / d * d) := by ring
    have hhigh : (2 * (n / d) + 1) * d = 2 * (n / d * d) + d := by ring
    omega

theorem isNearestWhole_natCast {n d k : Nat} (hd : 0 < d) (hlow : 2 * k * d ≤ 2 * n + d)
    (hhigh : 2 * n < (2 * k + 1) * d) : IsNearestWhole (n / d : Rat) k := by
  have hd' : (0 : Rat) < d := by exact_mod_cast hd
  have hlow' : (2 * k * d : Rat) ≤ 2 * n + d := by exact_mod_cast hlow
  have hhigh' : (2 * n : Rat) < (2 * k + 1) * d := by exact_mod_cast hhigh
  have hn : (n / d : Rat) * d = n := div_mul_cancel₀ _ hd'.ne'
  apply IsNearestWhole.of_bounds
  · exact div_nonneg (Nat.cast_nonneg n) hd'.le
  · apply le_of_mul_le_mul_right _ hd'
    push_cast
    linarith
  · apply lt_of_mul_lt_mul_right _ hd'.le
    push_cast
    linarith

theorem isNearestWhole_nearestUp (negative : Bool) (n : Nat) {d : Nat} (hd : 0 < d) :
    IsNearestWhole ((signed negative n : Int) / d : Rat) (signed negative (nearestUp n d)) := by
  obtain ⟨hlow, hhigh⟩ := nearestUp_bounds n hd
  have hnearest := isNearestWhole_natCast hd hlow hhigh
  cases negative with
  | false => exact hnearest
  | true =>
    have hneg : ((-(n : Int) : Int) / d : Rat) = -(n / d : Rat) := by
      push_cast
      ring
    show IsNearestWhole ((-(n : Int) : Int) / d : Rat) (-(nearestUp n d : Int))
    rw [hneg]
    exact hnearest.neg

/-! ## The floor of a double and what is above it -/

/-- What is left of a number after cutting off the multiples of a power of two is a multiple of its
    spacing. -/
theorem pow_spacing_dvd_rest {units : Nat} (k : Nat) (h : 2 ^ spacing units ∣ units) :
    2 ^ spacing (units % 2 ^ k) ∣ units % 2 ^ k := by
  by_cases hbig : k ≤ spacing units
  · rw [Nat.mod_eq_zero_of_dvd (Nat.dvd_trans (Nat.pow_dvd_pow 2 hbig) h)]
    exact Nat.dvd_zero _
  · have hpow : 2 ^ spacing units ∣ 2 ^ k := Nat.pow_dvd_pow 2 (by omega)
    have hrest : 2 ^ spacing units ∣ units % 2 ^ k := (Nat.dvd_mod_iff hpow).mpr h
    exact Nat.dvd_trans (Nat.pow_dvd_pow 2 (spacing_mono (Nat.mod_le _ _))) hrest

theorem fits_rest {units : Nat} (h : Fits units) : Fits (units % unitsPerOne) := by
  obtain ⟨hlimit, hdvd⟩ := fits_iff.mp h
  refine fits_iff.mpr ⟨Nat.lt_of_le_of_lt (Nat.mod_le _ _) hlimit, ?_⟩
  obtain ⟨k, hk⟩ := unitsPerOne_pow
  rw [hk]
  exact pow_spacing_dvd_rest k hdvd

/-- A number of units that fits is not changed by rounding. -/
theorem ofUnits_of_fits (negative : Bool) {units : Nat} (h : Fits units) :
    ofUnits negative units 1 = .finite negative units h := by
  have hround : roundUnits units 1 = units := roundUnits_of_dvd (fits_iff.mp h).2
  simp only [ofUnits, hround, dif_pos h]

/-- A difference that is a double is exact. -/
theorem sub_finite {a b rest : Nat} (ha : Fits a) (hb : Fits b) (hrest : Fits rest)
    (h : b + rest = a) :
    (finite false a ha).sub (finite false b hb) = .finite false rest hrest := by
  have hsum : signed false a + signed true b = rest := by
    show (a : Int) + -(b : Int) = rest
    omega
  show Double.add (.finite false a ha) (.finite true b hb) = _
  unfold Double.add
  dsimp only
  rw [hsum, Int.natAbs_natCast, ← ofUnits_of_fits false hrest]
  split
  · rename_i hzero
    obtain rfl : rest = 0 := by exact_mod_cast hzero
    rfl
  · rw [decide_eq_false (by omega)]

/-- The floor of a double converts to a double without loss. -/
theorem ofInt_floor {units : Nat} (h : Fits units) :
    ofInt (units / unitsPerOne : Nat) =
      .finite false (units / unitsPerOne * unitsPerOne) (fits_floor h) :=
  ofUnits_of_fits false (fits_floor h)

/-- The difference of a double and its floor is exact. -/
theorem abs_sub_floor (negative : Bool) {units : Nat} (h : Fits units) :
    (finite negative units h).abs.sub (ofInt (units / unitsPerOne : Nat)) =
      .finite false (units % unitsPerOne) (fits_rest h) := by
  rw [ofInt_floor h]
  exact sub_finite h (fits_floor h) (fits_rest h) (Nat.div_add_mod' units unitsPerOne)

theorem nearestUp_zero {d : Nat} (hd : 0 < d) : nearestUp 0 d = 0 := by
  unfold nearestUp
  rw [Nat.zero_mod, Nat.zero_div, if_neg (by omega)]

/-- The steps of rounding find the whole number nearest to the units of a double. -/
theorem roundAway_finite (negative : Bool) {units : Nat} (h : Fits units) :
    (finite negative units h).roundAway = .ok (signed negative (nearestUp units unitsPerOne)) := by
  have hup : (if ((finite negative units h).abs.sub
        (ofInt (units / unitsPerOne : Nat))).atLeastHalf then units / unitsPerOne + 1
      else units / unitsPerOne) = nearestUp units unitsPerOne := by
    rw [abs_sub_floor]
    simp only [atLeastHalf, nearestUp, Bool.not_false, Bool.true_and, decide_eq_true_eq]
  have hsteps : (finite negative units h).roundAway =
      .ok (if (finite negative units h).isNegative
        then -(nearestUp units unitsPerOne : Int) else nearestUp units unitsPerOne) := by
    rw [← hup]
    rfl
  rw [hsteps]
  by_cases hzero : units = 0
  · -- neither zero is negative
    subst hzero
    rw [nearestUp_zero unitsPerOne_pos]
    cases negative <;> rfl
  · have hsign : (finite negative units h).isNegative = negative := by
      simp [isNegative, hzero]
    rw [hsign]
    rfl

/-! ## Exact values -/

/-- The fraction that a finite double is. -/
def toRat? : Double → Option Rat
  | .finite negative units _ => some ((signed negative units : Int) / unitsPerOne)
  | _ => none

theorem signed_not (negative : Bool) (n : Nat) : signed (!negative) n = -signed negative n := by
  cases negative <;> simp [signed]

theorem toRat?_neg (x : Double) : x.neg.toRat? = x.toRat?.map (- ·) := by
  cases x with
  | finite negative units fits =>
    simp only [neg, toRat?, signed_not, Option.map_some, Int.cast_neg, neg_div]
  | infinite negative => rfl
  | nan => rfl

theorem roundAway_neg (x : Double) : x.neg.roundAway = x.roundAway.map (- ·) := by
  cases x with
  | finite negative units fits =>
    rw [neg, roundAway_finite, roundAway_finite, signed_not]
    rfl
  | infinite negative => rfl
  | nan => rfl

theorem roundAway_of_toRat? {x : Double} {q : Rat} (h : x.toRat? = some q) :
    ∃ i, x.roundAway = .ok i ∧ IsNearestWhole q i := by
  cases x with
  | finite negative units fits =>
    obtain rfl := Option.some.inj h
    exact ⟨_, roundAway_finite negative fits, isNearestWhole_nearestUp _ _ unitsPerOne_pos⟩
  | infinite negative => cases h
  | nan => cases h

end Double

namespace Size

/-- The exact value of a size. An infinite one has none, nor has what is no number or no size. -/
def toRat? : Size → Option Rat
  | .whole n => some n
  | .real x => x.toRat?
  | .absent => none

def neg : Size → Size
  | .whole n => .whole (-n)
  | .real x => .real x.neg
  | .absent => .absent

/-- The sizes that are not rounded, and why. -/
inductive Refuses : Size → EvalError → Prop where
  | infinite (negative : Bool) : Refuses (.real (.infinite negative)) (.notWhole .infinite)
  | nan : Refuses (.real .nan) (.notWhole .nan)
  | absent : Refuses .absent .noSizeToRound

/-! ## Rounding a size -/

/-- Nothing of a whole size is above its floor. -/
theorem round_whole (n : Int) : (Size.whole n).round = .ok n := by
  have hfloor : exceedsByHalf n.natAbs (.whole n) = false := by
    simp [exceedsByHalf]
  simp only [round, floorAbs, isNegative, hfloor, bind, Except.bind, pure, Except.pure,
    Bool.false_eq_true, if_false, decide_eq_true_eq, Except.ok.injEq]
  split <;> omega

theorem round_real (x : Double) : (Size.real x).round = x.roundAway.mapError .notWhole := by
  cases x <;> rfl

variable {v : Size} {q : Rat} {i : Int}

theorem round_of_toRat? (h : v.toRat? = some q) : ∃ i, v.round = .ok i ∧ IsNearestWhole q i := by
  cases v with
  | whole n =>
    obtain rfl := Option.some.inj h
    exact ⟨n, round_whole n, .of_int n⟩
  | real x =>
    obtain ⟨i, hround, hnearest⟩ := Double.roundAway_of_toRat? h
    refine ⟨i, ?_, hnearest⟩
    rw [round_real, hround]
    rfl
  | absent => cases h

theorem isNearestWhole_of_round (h : v.toRat? = some q) (hround : v.round = .ok i) :
    IsNearestWhole q i := by
  obtain ⟨j, hj, hnearest⟩ := round_of_toRat? h
  obtain rfl := Except.ok.inj (hround.symm.trans hj)
  exact hnearest

theorem toRat?_neg (v : Size) : v.neg.toRat? = v.toRat?.map (- ·) := by
  cases v with
  | whole n => simp only [neg, toRat?, Option.map_some, Int.cast_neg]
  | real x => exact Double.toRat?_neg x
  | absent => rfl

theorem round_neg (v : Size) : v.neg.round = v.round.map (- ·) := by
  cases v with
  | whole n =>
    rw [neg, round_whole, round_whole]
    rfl
  | real x =>
    rw [neg, round_real, round_real, Double.roundAway_neg]
    cases x.roundAway <;> rfl
  | absent => rfl

theorem round_error_iff {e : EvalError} : v.round = .error e ↔ v.Refuses e := by
  constructor
  · intro h
    cases v with
    | whole n =>
      rw [round_whole] at h
      cases h
    | real x =>
      rw [round_real] at h
      cases x with
      | finite negative units fits =>
        rw [Double.roundAway_finite] at h
        cases h
      | infinite negative =>
        obtain rfl := Except.error.inj h
        exact .infinite negative
      | nan =>
        obtain rfl := Except.error.inj h
        exact .nan
    | absent =>
      obtain rfl := Except.error.inj h
      exact .absent
  · rintro (negative | _ | _) <;> rfl

/-- Rounding is exact. A finite double and a whole number, however large, are rounded to the one
    whole number that is nearest to their exact value, halves away from zero. So a negated number
    gives the negated result, a larger one no smaller result, and a number that is whole itself.
    Only infinities are refused, and what is no number or no size. -/
theorem rounds_to_nearest :
    (∀ v q, toRat? v = some q → ∃ i, v.round = .ok i ∧ ∀ j, IsNearestWhole q j ↔ j = i) ∧
    (∀ v : Size, v.neg.toRat? = v.toRat?.map (- ·) ∧ v.neg.round = v.round.map (- ·)) ∧
    (∀ v w p q i j, toRat? v = some p → toRat? w = some q → p ≤ q →
      v.round = .ok i → w.round = .ok j → i ≤ j) ∧
    (∀ v (n : Int), toRat? v = some n → v.round = .ok n) ∧
    ∀ v e, round v = .error e ↔ v.Refuses e := by
  refine ⟨?_, ?_, ?_, ?_, ?_⟩
  · intro v q h
    obtain ⟨i, hround, hnearest⟩ := round_of_toRat? h
    exact ⟨i, hround, fun j => hnearest.iff_eq⟩
  · intro v
    exact ⟨toRat?_neg v, round_neg v⟩
  · intro v w p q i j hv hw hle hi hj
    exact (isNearestWhole_of_round hv hi).mono (isNearestWhole_of_round hw hj) hle
  · intro v n h
    obtain ⟨i, hround, hnearest⟩ := round_of_toRat? h
    rw [hround, (IsNearestWhole.of_int n).unique hnearest]
  · intro v e
    exact round_error_iff

/-- The largest double below a half; with a half added it would be one. -/
def belowHalf : Double := .ofBits 0x3FDFFFFFFFFFFFFF

/-- The largest double below a half, with its negation and with a larger number, an odd double above
    2^52, and what is no number. -/
theorem rounds_to_nearest_belowHalf :
    toRat? (.real belowHalf) = some (1 / 2 - 1 / 2 ^ 54) ∧
      (∀ j, IsNearestWhole (1 / 2 - 1 / 2 ^ 54) j ↔ j = 0) ∧
      (neg (.real belowHalf)).round = .ok (-0) ∧
      (1 / 2 - 1 / 2 ^ 54 : Rat) ≤ (1 : Int) ∧ (0 : Int) ≤ 1 ∧
      toRat? (.real (.ofBits 0x4330000000000001)) = some (4503599627370497 : Int) ∧
      round (.real (.ofBits 0x4330000000000001)) = .ok 4503599627370497 ∧
      round (.real .nan) = .error (.notWhole .nan) := by
  obtain ⟨hnearest, hneg, hmono, hwhole, hrefuses⟩ := rounds_to_nearest
  have hvalue : toRat? (.real belowHalf) = some (1 / 2 - 1 / 2 ^ 54) := by decide +kernel
  have hround : round (.real belowHalf) = .ok 0 := by decide +kernel
  have hodd : toRat? (.real (.ofBits 0x4330000000000001)) = some (4503599627370497 : Int) := by
    decide +kernel
  have hle : (1 / 2 - 1 / 2 ^ 54 : Rat) ≤ (1 : Int) := by decide +kernel
  obtain ⟨i, hi, hiff⟩ := hnearest _ _ hvalue
  obtain rfl := Except.ok.inj (hround.symm.trans hi)
  refine ⟨hvalue, hiff, ?_, hle, ?_, hodd, hwhole _ _ hodd, (hrefuses _ _).mpr .nan⟩
  · rw [(hneg _).2, hround]
    rfl
  · exact hmono _ (.whole 1) _ _ _ _ hvalue rfl hle hround (round_whole 1)

end Size

end WindowLayouts
