import WindowLayouts.Proofs.Grammar

/- Values that stay finite. An expression has a whole number of pixels for a size exactly if there
   is room to evaluate it and every part of it has a finite value there: infinities and values that
   are no number never become finite again. The text of an expression bounds its value, since a
   digit adds less than four binary digits and rounding never leaves a power of two behind; so short
   texts stay finite at every size that a screen has. It bounds the depth too, with two code points
   for each operator.

     `Double.roundUnits_le`          rounding does not pass a point of the grid
     `Expr.value_iff`                what an expression is worth where there is room for it
     `Expr.evaluate_iff`             evaluation against the values of the parts
     `Expr.IsExpression.within`      the bound that a text gives
     `Expr.staysFinite_of_length`    short texts stay finite -/
namespace WindowLayouts

/-! ## Rounding and bounds -/

namespace Double

theorem onGrid_two_pow (k : Nat) : OnGrid (2 ^ k) := by
  have h := onGrid_mul (k := 1) (s := k) (by decide)
  rwa [Nat.one_mul] at h

theorem onGrid_pow_mul_unitsPerOne (k : Nat) : OnGrid (2 ^ k * unitsPerOne) := by
  rw [pow_mul_unitsPerOne]
  exact onGrid_two_pow _

/-- Rounding does not pass a point of the grid from below. -/
theorem roundUnits_le {n d v : Nat} (hd : 0 < d) (hv : OnGrid v) (h : n ≤ v * d) :
    roundUnits n d ≤ v := by
  by_contra hpast
  have hnearest := (nearestUnits_roundUnits hd n).nearest v hv
  have hfar : v * d < roundUnits n d * d :=
    Nat.mul_lt_mul_of_pos_right (Nat.lt_of_not_le hpast) hd
  unfold distance at hnearest
  omega

/-- Nor from above. -/
theorem le_roundUnits {n d v : Nat} (hd : 0 < d) (hv : OnGrid v) (h : v * d ≤ n) :
    v ≤ roundUnits n d := by
  by_contra hpast
  have hnearest := (nearestUnits_roundUnits hd n).nearest v hv
  have hfar : roundUnits n d * d < v * d :=
    Nat.mul_lt_mul_of_pos_right (Nat.lt_of_not_le hpast) hd
  unfold distance at hnearest
  omega

/-- A finite double whose magnitude is at most a power of two. -/
inductive Within (k : Nat) : Double → Prop where
  | mk {negative : Bool} {units : Nat} {fits : Fits units} (h : units ≤ 2 ^ k * unitsPerOne) :
    Within k (.finite negative units fits)

/-- A finite double whose magnitude is at least one. -/
inductive AtLeastOne : Double → Prop where
  | mk {negative : Bool} {units : Nat} {fits : Fits units} (h : unitsPerOne ≤ units) :
    AtLeastOne (.finite negative units fits)

variable {x y : Double} {j k : Nat}

theorem Within.isFinite (h : x.Within k) : x.isFinite = true := by
  cases h
  rfl

theorem Within.mono (h : x.Within j) (hjk : j ≤ k) : x.Within k := by
  obtain ⟨h⟩ := h
  exact .mk (Nat.le_trans h (Nat.mul_le_mul_right _ (Nat.pow_le_pow_right (by decide) hjk)))

theorem Within.neg (h : x.Within k) : x.neg.Within k := by
  obtain ⟨h⟩ := h
  exact .mk h

theorem two_pow_lt_unitLimit (hk : k < 2098) : 2 ^ k < unitLimit := by
  unfold unitLimit
  generalize 2098 = limit at hk ⊢
  exact Nat.pow_lt_pow_right (by decide) hk

/-- What is rounded from below a power of two that a double can hold stays there. -/
theorem within_ofUnits (negative : Bool) {n d : Nat} (hd : 0 < d) (hk : k ≤ 1023)
    (h : n ≤ 2 ^ k * unitsPerOne * d) : (ofUnits negative n d).Within k := by
  have hround := roundUnits_le hd (onGrid_pow_mul_unitsPerOne k) h
  have hlimit : 2 ^ k * unitsPerOne < unitLimit := by
    rw [pow_mul_unitsPerOne]
    exact two_pow_lt_unitLimit (by omega)
  have hfits : Fits (roundUnits n d) := by
    rw [fits_iff_of_onGrid (nearestUnits_roundUnits hd n).onGrid, Nat.not_le]
    exact Nat.lt_of_le_of_lt hround hlimit
  unfold ofUnits
  rw [dif_pos hfits]
  exact .mk hround

theorem within_ofRatio (negative : Bool) {n d : Nat} (hd : 0 < d) (hk : k ≤ 1023)
    (h : n ≤ 2 ^ k * d) : (ofRatio negative n d).Within k := by
  apply within_ofUnits negative hd hk
  calc n * unitsPerOne ≤ 2 ^ k * d * unitsPerOne := Nat.mul_le_mul_right _ h
    _ = 2 ^ k * unitsPerOne * d := Nat.mul_right_comm _ _ _

theorem within_ofInt {i : Int} (hk : k ≤ 1023) (h : i.natAbs ≤ 2 ^ k) : (ofInt i).Within k :=
  within_ofRatio _ Nat.one_pos hk (by rwa [Nat.mul_one])

theorem within_zero (negative : Bool) (hk : k ≤ 1023) : (zero negative).Within k :=
  within_ofUnits negative Nat.one_pos hk (Nat.zero_le _)

theorem atLeastOne_ofInt {i : Int} (hfinite : (ofInt i).isFinite = true) (h : i ≠ 0) :
    (ofInt i).AtLeastOne := by
  have hone : 1 ≤ i.natAbs := Int.natAbs_pos.mpr h
  have hunit : OnGrid unitsPerOne := by
    obtain ⟨k, hk⟩ := unitsPerOne_pow
    rw [hk]
    exact onGrid_two_pow k
  have hround : unitsPerOne ≤ roundUnits (i.natAbs * unitsPerOne) 1 := by
    apply le_roundUnits Nat.one_pos hunit
    rw [Nat.mul_one]
    generalize unitsPerOne = one
    exact Nat.le_mul_of_pos_left one hone
  have hfits := isFinite_ofInt_iff.mp hfinite
  unfold ofInt ofRatio ofUnits
  rw [dif_pos hfits]
  exact .mk hround

theorem natAbs_signed (negative : Bool) (units : Nat) : (signed negative units).natAbs = units := by
  unfold signed
  split <;> simp

theorem Within.add (hx : x.Within k) (hy : y.Within k) (hk : k + 1 ≤ 1023) :
    (x.add y).Within (k + 1) := by
  obtain @⟨s, a, ha, hx⟩ := hx
  obtain @⟨t, b, hb, hy⟩ := hy
  have hsum : (signed s a + signed t b).natAbs ≤ 2 ^ (k + 1) * unitsPerOne * 1 := by
    have hdouble : 2 ^ (k + 1) * unitsPerOne = 2 ^ k * unitsPerOne + 2 ^ k * unitsPerOne := by
      rw [Nat.pow_succ, Nat.mul_two, Nat.add_mul]
    have hle := Int.natAbs_add_le (signed s a) (signed t b)
    rw [natAbs_signed, natAbs_signed] at hle
    rw [Nat.mul_one, hdouble]
    exact Nat.le_trans hle (Nat.add_le_add hx hy)
  unfold Double.add
  dsimp only
  split
  · exact within_zero _ hk
  · exact within_ofUnits _ Nat.one_pos hk hsum

theorem Within.sub (hx : x.Within k) (hy : y.Within k) (hk : k + 1 ≤ 1023) :
    (x.sub y).Within (k + 1) :=
  hx.add hy.neg hk

theorem Within.mul (hx : x.Within j) (hy : y.Within k) (hjk : j + k ≤ 1023) :
    (x.mul y).Within (j + k) := by
  obtain @⟨s, a, ha, hx⟩ := hx
  obtain @⟨t, b, hb, hy⟩ := hy
  unfold Double.mul
  dsimp only
  apply within_ofUnits _ unitsPerOne_pos hjk
  generalize unitsPerOne = one at hx hy ⊢
  calc a * b ≤ 2 ^ j * one * (2 ^ k * one) := Nat.mul_le_mul hx hy
    _ = 2 ^ (j + k) * one * one := by
      rw [Nat.pow_add]
      ac_rfl

theorem Within.div (hx : x.Within k) (hy : y.AtLeastOne) (hk : k ≤ 1023) :
    (x.div y).Within k := by
  obtain @⟨s, a, ha, hx⟩ := hx
  obtain @⟨t, b, hb, hy⟩ := hy
  have hpos : 0 < b := Nat.lt_of_lt_of_le unitsPerOne_pos hy
  unfold Double.div
  dsimp only
  rw [if_neg (Nat.ne_of_gt hpos)]
  exact within_ofUnits _ hpos hk (Nat.mul_le_mul hx hy)

/-! ## What is not finite stays so -/

theorem isFinite_neg (x : Double) : x.neg.isFinite = x.isFinite := by
  cases x <;> rfl

theorem isFinite_of_add (h : (x.add y).isFinite = true) :
    x.isFinite = true ∧ y.isFinite = true := by
  cases x with
  | finite s a ha =>
    cases y with
    | finite t b hb => exact ⟨rfl, rfl⟩
    | infinite t => exact absurd h Bool.false_ne_true
    | nan => exact absurd h Bool.false_ne_true
  | infinite s =>
    cases y with
    | finite t b hb => exact absurd h Bool.false_ne_true
    | infinite t =>
      unfold Double.add at h
      dsimp only at h
      split at h <;> exact absurd h Bool.false_ne_true
    | nan => exact absurd h Bool.false_ne_true
  | nan => cases y <;> exact absurd h Bool.false_ne_true

theorem isFinite_of_sub (h : (x.sub y).isFinite = true) :
    x.isFinite = true ∧ y.isFinite = true := by
  have hboth := isFinite_of_add h
  rwa [isFinite_neg] at hboth

/-- A double has a nearest whole number exactly if it is finite, and that one is not far away. -/
theorem roundAway_iff {x : Double} : (∃ i, x.roundAway = .ok i) ↔ x.isFinite = true := by
  cases x with
  | finite s units fits => exact iff_of_true ⟨_, rfl⟩ rfl
  | infinite s => exact iff_of_false nofun nofun
  | nan => exact iff_of_false nofun nofun

end Double

namespace Expr

variable {size : Size}

/-! ## The depth of an expression -/

/-- How many sums and differences are around the innermost term. -/
def depth : Expr → Nat
  | .add left right => max left.depth right.depth + 1
  | .sub left right => max left.depth right.depth + 1
  | _ => 0

/-- More room than an expression needs makes no difference. -/
theorem valueWithin_of_le {e : Expr} {room more : Nat} (h : e.depth ≤ room) (hmore : room ≤ more) :
    e.valueWithin size more = e.valueWithin size room := by
  induction e generalizing room more with
  | add left right ihl ihr | sub left right ihl ihr =>
    obtain ⟨room, rfl⟩ := Nat.exists_eq_add_one_of_ne_zero (Nat.ne_zero_of_lt h)
    obtain ⟨more, rfl⟩ := Nat.exists_eq_add_one_of_ne_zero (Nat.ne_zero_of_lt hmore)
    obtain ⟨hleft, hright⟩ := Nat.max_le.mp (Nat.le_of_succ_le_succ h)
    have hmore := Nat.le_of_succ_le_succ hmore
    rw [valueWithin, valueWithin, ihl hleft hmore, ihr hright hmore]
  | _ => rfl

/-- An expression that has a value found the room for it. -/
theorem depth_le_of_valueWithin {e : Expr} {room : Nat} {x : Double}
    (h : e.valueWithin size room = .ok x) : e.depth ≤ room := by
  induction e generalizing room x with
  | add left right ihl ihr | sub left right ihl ihr =>
    cases room with
    | zero => cases h
    | succ room =>
      obtain ⟨y, hleft, h⟩ := bind_ok h
      obtain ⟨z, hright, -⟩ := bind_ok h
      exact Nat.succ_le_succ (Nat.max_le.mpr ⟨ihl hleft, ihr hright⟩)
  | _ => exact Nat.zero_le room

/-- The value of an expression with all the room that it needs. -/
def fullValue (size : Size) (e : Expr) : Except EvalError Double := e.valueWithin size e.depth

theorem valueWithin_eq_fullValue {e : Expr} {room : Nat} (h : e.depth ≤ room) :
    e.valueWithin size room = e.fullValue size :=
  valueWithin_of_le (Nat.le_refl e.depth) h

theorem value_iff [StackRoom] {e : Expr} {x : Double} :
    e.value size = .ok x ↔ e.depth ≤ StackRoom.sums ∧ e.fullValue size = .ok x := by
  constructor
  · intro h
    have hdepth := depth_le_of_valueWithin h
    rw [value, valueWithin_eq_fullValue hdepth] at h
    exact ⟨hdepth, h⟩
  · rintro ⟨hdepth, h⟩
    rw [value, valueWithin_eq_fullValue hdepth]
    exact h

theorem fullValue_add (left right : Expr) :
    (Expr.add left right).fullValue size =
      (left.fullValue size).bind fun x => (right.fullValue size).bind fun y => .ok (x.add y) := by
  rw [fullValue, depth, valueWithin, valueWithin_eq_fullValue (Nat.le_max_left _ _),
    valueWithin_eq_fullValue (Nat.le_max_right _ _)]
  rfl

theorem fullValue_sub (left right : Expr) :
    (Expr.sub left right).fullValue size =
      (left.fullValue size).bind fun x => (right.fullValue size).bind fun y => .ok (x.sub y) := by
  rw [fullValue, depth, valueWithin, valueWithin_eq_fullValue (Nat.le_max_left _ _),
    valueWithin_eq_fullValue (Nat.le_max_right _ _)]
  rfl

/-! ## The parts of an expression -/

/-- An expression and all that it is made of. -/
def parts : Expr → List Expr
  | .add left right => .add left right :: (left.parts ++ right.parts)
  | .sub left right => .sub left right :: (left.parts ++ right.parts)
  | e => [e]

/-- An expression has a finite value for a size. -/
def IsFiniteAt (size : Size) (e : Expr) : Prop :=
  ∃ x, e.fullValue size = .ok x ∧ x.isFinite = true

/-- All parts of an expression have finite values for a size. -/
def StaysFinite (size : Size) (e : Expr) : Prop := ∀ part ∈ e.parts, part.IsFiniteAt size

theorem mem_parts (e : Expr) : e ∈ e.parts := by
  cases e <;> simp [parts]

theorem isFiniteAt_of_add {left right : Expr} (h : (Expr.add left right).IsFiniteAt size) :
    left.IsFiniteAt size ∧ right.IsFiniteAt size := by
  obtain ⟨z, hvalue, hfinite⟩ := h
  rw [fullValue_add] at hvalue
  obtain ⟨x, hleft, hvalue⟩ := bind_ok hvalue
  obtain ⟨y, hright, hvalue⟩ := bind_ok hvalue
  obtain rfl := Except.ok.inj hvalue
  obtain ⟨hx, hy⟩ := Double.isFinite_of_add hfinite
  exact ⟨⟨x, hleft, hx⟩, ⟨y, hright, hy⟩⟩

theorem isFiniteAt_of_sub {left right : Expr} (h : (Expr.sub left right).IsFiniteAt size) :
    left.IsFiniteAt size ∧ right.IsFiniteAt size := by
  obtain ⟨z, hvalue, hfinite⟩ := h
  rw [fullValue_sub] at hvalue
  obtain ⟨x, hleft, hvalue⟩ := bind_ok hvalue
  obtain ⟨y, hright, hvalue⟩ := bind_ok hvalue
  obtain rfl := Except.ok.inj hvalue
  obtain ⟨hx, hy⟩ := Double.isFinite_of_sub hfinite
  exact ⟨⟨x, hleft, hx⟩, ⟨y, hright, hy⟩⟩

theorem staysFinite_of_parts {e left right : Expr} (h : e.IsFiniteAt size)
    (hparts : e.parts = e :: (left.parts ++ right.parts)) (hleft : left.StaysFinite size)
    (hright : right.StaysFinite size) : e.StaysFinite size := by
  intro part hpart
  rw [hparts, List.mem_cons, List.mem_append] at hpart
  rcases hpart with rfl | hpart | hpart
  · exact h
  · exact hleft part hpart
  · exact hright part hpart

/-- Where the whole is finite its parts are. -/
theorem IsFiniteAt.staysFinite {e : Expr} (h : e.IsFiniteAt size) : e.StaysFinite size := by
  induction e with
  | add left right ihl ihr =>
    obtain ⟨hleft, hright⟩ := isFiniteAt_of_add h
    exact staysFinite_of_parts h rfl (ihl hleft) (ihr hright)
  | sub left right ihl ihr =>
    obtain ⟨hleft, hright⟩ := isFiniteAt_of_sub h
    exact staysFinite_of_parts h rfl (ihl hleft) (ihr hright)
  | _ =>
    -- a term has no part but itself
    intro part hpart
    rw [List.mem_singleton.mp hpart]
    exact h

/-- An expression is evaluated exactly if there is room for it and all its parts stay finite. -/
theorem evaluate_iff [StackRoom] (e : Expr) :
    (∃ n, e.evaluate size = .ok n) ↔ e.depth ≤ StackRoom.sums ∧ e.StaysFinite size := by
  constructor
  · rintro ⟨n, hn⟩
    obtain ⟨x, hvalue, hround⟩ := bind_ok hn
    obtain ⟨hdepth, hfull⟩ := value_iff.mp hvalue
    have hfinite := Double.roundAway_iff.mp ⟨n, mapError_ok.mp hround⟩
    exact ⟨hdepth, IsFiniteAt.staysFinite ⟨x, hfull, hfinite⟩⟩
  · rintro ⟨hdepth, h⟩
    obtain ⟨x, hfull, hfinite⟩ := h e e.mem_parts
    obtain ⟨i, hround⟩ := Double.roundAway_iff.mpr hfinite
    refine ⟨i, ?_⟩
    rw [evaluate, value_iff.mpr ⟨hdepth, hfull⟩]
    exact mapError_ok.mpr hround

theorem finiteOr_of_isFinite {x : Double} (h : x.isFinite = true) (reason : EvalError) :
    x.finiteOr reason = .ok x := by
  cases x with
  | finite s units fits => rfl
  | _ => exact absurd h Bool.false_ne_true

theorem toDouble_of_isFinite {n : Int} (h : (Double.ofInt n).isFinite = true) :
    Size.toDouble n = .ok (Double.ofInt n) :=
  finiteOr_of_isFinite h _

end Expr

/-! ## What a text is worth at most -/

theorem Numeral.value_lt_pow {t : Text} (h : ∀ c ∈ t, c.isDigit = true) :
    value t < 10 ^ t.length := by
  induction t with
  | nil => decide
  | cons c rest ih =>
    obtain ⟨hc, hrest⟩ := List.forall_mem_cons.mp h
    have hlow := ih hrest
    have hdigit : c.digitValue ≤ 9 := by
      simp only [CodePoint.isDigit, Bool.and_eq_true, decide_eq_true_eq] at hc
      unfold CodePoint.digitValue
      omega
    have hhigh : c.digitValue * 10 ^ rest.length ≤ 9 * 10 ^ rest.length :=
      Nat.mul_le_mul_right _ hdigit
    rw [value_cons, List.length_cons, Nat.pow_succ]
    omega

/-- A digit adds less than four binary digits. -/
theorem ten_pow_le_two_pow (n : Nat) : 10 ^ n ≤ 2 ^ (4 * n) := by
  rw [Nat.pow_mul]
  exact Nat.pow_le_pow_left (by decide) n

/-- A size with a magnitude below two to the 31st. -/
inductive Size.IsSmall : Size → Prop where
  | whole {n : Int} (h : n.natAbs < 2 ^ 31) : IsSmall (.whole n)
  | real {negative : Bool} {units : Nat} {fits : Double.Fits units}
    (h : units < 2 ^ 31 * Double.unitsPerOne) : IsSmall (.real (.finite negative units fits))

theorem Double.Within.isSmall {x : Double} {k : Nat} (h : x.Within k) (hk : k < 31) :
    (Size.real x).IsSmall := by
  obtain ⟨h⟩ := h
  have hpow : 2 ^ k < 2 ^ 31 := Nat.pow_lt_pow_right (by decide) hk
  exact .real (Nat.lt_of_le_of_lt h (Nat.mul_lt_mul_of_pos_right hpow unitsPerOne_pos))

namespace Expr

variable {size : Size}

theorem asDouble_within (h : size.IsSmall) : ∃ x, size.asDouble = .ok x ∧ x.Within 31 := by
  cases h with
  | @whole n h =>
    have hwithin : (Double.ofInt n).Within 31 :=
      Double.within_ofInt (by decide) (Nat.le_of_lt h)
    exact ⟨_, toDouble_of_isFinite hwithin.isFinite, hwithin⟩
  | real h => exact ⟨_, rfl, .mk (Nat.le_of_lt h)⟩

theorem value_le_two_pow {digits : Text} (h : Numeral.isDigits digits = true) :
    Numeral.value digits ≤ 2 ^ (4 * digits.length) := by
  have hlt := Numeral.value_lt_pow fun _ hc => isDigit_of_mem h hc
  exact Nat.le_trans (Nat.le_of_lt hlt) (ten_pow_le_two_pow _)

theorem IsNumber.within {t : Text} {x : Double} (h : IsNumber t x) (hk : 4 * t.length ≤ 1023) :
    x.Within (4 * t.length) := by
  cases h with
  | whole hdigits hx =>
    rw [(Double.isNearest_iff Nat.one_pos).mp hx]
    apply Double.within_ofRatio _ Nat.one_pos hk
    rw [Nat.mul_one]
    exact value_le_two_pow hdigits
  | @point whole fraction x hwhole hfraction hx =>
    have hpos : 0 < 10 ^ fraction.length := Nat.pow_pos (by decide)
    have hlt : Numeral.value (whole ++ fraction) < 10 ^ (whole.length + fraction.length) := by
      rw [← List.length_append]
      apply Numeral.value_lt_pow
      intro c hc
      rcases List.mem_append.mp hc with hc | hc
      · exact isDigit_of_mem hwhole hc
      · exact isDigit_of_mem hfraction hc
    have hlength : 4 * whole.length ≤ 4 * (whole ++ CodePoint.ofChar '.' :: fraction).length := by
      rw [List.length_append]
      omega
    rw [(Double.isNearest_iff hpos).mp hx]
    refine Double.Within.mono (Double.within_ofRatio _ hpos ?_ ?_) hlength
    · exact Nat.le_trans hlength hk
    · calc Numeral.value (whole ++ fraction) ≤ 10 ^ whole.length * 10 ^ fraction.length := by
            rw [← Nat.pow_add]
            exact Nat.le_of_lt hlt
        _ ≤ 2 ^ (4 * whole.length) * 10 ^ fraction.length :=
            Nat.mul_le_mul_right _ (ten_pow_le_two_pow _)

theorem wholeFraction_within {m : Int} {n d j : Nat} (hm : m.natAbs < 2 ^ 31) (hd : 0 < d)
    (hn : n ≤ 2 ^ j) (hj : 31 + j ≤ 1023) :
    ∃ x, (Size.whole m).fraction n d = .ok x ∧ x.Within (31 + j) := by
  have hne : (d : Int) ≠ 0 := Int.ofNat_ne_zero.mpr (Nat.ne_of_gt hd)
  have hbound : (m * (n : Int)).natAbs ≤ 2 ^ (31 + j) * d := by
    rw [Int.natAbs_mul, Int.natAbs_natCast, Nat.pow_add]
    calc m.natAbs * n ≤ 2 ^ 31 * 2 ^ j := Nat.mul_le_mul (Nat.le_of_lt hm) hn
      _ ≤ 2 ^ 31 * 2 ^ j * d := Nat.le_mul_of_pos_right _ hd
  have hwithin := Double.within_ofRatio
    (decide (m * (n : Int) < 0) != decide ((d : Int) < 0)) hd hj hbound
  refine ⟨_, ?_, hwithin⟩
  rw [Size.fraction, Size.quotient, if_neg hne, Int.natAbs_natCast]
  exact finiteOr_of_isFinite hwithin.isFinite _

theorem realFraction_eq {x upper lower : Double} {n d : Int} (hd : d ≠ 0)
    (hn : Size.toDouble n = .ok upper) (hlower : Size.toDouble d = .ok lower) :
    (Size.real x).fraction n d = .ok ((x.mul upper).div lower) := by
  have hsteps : (Size.real x).fraction n d =
      (Size.toDouble n).bind fun upper => (Size.toDouble d).bind fun lower =>
        if d = 0 then .error .realDivisionByZero else .ok ((x.mul upper).div lower) := rfl
  rw [hsteps, hn, hlower]
  exact if_neg hd

theorem realFraction_within {x : Double} {n d j k : Nat} (hx : x.Within 31) (hd : 0 < d)
    (hn : n ≤ 2 ^ j) (hdk : d ≤ 2 ^ k) (hj : 31 + j ≤ 1023) (hk : k ≤ 1023) :
    ∃ y, (Size.real x).fraction n d = .ok y ∧ y.Within (31 + j) := by
  have hne : (d : Int) ≠ 0 := Int.ofNat_ne_zero.mpr (Nat.ne_of_gt hd)
  have hupper : (Double.ofInt n).Within j := by
    apply Double.within_ofInt (by omega)
    rwa [Int.natAbs_natCast]
  have hlower : (Double.ofInt d).Within k := by
    apply Double.within_ofInt hk
    rwa [Int.natAbs_natCast]
  exact ⟨_, realFraction_eq hne (toDouble_of_isFinite hupper.isFinite)
    (toDouble_of_isFinite hlower.isFinite),
    (hx.mul hupper hj).div (Double.atLeastOne_ofInt hlower.isFinite hne) hj⟩

theorem fraction_within {n d j k : Nat} (hsize : size.IsSmall) (hd : 0 < d) (hn : n ≤ 2 ^ j)
    (hdk : d ≤ 2 ^ k) (hj : 31 + j ≤ 1023) (hk : k ≤ 1023) :
    ∃ x, size.fraction n d = .ok x ∧ x.Within (31 + j) := by
  cases hsize with
  | whole hm => exact wholeFraction_within hm hd hn hj
  | real hm => exact realFraction_within (.mk (Nat.le_of_lt hm)) hd hn hdk hj hk

/-- What a term is worth at most. -/
theorem IsTerm.within {t : Text} {e : Expr} (h : IsTerm t e) (hsize : size.IsSmall)
    (hk : 31 + 4 * t.length ≤ 1023) :
    ∃ x, e.fullValue size = .ok x ∧ x.Within (31 + 4 * t.length) := by
  cases h with
  | zero => exact ⟨_, rfl, Double.within_zero false hk⟩
  | @fraction upper before after lower hupper hlower hzero hbefore hafter =>
    have hd : 0 < Numeral.value lower :=
      Nat.pos_of_ne_zero ((value_ne_zero_iff hlower.isDigits).mpr hzero)
    simp only [List.length_append, List.length_cons] at hk ⊢
    obtain ⟨x, hx, hwithin⟩ := fraction_within hsize hd (value_le_two_pow hupper.isDigits)
      (value_le_two_pow hlower.isDigits) (by omega) (by omega)
    exact ⟨x, hx, hwithin.mono (by omega)⟩
  | @percentage number blanks y hnumber hblanks =>
    simp only [List.length_append] at hk ⊢
    obtain ⟨w, hw, hsmall⟩ := asDouble_within hsize
    have hhundred : (Double.ofInt 100).AtLeastOne :=
      Double.atLeastOne_ofInt (by decide +kernel) (by decide)
    have hshare := (hnumber.within (by omega)).div hhundred (by omega)
    refine ⟨w.mul (y.div (Double.ofInt 100)), ?_, (hsmall.mul hshare (by omega)).mono (by omega)⟩
    rw [fullValue, valueWithin, hw]
    rfl
  | @pixel number blanks y hnumber hblanks =>
    simp only [List.length_append] at hk ⊢
    exact ⟨y, rfl, (hnumber.within (by omega)).mono (by omega)⟩

theorem IsOperand.within {t : Text} {e : Expr} (h : IsOperand t e) (hsize : size.IsSmall)
    (hk : 31 + 4 * t.length ≤ 1023) :
    ∃ x, e.fullValue size = .ok x ∧ x.Within (31 + 4 * t.length) := by
  obtain ⟨hbefore, hterm, hafter⟩ := h
  simp only [List.length_append] at hk ⊢
  obtain ⟨x, hx, hwithin⟩ := hterm.within hsize (by omega)
  exact ⟨x, hx, hwithin.mono (by omega)⟩

/-- What an expression is worth at most. An operator is one code point more, and so pays for the
    carry of its sum. -/
theorem IsExpression.within {t : Text} {e : Expr} (h : IsExpression t e) (hsize : size.IsSmall)
    (hk : 31 + 4 * t.length ≤ 1023) :
    ∃ x, e.fullValue size = .ok x ∧ x.Within (31 + 4 * t.length) := by
  induction h with
  | operand h => exact h.within hsize hk
  | @join t u left right op hleft hright ih =>
    simp only [List.length_append, List.length_cons] at hk ⊢
    obtain ⟨x, hx, hxle⟩ := ih (by omega)
    obtain ⟨y, hy, hyle⟩ := hright.within hsize (by omega)
    have hxle := hxle.mono (k := 31 + 4 * (t.length + u.length)) (by omega)
    have hyle := hyle.mono (k := 31 + 4 * (t.length + u.length)) (by omega)
    cases op with
    | plus =>
      refine ⟨x.add y, ?_, (hxle.add hyle (by omega)).mono (by omega)⟩
      rw [Expr.join, fullValue_add, hx, hy]
      rfl
    | minus =>
      refine ⟨x.sub y, ?_, (hxle.sub hyle (by omega)).mono (by omega)⟩
      rw [Expr.join, fullValue_sub, hx, hy]
      rfl

theorem IsTerm.depth_eq {t : Text} {e : Expr} (h : IsTerm t e) : e.depth = 0 ∧ t ≠ [] := by
  cases h with
  | zero => exact ⟨rfl, by decide⟩
  | fraction => exact ⟨rfl, by simp⟩
  | percentage => exact ⟨rfl, List.append_ne_nil_of_right_ne_nil _ (by decide)⟩
  | pixel => exact ⟨rfl, List.append_ne_nil_of_right_ne_nil _ (by decide)⟩

theorem IsOperand.depth_eq {t : Text} {e : Expr} (h : IsOperand t e) : e.depth = 0 ∧ t ≠ [] := by
  obtain ⟨-, hterm, -⟩ := h
  obtain ⟨hdepth, hne⟩ := hterm.depth_eq
  exact ⟨hdepth, by simp [hne]⟩

/-- Each operator has a code point of its own and one of the operand after it. -/
theorem IsExpression.depth_lt {t : Text} {e : Expr} (h : IsExpression t e) :
    2 * e.depth < t.length := by
  induction h with
  | operand h =>
    obtain ⟨hdepth, hne⟩ := h.depth_eq
    rw [hdepth]
    exact List.length_pos_of_ne_nil hne
  | @join t u left right op hleft hright ih =>
    obtain ⟨hdepth, hne⟩ := hright.depth_eq
    have hjoin : (Expr.join op left right).depth = left.depth + 1 := by
      cases op <;> rw [Expr.join, depth, hdepth, Nat.max_zero]
    have hpos := List.length_pos_of_ne_nil hne
    rw [hjoin, List.length_append, List.length_cons]
    omega

/-- The longest text of which nothing but the length needs to be known. -/
def safeLength : Nat := 248

/-- The depth of the deepest expression that such a text may hold. -/
def safeDepth : Nat := 123

theorem depth_le_of_length {t : Text} {e : Expr} (h : parse t = .ok e)
    (hlength : t.length ≤ safeLength) : e.depth ≤ safeDepth := by
  have hgrammar : IsExpression t e := parsePieces_sound (parse_eq_ok_iff.mp h)
  have hdepth := hgrammar.depth_lt
  unfold safeLength at hlength
  unfold safeDepth
  omega

/-- Every part of a short text stays finite at every size below two to the 31st. -/
theorem staysFinite_of_length {t : Text} {e : Expr} (h : parse t = .ok e) (hsize : size.IsSmall)
    (hlength : t.length ≤ safeLength) : e.StaysFinite size := by
  have hgrammar : IsExpression t e := parsePieces_sound (parse_eq_ok_iff.mp h)
  have hk : 31 + 4 * t.length ≤ 1023 := by
    unfold safeLength at hlength
    omega
  obtain ⟨x, hx, hwithin⟩ := hgrammar.within hsize hk
  exact IsFiniteAt.staysFinite ⟨x, hx, hwithin.isFinite⟩

end Expr

end WindowLayouts
