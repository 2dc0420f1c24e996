import WindowLayouts.CommandLine.Run
import WindowLayouts.Desktop.Focus
import WindowLayouts.Proofs.Absorbed
import WindowLayouts.Proofs.FiniteValues

/- Layouts that were found valid, when they are applied. Validation reads the fields and no more, so
   what can still go wrong is a value that is not finite, because a part of some field is too large
   for a double in the area at hand, or a chain of so many sums that no room is left for one more.
   Nothing else does, neither on the way to a window nor on the bus nor in a command, as long as the
   log's path lets the choice be recorded and the time of its event and the numbers of the window
   and of its monitor can be shown; and no field of ordinary length is that large, or that deep.

     `Layout.calculate_iff`        calculating against the parts of the fields
     `Desk.place_iff`              placing a window
     `FocusedDesk.command_iff`     placing one on command
     `Layout.validated_applies`    all of it, with the evaluation of single expressions
     `Layout.valid_overflows`      a valid layout that cannot be calculated -/
namespace WindowLayouts

/-! ## Fields -/

/-- There is room for the sums of the expression that a text holds, and every part of it stays
    finite at a size. -/
def Expr.FitsAt [StackRoom] (size : Size) (source : Text) : Prop :=
  ∀ e, Expr.parse source = .ok e → e.depth ≤ StackRoom.sums ∧ e.StaysFinite size

/-- An area whose four numbers have magnitudes below two to the 31st. -/
structure Area.IsSmall (area : Area) : Prop where
  x : area.x.natAbs < 2 ^ 31
  y : area.y.natAbs < 2 ^ 31
  width : area.width.natAbs < 2 ^ 31
  height : area.height.natAbs < 2 ^ 31

namespace Expr

variable {t : Text} {e : Expr} {size : Size}

theorem fitsAt_iff [StackRoom] (h : parse t = .ok e) :
    FitsAt size t ↔ e.depth ≤ StackRoom.sums ∧ e.StaysFinite size := by
  constructor
  · intro hfits
    exact hfits e h
  · intro hfinite e' he'
    obtain rfl := Except.ok.inj (h.symm.trans he')
    exact hfinite

theorem fitsAt_of_length [StackRoom] (hroom : safeDepth ≤ StackRoom.sums) (hsize : size.IsSmall)
    (hlength : t.length ≤ safeLength) : FitsAt size t :=
  fun _ he => ⟨Nat.le_trans (depth_le_of_length he hlength) hroom,
    staysFinite_of_length he hsize hlength⟩

theorem resolve_eq [StackRoom] (h : parse t = .ok e) :
    resolve (some t) size = (e.evaluate size).mapError .eval := by
  unfold resolve parse?
  rw [Option.getD_some, h]
  rfl

theorem resolve_iff [StackRoom] (h : parse t = .ok e) :
    (∃ n, resolve (some t) size = .ok n) ↔ FitsAt size t := by
  rw [fitsAt_iff h, ← evaluate_iff]
  simp only [resolve_eq h, mapError_ok]

theorem resolve_error [StackRoom] (h : parse t = .ok e) {reason : ResolveError}
    (hreason : resolve (some t) size = .error reason) : ∃ r, reason = .eval r := by
  rw [resolve_eq h] at hreason
  cases hvalue : e.evaluate size with
  | ok n =>
    rw [hvalue] at hreason
    cases hreason
  | error r =>
    rw [hvalue] at hreason
    exact ⟨r, (Except.error.inj hreason).symm⟩

end Expr

namespace Layout

/-- The fields of a layout, each with the side of the area that it is a part of. -/
def sides (l : Layout) (area : Area) : List (Text × Int) :=
  [(l.x, area.width), (l.y, area.height), (l.width, area.width), (l.height, area.height)]

/-- There is room for the sums of every field, and every part stays finite in an area. -/
def Fits [StackRoom] (l : Layout) (area : Area) : Prop :=
  ∀ side ∈ l.sides area, Expr.FitsAt (.whole side.2) side.1

variable {l : Layout} {area : Area}

theorem forM_ok {ε α : Type} {f : α → Except ε Unit} {xs : List α} (h : xs.forM f = .ok ()) :
    ∀ a ∈ xs, f a = .ok () := by
  induction xs with
  | nil => exact fun _ ha => nomatch ha
  | cons first rest ih =>
    obtain ⟨done, hfirst, hrest⟩ := Expr.bind_ok h
    intro a ha
    rcases List.mem_cons.mp ha with rfl | ha
    · exact hfirst
    · exact ih hrest a ha

/-- All fields of a valid layout are expressions. -/
theorem parse_of_isValid (h : l.isValid = .ok true) {t : Text} (ht : t ∈ l.fields) :
    ∃ e, Expr.parse t = .ok e := by
  have hvalidate : l.validate = .ok () := by
    unfold isValid at h
    split at h
    · assumption
    · cases h
    · cases h
  obtain ⟨e, he, -⟩ := Expr.bind_ok (forM_ok hvalidate t ht)
  exact ⟨e, he⟩

theorem fst_mem_fields {side : Text × Int} (h : side ∈ l.sides area) : side.1 ∈ l.fields := by
  simp only [sides, List.mem_cons, List.not_mem_nil, or_false] at h
  rcases h with rfl | rfl | rfl | rfl <;> simp [fields]

theorem fits_of_length [StackRoom] (hroom : Expr.safeDepth ≤ StackRoom.sums) (harea : area.IsSmall)
    (hlength : ∀ t ∈ l.fields, t.length ≤ Expr.safeLength) : l.Fits area := by
  intro side hside
  apply Expr.fitsAt_of_length hroom _ (hlength _ (fst_mem_fields hside))
  simp only [sides, List.mem_cons, List.not_mem_nil, or_false] at hside
  rcases hside with rfl | rfl | rfl | rfl
  · exact .whole harea.width
  · exact .whole harea.height
  · exact .whole harea.width
  · exact .whole harea.height

/-- A layout is calculated by resolving its fields one after the other. -/
theorem calculate_eq_ok [StackRoom] {g : Geometry} (h : l.calculate area = .ok g) :
    Expr.resolve (some l.x) (.whole area.width) = .ok (g.x - area.x) ∧
      Expr.resolve (some l.y) (.whole area.height) = .ok (g.y - area.y) ∧
      Expr.resolve (some l.width) (.whole area.width) = .ok g.width ∧
      Expr.resolve (some l.height) (.whole area.height) = .ok g.height := by
  obtain ⟨x, hx, h⟩ := Expr.bind_ok h
  obtain ⟨y, hy, h⟩ := Expr.bind_ok h
  obtain ⟨width, hwidth, h⟩ := Expr.bind_ok h
  obtain ⟨height, hheight, h⟩ := Expr.bind_ok h
  obtain rfl := Except.ok.inj h
  have hcancel : ∀ a b : Int, b = a + b - a := by omega
  exact ⟨hx.trans (congrArg Except.ok (hcancel area.x x)),
    hy.trans (congrArg Except.ok (hcancel area.y y)), hwidth, hheight⟩

theorem bind_error {ε α β : Type} {x : Except ε α} {f : α → Except ε β} {reason : ε}
    (h : x.bind f = .error reason) : x = .error reason ∨ ∃ a, f a = .error reason := by
  cases x with
  | error other =>
    obtain rfl : other = reason := Except.error.inj h
    exact .inl rfl
  | ok a => exact .inr ⟨a, h⟩

/-- What stops a calculation stops one of the fields. -/
theorem calculate_eq_error [StackRoom] {reason : Expr.ResolveError}
    (h : l.calculate area = .error reason) :
    ∃ side ∈ l.sides area, Expr.resolve (some side.1) (.whole side.2) = .error reason := by
  rcases bind_error h with hx | ⟨x, h⟩
  · exact ⟨(l.x, area.width), by simp [sides], hx⟩
  rcases bind_error h with hy | ⟨y, h⟩
  · exact ⟨(l.y, area.height), by simp [sides], hy⟩
  rcases bind_error h with hwidth | ⟨width, h⟩
  · exact ⟨(l.width, area.width), by simp [sides], hwidth⟩
  rcases bind_error h with hheight | ⟨height, h⟩
  · exact ⟨(l.height, area.height), by simp [sides], hheight⟩
  cases h

/-- A valid layout is calculated exactly if there is room for its fields and all their parts stay
    finite. -/
theorem calculate_iff [StackRoom] (h : l.isValid = .ok true) :
    (∃ g, l.calculate area = .ok g) ↔ l.Fits area := by
  have hfield : ∀ side ∈ l.sides area,
      ((∃ n, Expr.resolve (some side.1) (.whole side.2) = .ok n) ↔
        Expr.FitsAt (.whole side.2) side.1) := by
    intro side hside
    obtain ⟨e, he⟩ := parse_of_isValid h (fst_mem_fields hside)
    exact Expr.resolve_iff he
  constructor
  · rintro ⟨g, hg⟩
    obtain ⟨hx, hy, hwidth, hheight⟩ := calculate_eq_ok hg
    intro side hside
    apply (hfield side hside).mp
    simp only [sides, List.mem_cons, List.not_mem_nil, or_false] at hside
    rcases hside with rfl | rfl | rfl | rfl
    · exact ⟨_, hx⟩
    · exact ⟨_, hy⟩
    · exact ⟨_, hwidth⟩
    · exact ⟨_, hheight⟩
  · intro hfits
    cases hcalculate : l.calculate area with
    | ok g => exact ⟨g, rfl⟩
    | error reason =>
      -- what stops the whole stops one of the fields, and that one stays finite
      obtain ⟨side, hside, herror⟩ := calculate_eq_error hcalculate
      obtain ⟨n, hn⟩ := (hfield side hside).mpr (hfits side hside)
      rw [hn] at herror
      cases herror

/-- A valid layout is never stopped by what it is written with. -/
theorem eval_of_calculate_error [StackRoom] (h : l.isValid = .ok true) {reason : Expr.ResolveError}
    (hreason : l.calculate area = .error reason) : ∃ r, reason = .eval r := by
  obtain ⟨side, hside, herror⟩ := calculate_eq_error hreason
  obtain ⟨e, he⟩ := parse_of_isValid h (fst_mem_fields hside)
  exact Expr.resolve_error he herror

end Layout

/-! ## Numbers that can be reported -/

theorem Double.natAbs_le_of_roundAway {x : Double} {i : Int} (h : x.roundAway = .ok i) :
    i.natAbs ≤ Nat.pow 2 1025 := by
  cases x with
  | finite s units fits =>
    have hwhole : units / unitsPerOne < Nat.pow 2 1025 := by
      apply Nat.div_lt_of_lt_mul
      have hlimit := (fits_iff.mp fits).1
      rw [Nat.mul_comm, ← two_mul_unitLimit]
      generalize unitLimit = limit at hlimit ⊢
      omega
    simp only [roundAway, floorAbs, bind, Except.bind, pure, Except.pure, Except.ok.injEq] at h
    subst h
    generalize units / unitsPerOne = whole at hwhole
    generalize Nat.pow 2 1025 = large at hwhole ⊢
    split <;> split <;> omega
  | infinite s => cases h
  | nan => cases h

theorem Expr.natAbs_le_of_resolve [StackRoom] {source : Option Text} {size : Size} {n : Int}
    (h : resolve source size = .ok n) : n.natAbs ≤ Nat.pow 2 1025 := by
  obtain ⟨e, he, hvalue⟩ := bind_ok h
  obtain ⟨x, hx, hround⟩ := bind_ok (mapError_ok.mp hvalue)
  exact Double.natAbs_le_of_roundAway (mapError_ok.mp hround)

theorem Numeral.isShowable_of_natAbs {n : Int} (h : n.natAbs < Nat.pow 2 1026) :
    isShowable n = true := by
  unfold isShowable
  rw [decide_eq_true_eq, length_ofNat_le_iff (by decide)]
  refine Nat.lt_of_lt_of_le h ?_
  apply pow_le_pow (by decide) (by decide)
  decide

theorem Numeral.two_pow_add_le {j k : Nat} (hj : 31 ≤ j) (hk : j + 1 ≤ k) :
    Nat.pow 2 j + 2 ^ 31 ≤ Nat.pow 2 k := by
  have hsmall : 2 ^ 31 ≤ 2 ^ j := Nat.pow_le_pow_right (by decide) hj
  have hlarge : 2 ^ (j + 1) ≤ 2 ^ k := Nat.pow_le_pow_right (by decide) hk
  rw [Nat.pow_succ 2 j] at hlarge
  simp only [Nat.pow_eq]
  omega

theorem Numeral.isShowable_of_resolve [StackRoom] {source : Option Text} {size : Size} {a n : Int}
    (ha : a.natAbs < 2 ^ 31) (h : Expr.resolve source size = .ok (n - a)) :
    isShowable n = true := by
  have hpixels := Expr.natAbs_le_of_resolve h
  have hlarge : Nat.pow 2 1025 + 2 ^ 31 ≤ Nat.pow 2 1026 := by
    apply two_pow_add_le <;> decide
  apply isShowable_of_natAbs
  refine Nat.lt_of_lt_of_le ?_ hlarge
  clear hlarge h
  generalize Nat.pow 2 1025 = large at hpixels ⊢
  omega

theorem Numeral.isShowable_of_small {n : Int} (h : n.natAbs < 2 ^ 31) : isShowable n = true := by
  apply isShowable_of_natAbs
  refine Nat.lt_of_lt_of_le h ?_
  apply pow_le_pow <;> decide

/-- What is said before a window is moved to a geometry in a small area can be said. -/
theorem Desk.movingTrace?_isSome [StackRoom] {l : Layout} {area : Area} {g : Geometry}
    (harea : area.IsSmall) (hg : l.calculate area = .ok g) :
    ∃ moving, Desk.movingTrace? area g = some moving := by
  obtain ⟨hx, hy, hwidth, hheight⟩ := Layout.calculate_eq_ok hg
  have hall : (reportedNumbers area g).all Numeral.isShowable = true := by
    rw [← Int.sub_zero g.width] at hwidth
    rw [← Int.sub_zero g.height] at hheight
    simp [reportedNumbers, Numeral.isShowable_of_resolve harea.x hx,
      Numeral.isShowable_of_resolve harea.y hy,
      Numeral.isShowable_of_resolve (by decide) hwidth,
      Numeral.isShowable_of_resolve (by decide) hheight,
      Numeral.isShowable_of_small harea.x, Numeral.isShowable_of_small harea.y,
      Numeral.isShowable_of_small harea.width, Numeral.isShowable_of_small harea.height]
  unfold movingTrace?
  rw [if_pos hall]
  exact ⟨_, rfl⟩

/-! ## Placing a window -/

namespace Desk

/-- The window that a placement is for, and the area that it is placed in. -/
def target? (d : Desk) (window : Option Window) (l : Layout) (key : Option Text) :
    Option (Window × Area) :=
  window.bind fun w =>
    (d.chooseMonitor w (key.or l.monitorKey)).toOption.map fun chosen => (w, chosen.1.workArea)

/-- The choice of a layout for a window, as an operation on the log. -/
def choice (d : Desk) (w : Window) (layoutId : Text) : Operation :=
  .select d.now w.identity.windowId w.identity.windowClass w.identity.title layoutId

/-- The monitor of the window is to be used, and has a number that is too long for a key. -/
def LacksKey (d : Desk) (window : Option Window) (l : Layout) (key : Option Text) : Prop :=
  ∃ w reason, window = some w ∧ d.chooseMonitor w (key.or l.monitorKey) = .error (.noKey reason)

/-- A monitor that is to be used has a key. If there is a window and an area for it, then the layout
    fits the area, and the choice of the layout can be recorded. -/
structure Applies [StackRoom] (d : Desk) (window : Option Window) (l : Layout) (key : Option Text) :
    Prop where
  keyed : ¬ d.LacksKey window l key
  fits : ∀ w area, d.target? window l key = some (w, area) → l.Fits area
  recorded : ∀ w area, d.target? window l key = some (w, area) →
    ¬ (d.choice w l.id).Fails d.store d.files

/-- If there is a window and an area for it, then the area is small. -/
def InSmallArea (d : Desk) (window : Option Window) (l : Layout) (key : Option Text) : Prop :=
  ∀ w area, d.target? window l key = some (w, area) → area.IsSmall

/-- How a placement ends. -/
inductive Ends [StackRoom] (d : Desk) (window : Option Window) (l : Layout) (key : Option Text) :
    Except PlacementFailure (Option Geometry) → Prop where
  | nowhere (htarget : d.target? window l key = none) (hkeyed : ¬ d.LacksKey window l key) :
    Ends d window l key (.ok none)
  | keyless (hkeyless : d.LacksKey window l key) : Ends d window l key (.error .report)
  | uncalculated {w : Window} {area : Area} {reason : Expr.ResolveError}
    (htarget : d.target? window l key = some (w, area))
    (hreason : l.calculate area = .error reason) : Ends d window l key (.error (.layout reason))
  | unrecorded {w : Window} {area : Area} {g : Geometry} {reason : RecordingFailure}
    (htarget : d.target? window l key = some (w, area)) (hg : l.calculate area = .ok g)
    (hreason : (d.remember w l.id).result = .error reason) :
    Ends d window l key (.error (.history reason))
  | unreported {w : Window} {area : Area} {g : Geometry}
    (htarget : d.target? window l key = some (w, area)) (hg : l.calculate area = .ok g)
    (hmoving : movingTrace? area g = none) : Ends d window l key (.error .report)
  | moved {w : Window} {area : Area} {g : Geometry}
    (htarget : d.target? window l key = some (w, area)) (hg : l.calculate area = .ok g)
    (hremember : (d.remember w l.id).result = .ok ()) : Ends d window l key (.ok (some g))

variable {d : Desk} {window : Option Window} {l : Layout} {key : Option Text}

theorem result_settle [StackRoom] (d : Desk) (w : Window) (l : Layout) (m : Monitor) (key : Text)
    (g : Geometry) :
    (d.settle w l m key g).result =
      match (d.remember w l.id).result, movingTrace? m.workArea g with
      | .error reason, _ => .error (.history reason)
      | .ok (), none => .error .report
      | .ok (), some _ => .ok (some g) := by
  unfold settle
  dsimp only
  cases (d.remember w l.id).result with
  | error reason => rfl
  | ok done => cases movingTrace? m.workArea g <;> rfl

theorem ends_place [StackRoom] (d : Desk) (window : Option Window) (l : Layout)
    (key : Option Text) :
    d.Ends window l key (d.place window l key).result := by
  unfold place
  cases window with
  | none => exact .nowhere rfl fun ⟨w, _, hwindow, _⟩ => nomatch hwindow
  | some w =>
    dsimp only
    have hkeyed : ∀ {chosen}, d.chooseMonitor w (key.or l.monitorKey) = chosen →
        (∀ reason, chosen ≠ .error (.noKey reason)) → ¬ d.LacksKey (some w) l key := by
      rintro chosen hchosen hnot ⟨w', reason, hwindow, hkeyless⟩
      obtain rfl := Option.some.inj hwindow
      exact hnot reason (hchosen.symm.trans hkeyless)
    have htarget : d.target? (some w) l key =
        (d.chooseMonitor w (key.or l.monitorKey)).toOption.map fun chosen =>
          (w, chosen.1.workArea) := rfl
    cases hchosen : d.chooseMonitor w (key.or l.monitorKey) with
    | error reason =>
      rw [hchosen] at htarget
      cases reason with
      | notFound said => exact .nowhere htarget (hkeyed hchosen nofun)
      | noKey reason => exact .keyless ⟨w, reason, rfl, hchosen⟩
    | ok chosen =>
      obtain ⟨m, chosenKey⟩ := chosen
      rw [hchosen] at htarget
      dsimp only
      cases hg : l.calculate m.workArea with
      | error reason => exact .uncalculated htarget hg
      | ok g =>
        dsimp only
        rw [result_settle]
        cases hremember : (d.remember w l.id).result with
        | error reason => exact .unrecorded htarget hg hremember
        | ok done =>
          cases hmoving : movingTrace? m.workArea g with
          | none => exact .unreported htarget hg hmoving
          | some moving => exact .moved htarget hg hremember

/-- A choice can be recorded exactly if neither the path of the log nor the time of the event nor
    the number of the window stops it. -/
theorem remember_iff [StackRoom] (d : Desk) (w : Window) (layoutId : Text) :
    (d.remember w layoutId).result = .ok () ↔
      ¬ (d.choice w layoutId).Fails d.store d.files := by
  have hresult := (Run.start d.store d.files).result_iff (d.choice w layoutId)
  unfold remember
  dsimp only
  split
  -- without a class there is nothing to record
  · rename_i hclass
    apply iff_of_true rfl
    rintro (⟨hopen, -⟩ | ⟨hopen, -⟩) <;>
    · rw [hclass] at hopen
      cases hopen
  · exact hresult

theorem place_iff [StackRoom] (h : l.isValid = .ok true) (hsmall : d.InSmallArea window l key) :
    (∃ r, (d.place window l key).result = .ok r) ↔ d.Applies window l key := by
  constructor
  · rintro ⟨r, hr⟩
    have hends := d.ends_place window l key
    rw [hr] at hends
    cases hends with
    | nowhere hnone hkeyed =>
      constructor
      case keyed => exact hkeyed
      case fits => exact fun w area htarget => nomatch hnone.symm.trans htarget
      case recorded => exact fun w area htarget => nomatch hnone.symm.trans htarget
    | moved hsome hg hremember =>
      constructor
      case keyed =>
        rintro ⟨w, reason, rfl, hkeyless⟩
        rw [target?, Option.bind_some, hkeyless] at hsome
        cases hsome
      case fits =>
        intro w area htarget
        obtain ⟨rfl, rfl⟩ := Prod.mk.inj (Option.some.inj (hsome.symm.trans htarget))
        exact (Layout.calculate_iff h).mp ⟨_, hg⟩
      case recorded =>
        intro w area htarget
        obtain ⟨rfl, rfl⟩ := Prod.mk.inj (Option.some.inj (hsome.symm.trans htarget))
        exact (d.remember_iff _ l.id).mp hremember
  · intro happlies
    have hends := d.ends_place window l key
    generalize (d.place window l key).result = result at hends ⊢
    cases hends with
    | nowhere hnone hkeyed => exact ⟨none, rfl⟩
    | keyless hkeyless => exact absurd hkeyless happlies.keyed
    | uncalculated htarget hreason =>
      obtain ⟨g, hg⟩ := (Layout.calculate_iff h).mpr (happlies.fits _ _ htarget)
      rw [hreason] at hg
      cases hg
    | @unrecorded w area g reason htarget hg hreason =>
      have hremember := (d.remember_iff w l.id).mpr (happlies.recorded _ _ htarget)
      rw [hreason] at hremember
      cases hremember
    | unreported htarget hg hmoving =>
      obtain ⟨moving, hsome⟩ := movingTrace?_isSome (hsmall _ _ htarget) hg
      rw [hmoving] at hsome
      cases hsome
    | moved htarget hg hremember => exact ⟨_, rfl⟩

/-- What is placed is what was calculated, where there is something to place. -/
theorem placed_eq [StackRoom] {r : Option Geometry} (h : (d.place window l key).result = .ok r) :
    r = (d.target? window l key).bind fun target => (l.calculate target.2).toOption := by
  have hends := d.ends_place window l key
  rw [h] at hends
  cases hends with
  | nowhere htarget hkeyed => rw [htarget, Option.bind_none]
  | moved htarget hg hremember =>
    rw [htarget, Option.bind_some, hg]
    rfl

/-- No placement of a valid layout is stopped by what the layout is written with. -/
theorem place_ne_parse [StackRoom] (h : l.isValid = .ok true) {reason : ParseError}
    (hreason : (d.place window l key).result = .error (.layout (.parse reason))) : False := by
  have hends := d.ends_place window l key
  rw [hreason] at hends
  cases hends with
  | uncalculated htarget herror =>
    obtain ⟨r, hr⟩ := Layout.eval_of_calculate_error h herror
    cases hr

end Desk

/-- A command to place a valid layout leaves no failure exactly if the placement works. -/
theorem FocusedDesk.command_iff [StackRoom] {d : FocusedDesk} {l : Layout} {window : Option Handle}
    {key : Option Text} (h : l.isValid = .ok true) :
    (d.command l window key).failure = none ↔
      ∃ r, (d.desk.place (d.window? (window.or d.focused)) l key).result = .ok r := by
  unfold command
  dsimp only
  split
  · rename_i r hr
    exact iff_of_true rfl ⟨r, hr⟩
  -- a malformed field would be reported and leave no failure, but a valid layout has none
  · rename_i fault hfault
    exact (Desk.place_ne_parse h hfault).elim
  · rename_i reason hparse hreason
    apply iff_of_false nofun
    rintro ⟨r, hr⟩
    rw [hreason] at hr
    cases hr

/-! ## Single expressions -/

namespace CommandLine

theorem parse_of_verdict {t said : Text} (h : verdict t = .ok (said, true)) :
    ∃ e, Expr.parse t = .ok e := by
  unfold verdict at h
  cases hparse : Expr.parse t with
  | ok e => exact ⟨e, rfl⟩
  | error reason =>
    rw [hparse] at h
    cases reason with
    | malformed fault => cases h
    | numeralTooLong reason => cases h

/-- An expression that is good is evaluated, and the command succeeds, exactly if there is room for
    its sums and all its parts stay finite. -/
theorem runEval_iff [StackRoom] {t : Text} {e : Expr} (h : Expr.parse t = .ok e) (size : Size)
    (files : FileTree) :
    (∃ done, runEval files t size = .ok done ∧ done.code = 0) ↔ Expr.FitsAt size t := by
  rw [← Expr.resolve_iff h]
  unfold runEval
  cases hresolve : Expr.resolve (some t) size with
  | ok n => exact iff_of_true ⟨_, rfl, rfl⟩ ⟨n, rfl⟩
  | error reason =>
    obtain ⟨r, rfl⟩ := Expr.resolve_error h hresolve
    apply iff_of_false
    · rintro ⟨done, hdone, -⟩
      cases hdone
    · exact nofun

end CommandLine

/-! ## What was found valid, when it is applied -/

namespace Layout

/-- A valid layout is calculated, placed and carried out on command, and a good expression is
    evaluated, exactly as far as there is room for sums, values stay finite, monitors have keys and
    a choice can be recorded; and short fields have room and stay finite. -/
theorem validated_applies [StackRoom] (l : Layout) (t : Text) :
    (l.isValid = .ok true →
      (∀ area, ((∃ g, l.calculate area = .ok g) ↔ l.Fits area) ∧
        (Expr.safeDepth ≤ StackRoom.sums → area.IsSmall →
          (∀ t ∈ l.fields, t.length ≤ Expr.safeLength) → l.Fits area)) ∧
      (∀ (d : Desk) (window : Option Window) (key : Option Text), d.InSmallArea window l key →
        ((∃ r, (d.place window l key).result = .ok r) ↔ d.Applies window l key) ∧
        ∀ r, (d.place window l key).result = .ok r →
          r = (d.target? window l key).bind fun target => (l.calculate target.2).toOption) ∧
      ∀ (d : FocusedDesk) (named : Option Handle) (key : Option Text),
        let window := d.window? (named.or d.focused)
        d.desk.InSmallArea window l key →
        ((d.hear (.applyLayout l named key)).failure = none ↔ d.desk.Applies window l key)) ∧
    ((∃ said, CommandLine.verdict t = .ok (said, true)) → ∀ size : Size,
      (∀ env arguments files p, CommandLine.prepare env arguments = .ok p →
        p.command = .eval t size →
        ((∃ done, CommandLine.run env arguments files = .ok done ∧ done.code = 0) ↔
          Expr.FitsAt size t)) ∧
      (Expr.safeDepth ≤ StackRoom.sums → size.IsSmall → t.length ≤ Expr.safeLength →
        Expr.FitsAt size t)) := by
  constructor
  · intro h
    refine ⟨?_, ?_, ?_⟩
    · intro area
      exact ⟨calculate_iff h, fits_of_length⟩
    · intro d window key hsmall
      exact ⟨Desk.place_iff h hsmall, fun r => Desk.placed_eq⟩
    · intro d named key window hsmall
      exact (FocusedDesk.command_iff h).trans (Desk.place_iff h hsmall)
  · rintro ⟨said, hverdict⟩ size
    obtain ⟨e, he⟩ := CommandLine.parse_of_verdict hverdict
    refine ⟨?_, Expr.fitsAt_of_length⟩
    intro env arguments files p hprepare hcommand
    have hrun : CommandLine.run env arguments files = CommandLine.runEval files t size := by
      unfold CommandLine.run
      rw [hprepare]
      show CommandLine.runCommand p.settings p.least files p.command = _
      rw [hcommand]
      rfl
    rw [hrun]
    exact CommandLine.runEval_iff he size files

/-- A screen, and a layout for its left half below a bar. -/
def screen : Area := ⟨0, 0, 1920, 1080⟩

def leftHalf : Layout :=
  ⟨text "left", text "Left", text "0", text "30px", text "1/2", text "100% - 30px", none⟩

/-- A desk with one window on the screen. -/
def screenDesk : FocusedDesk :=
  ⟨⟨.ofList [⟨0, screen, screen, true⟩], true, 0, Run.smallStore 9, .empty ⟨.slash, []⟩⟩,
    [(text "w", ⟨text "w", 1, some (text "c"), none, false, some (text "0"), 0, []⟩)],
    some (text "w")⟩

def heightArguments : List Text := [text "eval", text "100% - 30px", text "1080"]

theorem validated_applies_left :
    leftHalf.isValid = .ok true ∧ leftHalf.Fits screen ∧
      (screenDesk.hear (.applyLayout leftHalf none none)).failure = none ∧
      ∀ files, ∃ done, CommandLine.run [] heightArguments files = .ok done ∧ done.code = 0 := by
  have hvalid : leftHalf.isValid = .ok true := by decide +kernel
  have hscreen : screen.IsSmall := ⟨by decide, by decide, by decide, by decide⟩
  have hshort : ∀ t ∈ leftHalf.fields, t.length ≤ Expr.safeLength := by decide
  obtain ⟨hlayouts, hexpressions⟩ := validated_applies leftHalf (text "100% - 30px")
  obtain ⟨hcalculate, -, hcommand⟩ := hlayouts hvalid
  have hroom : Expr.safeDepth ≤ StackRoom.sums := by decide
  have hfits : leftHalf.Fits screen := (hcalculate screen).2 hroom hscreen hshort
  have htargets : ∀ w area, screenDesk.desk.target? (screenDesk.window? (some (text "w"))) leftHalf
      none = some (w, area) → w.identity.windowId = 1 ∧ area = screen := by
    intro w area htarget
    have hpair := Option.some.inj htarget
    exact ⟨(congrArg (fun target => target.1.identity.windowId) hpair).symm,
      (congrArg Prod.snd hpair).symm⟩
  refine ⟨hvalid, hfits, ?_, ?_⟩
  · apply (hcommand screenDesk none none _).mpr
    · constructor
      case keyed =>
        rintro ⟨w, reason, hwindow, hkeyless⟩
        have hchosen : (screenDesk.desk.target? (screenDesk.window? (some (text "w"))) leftHalf
            none).isSome = true := by
          decide +kernel
        rw [Desk.target?, show screenDesk.window? (some (text "w")) = some w from hwindow,
          Option.bind_some, hkeyless] at hchosen
        cases hchosen
      case fits =>
        intro w area htarget
        rw [(htargets w area htarget).2]
        exact hfits
      case recorded =>
        intro w area htarget
        have haccepted : screenDesk.desk.store.path.IsAccepted :=
          ⟨by decide, by decide +kernel, by decide +kernel⟩
        have hmade :
            ¬ screenDesk.desk.files.isTooDeep screenDesk.desk.store.path.parent = true := by
          decide +kernel
        have hshowable : (screenDesk.desk.choice w leftHalf.id).IsShowable := by
          rw [Desk.choice, Operation.IsShowable, (htargets w area htarget).1]
          decide
        have htimes : screenDesk.desk.store.HasShowableTimes := List.forall_mem_nil _
        exact Run.not_fails haccepted htimes hmade hshowable
    · intro w area htarget
      rw [(htargets w area htarget).2]
      exact hscreen
  · intro files
    have hverdict : CommandLine.verdict (text "100% - 30px") =
        .ok (text "'100% - 30px': ok\n", true) := by decide +kernel
    have hprepare : (CommandLine.prepare [] heightArguments).toOption.map (·.command) =
        some (.eval (text "100% - 30px") (.real (Double.ofInt 1080))) := by decide +kernel
    have hsmall : (Size.real (Double.ofInt 1080)).IsSmall :=
      (Double.within_ofInt (k := 30) (by decide) (by decide)).isSmall (by decide)
    obtain ⟨heval, hshort⟩ := hexpressions ⟨_, hverdict⟩ (.real (Double.ofInt 1080))
    cases hp : CommandLine.prepare [] heightArguments with
    | error reason =>
      rw [hp] at hprepare
      cases hprepare
    | ok p =>
      rw [hp] at hprepare
      exact (heval [] heightArguments files p hp (Option.some.inj hprepare)).mpr
        (hshort hroom hsmall (by decide))

/-- A layout whose horizontal position has too many digits for a double. -/
def farLayout : Layout :=
  ⟨text "far", text "Far", List.replicate 400 (CodePoint.ofChar '9') ++ text "px", text "0",
    text "50%", text "100%", none⟩

/-- Being valid is not enough: a value may be infinite, and then there is no whole number. -/
theorem valid_overflows :
    farLayout.isValid = .ok true ∧
      farLayout.calculate screen = .error (.eval (.notWhole .infinite)) ∧
      (screenDesk.hear (.applyLayout farLayout none none)).failure =
        some (.layout (.eval (.notWhole .infinite))) := by
  decide +kernel

end Layout

end WindowLayouts
