import Mathlib.Data.List.Basic
import WindowLayouts.Expr.Parser
import WindowLayouts.Proofs.Rounding
import WindowLayouts.Proofs.Trimming

/- The terms of layout expressions, and the reading of one term. A term is the bare zero, a fraction
   of two whole numbers, or a number with a unit; blanks may stand between its parts, and none at
   its ends.

     `Expr.IsNumber`         the numbers, each with the double nearest to it
     `Expr.IsTerm`           the terms, each with the expression that it stands for
     `Expr.number?_iff`      numbers are read as they should be
     `Expr.parseTerm_iff`    a trimmed text is read as a term exactly if it is one -/
namespace WindowLayouts.Expr

/-! ## Numbers and terms -/

/-- A number: digits, then perhaps a point and digits. It stands for the double nearest to it. -/
inductive IsNumber : Text → Double → Prop where
  | whole {digits : Text} {x : Double} (hdigits : Numeral.isDigits digits = true)
    (hx : Double.IsNearest false (Numeral.value digits) 1 x) : IsNumber digits x
  | point {whole fraction : Text} {x : Double} (hwhole : Numeral.isDigits whole = true)
    (hfraction : Numeral.isDigits fraction = true)
    (hx : Double.IsNearest false (Numeral.value (whole ++ fraction)) (10 ^ fraction.length) x) :
    IsNumber (whole ++ CodePoint.ofChar '.' :: fraction) x

/-- A whole number of a fraction, of no more digits than can be read. -/
structure IsWhole (digits : Text) : Prop where
  isDigits : Numeral.isDigits digits = true
  length_le : digits.length ≤ Numeral.maxDigits

/-- A term, with what it stands for. -/
inductive IsTerm : Text → Expr → Prop where
  | zero : IsTerm (text "0") .zero
  | fraction {upper before after lower : Text} (hupper : IsWhole upper) (hlower : IsWhole lower)
    (hzero : ∃ c ∈ lower, c ≠ CodePoint.ofChar '0') (hbefore : before.IsBlank)
    (hafter : after.IsBlank) :
    IsTerm ((upper ++ before) ++ CodePoint.ofChar '/' :: (after ++ lower))
      (.fraction (Numeral.value upper) (Numeral.value lower))
  | percentage {number blanks : Text} {x : Double} (hnumber : IsNumber number x)
    (hblanks : blanks.IsBlank) :
    IsTerm ((number ++ blanks) ++ text "%") (.percentage (x.div (Double.ofInt 100)))
  | pixel {number blanks : Text} {x : Double} (hnumber : IsNumber number x)
    (hblanks : blanks.IsBlank) : IsTerm ((number ++ blanks) ++ text "px") (.pixel x)

/-! ## Code points of the parts -/

theorem ne_of_isDigit {c d : CodePoint} (hc : c.isDigit = true) (hd : d.isDigit = false) :
    c ≠ d := by
  rintro rfl
  rw [hc] at hd
  cases hd

theorem isDigit_of_mem {digits : Text} (h : Numeral.isDigits digits = true) {c : CodePoint}
    (hc : c ∈ digits) : c.isDigit = true :=
  (Numeral.isDigits_iff.mp h).2 c hc

theorem exists_cons_of_isDigits {digits : Text} (h : Numeral.isDigits digits = true) :
    ∃ c rest, digits = c :: rest :=
  List.exists_cons_of_ne_nil (Numeral.isDigits_iff.mp h).1

theorem isBlank_of_isDigit {c : CodePoint} (h : c.isDigit = true) : c.isBlank = false := by
  simp only [CodePoint.isDigit, Bool.and_eq_true, decide_eq_true_eq] at h
  simp only [CodePoint.isBlank, Bool.or_eq_false_iff, Bool.and_eq_false_imp, decide_eq_true_eq,
    decide_eq_false_iff_not, beq_eq_false_iff_ne]
  omega

theorem IsNumber.mem {t : Text} {x : Double} (h : IsNumber t x) {c : CodePoint} (hc : c ∈ t) :
    c.isDigit = true ∨ c = CodePoint.ofChar '.' := by
  cases h with
  | whole hdigits _ => exact Or.inl (isDigit_of_mem hdigits hc)
  | point hwhole hfraction _ =>
    rw [List.mem_append, List.mem_cons] at hc
    rcases hc with hc | hc | hc
    · exact Or.inl (isDigit_of_mem hwhole hc)
    · exact Or.inr hc
    · exact Or.inl (isDigit_of_mem hfraction hc)

/-- The first code point of a number is a digit. -/
theorem IsNumber.head {t : Text} {x : Double} (h : IsNumber t x) :
    ∃ c rest, t = c :: rest ∧ c.isDigit = true := by
  cases h with
  | whole hdigits _ =>
    obtain ⟨c, rest, rfl⟩ := exists_cons_of_isDigits hdigits
    exact ⟨c, rest, rfl, isDigit_of_mem hdigits List.mem_cons_self⟩
  | point hwhole _ _ =>
    obtain ⟨c, rest, rfl⟩ := exists_cons_of_isDigits hwhole
    exact ⟨c, _, rfl, isDigit_of_mem hwhole List.mem_cons_self⟩

/-- The last code point of a number is a digit. -/
theorem IsNumber.last {t : Text} {x : Double} (h : IsNumber t x) {c : CodePoint}
    (hc : t.getLast? = some c) : c.isDigit = true := by
  cases h with
  | whole hdigits _ => exact isDigit_of_mem hdigits (List.mem_of_getLast? hc)
  | point hwhole hfraction _ =>
    obtain ⟨d, rest, rfl⟩ := exists_cons_of_isDigits hfraction
    rw [List.getLast?_append_cons, List.getLast?_cons_cons] at hc
    exact isDigit_of_mem hfraction (List.mem_of_getLast? hc)

theorem trim_digits {digits : Text} (h : Numeral.isDigits digits = true) :
    digits.trim = digits := by
  apply Text.trim_eq_self
  · exact fun c hc => isBlank_of_isDigit (isDigit_of_mem h (List.mem_of_head? hc))
  · exact fun c hc => isBlank_of_isDigit (isDigit_of_mem h (List.mem_of_getLast? hc))

theorem IsNumber.trim {t : Text} {x : Double} (h : IsNumber t x) : t.trim = t := by
  apply Text.trim_eq_self
  · intro c hc
    obtain ⟨d, rest, rfl, hd⟩ := h.head
    obtain rfl := Option.some.inj hc
    exact isBlank_of_isDigit hd
  · exact fun c hc => isBlank_of_isDigit (h.last hc)

/-- A term begins with a digit. -/
theorem IsTerm.head {t : Text} {e : Expr} (h : IsTerm t e) :
    ∃ c rest, t = c :: rest ∧ c.isDigit = true := by
  cases h with
  | zero => exact ⟨_, _, rfl, by decide⟩
  | fraction hupper _ _ _ _ =>
    obtain ⟨c, rest, rfl⟩ := exists_cons_of_isDigits hupper.isDigits
    exact ⟨c, _, rfl, isDigit_of_mem hupper.isDigits List.mem_cons_self⟩
  | percentage hnumber _ =>
    obtain ⟨c, rest, rfl, hc⟩ := hnumber.head
    exact ⟨c, _, rfl, hc⟩
  | pixel hnumber _ =>
    obtain ⟨c, rest, rfl, hc⟩ := hnumber.head
    exact ⟨c, _, rfl, hc⟩

/-- A term ends with no blank. -/
theorem IsTerm.last {t : Text} {e : Expr} (h : IsTerm t e) {c : CodePoint}
    (hc : t.getLast? = some c) : c.isBlank = false := by
  cases h with
  | zero =>
    obtain rfl := Option.some.inj hc
    decide
  | fraction _ hlower _ _ _ =>
    obtain ⟨d, rest, rfl⟩ := exists_cons_of_isDigits hlower.isDigits
    rw [List.getLast?_append_cons, ← List.cons_append, List.getLast?_append_cons] at hc
    exact isBlank_of_isDigit (isDigit_of_mem hlower.isDigits (List.mem_of_getLast? hc))
  | percentage _ _ =>
    have hunit : text "%" = [CodePoint.ofChar '%'] := by decide
    rw [hunit, List.getLast?_concat] at hc
    obtain rfl := Option.some.inj hc
    decide
  | pixel _ _ =>
    have hunit : text "px" = [CodePoint.ofChar 'p', CodePoint.ofChar 'x'] := by decide
    rw [hunit, List.getLast?_append_cons] at hc
    obtain rfl := Option.some.inj hc
    decide

theorem IsTerm.trim {t : Text} {e : Expr} (h : IsTerm t e) : t.trim = t := by
  apply Text.trim_eq_self
  · intro c hc
    obtain ⟨d, rest, rfl, hd⟩ := h.head
    obtain rfl := Option.some.inj hc
    exact isBlank_of_isDigit hd
  · exact fun c hc => h.last hc

/-! ## Reading numbers -/

/-- The double of a number is the one nearest to it, and no other. -/
theorem eq_ofParts_iff (whole fraction : Text) (x : Double) :
    Decimal.ofParts whole fraction = x ↔
      Double.IsNearest false (Numeral.value (whole ++ fraction)) (10 ^ fraction.length) x := by
  have hparts := Decimal.isNearest_ofParts whole fraction
  have hpos : 0 < 10 ^ fraction.length := Nat.pow_pos (by decide)
  rw [Double.isNearest_iff hpos] at hparts ⊢
  rw [hparts]
  exact eq_comm

theorem isNumber_of_parts? {t whole fraction : Text}
    (h : Decimal.parts? t = some (whole, fraction)) :
    IsNumber t (Decimal.ofParts whole fraction) := by
  have hsplit : t.takeWhile CodePoint.isDigit ++ t.dropWhile CodePoint.isDigit = t :=
    List.takeWhile_append_dropWhile
  have hall : ∀ c ∈ t.takeWhile CodePoint.isDigit, c.isDigit = true :=
    fun c hc => List.mem_takeWhile_imp hc
  unfold Decimal.parts? at h
  rw [List.span_eq_takeWhile_dropWhile] at h
  generalize t.takeWhile CodePoint.isDigit = digits at h hsplit hall
  generalize t.dropWhile CodePoint.isDigit = rest at h hsplit
  cases digits with
  | nil => cases h
  | cons d more =>
    have hdigits : Numeral.isDigits (d :: more) = true :=
      Numeral.isDigits_iff.mpr ⟨List.cons_ne_nil _ _, hall⟩
    cases rest with
    | nil =>
      obtain ⟨rfl, rfl⟩ := Prod.mk.inj (Option.some.inj h)
      have hnearest := (eq_ofParts_iff (d :: more) [] _).mp rfl
      rw [List.append_nil] at hsplit hnearest
      rw [← hsplit]
      exact .whole hdigits hnearest
    | cons c after =>
      dsimp only at h
      split at h
      · rename_i hpoint
        obtain ⟨hc, hfraction⟩ := Bool.and_eq_true_iff.mp hpoint
        obtain ⟨rfl, rfl⟩ := Prod.mk.inj (Option.some.inj h)
        rw [← hsplit, of_decide_eq_true hc]
        exact .point hdigits hfraction ((eq_ofParts_iff _ _ _).mp rfl)
      · cases h

theorem parts?_whole {digits : Text} (h : Numeral.isDigits digits = true) :
    Decimal.parts? digits = some (digits, []) := by
  have hspan := Numeral.span_digits (fun _ => isDigit_of_mem h) [] nofun
  rw [List.append_nil] at hspan
  obtain ⟨c, more, rfl⟩ := exists_cons_of_isDigits h
  unfold Decimal.parts?
  rw [hspan]

theorem parts?_point {whole fraction : Text} (hwhole : Numeral.isDigits whole = true)
    (hfraction : Numeral.isDigits fraction = true) :
    Decimal.parts? (whole ++ CodePoint.ofChar '.' :: fraction) = some (whole, fraction) := by
  have hpoint : ∀ c, (CodePoint.ofChar '.' :: fraction).head? = some c → c.isDigit = false := by
    intro c hc
    obtain rfl := Option.some.inj hc
    decide
  have hspan := Numeral.span_digits (fun _ => isDigit_of_mem hwhole) _ hpoint
  obtain ⟨c, more, rfl⟩ := exists_cons_of_isDigits hwhole
  unfold Decimal.parts?
  rw [hspan]
  dsimp only
  rw [decide_eq_true rfl, Bool.true_and, if_pos hfraction]

/-- A text is read as a number exactly if it is one, and as the double nearest to it. -/
theorem number?_iff {t : Text} {x : Double} : Decimal.number? t = some x ↔ IsNumber t x := by
  constructor
  · intro h
    obtain ⟨⟨whole, fraction⟩, hparts, rfl⟩ := Option.map_eq_some_iff.mp h
    exact isNumber_of_parts? hparts
  · rintro (⟨hdigits, hx⟩ | ⟨hwhole, hfraction, hx⟩)
    · rw [← List.append_nil t] at hx
      rw [Decimal.number?, parts?_whole hdigits]
      exact congrArg some ((eq_ofParts_iff t [] x).mpr hx)
    · rw [Decimal.number?, parts?_point hwhole hfraction]
      exact congrArg some ((eq_ofParts_iff _ _ x).mpr hx)

/-! ## Reading whole numbers -/

/-- A row of digits stands for zero only if all of them are zero. -/
theorem value_ne_zero_iff {digits : Text} (h : Numeral.isDigits digits = true) :
    Numeral.value digits ≠ 0 ↔ ∃ c ∈ digits, c ≠ CodePoint.ofChar '0' := by
  rw [Ne, Numeral.value_eq_zero_iff fun c hc => isDigit_of_mem h hc]
  simp only [not_forall, exists_prop, ne_eq]

theorem readNumeral_iff {digits : Text} {n : Nat} :
    readNumeral digits = .ok n ↔ digits.length ≤ Numeral.maxDigits ∧ n = Numeral.value digits := by
  unfold readNumeral Numeral.read
  split
  · rename_i hshort
    constructor
    · intro h
      exact ⟨hshort, (Except.ok.inj h).symm⟩
    · rintro ⟨-, rfl⟩
      rfl
  · rename_i hlong
    constructor
    · exact nofun
    · exact fun h => absurd h.1 hlong

theorem readNumeral_error_iff {digits : Text} {reason : TermError} :
    readNumeral digits = .error reason ↔
      Numeral.maxDigits < digits.length ∧ reason = .numeralTooLong ⟨digits.length⟩ := by
  unfold readNumeral Numeral.read
  split
  · simp only [Except.mapError, reduceCtorEq, false_iff, not_and]
    omega
  · simp only [Except.mapError, Except.error.injEq, eq_comm]
    exact iff_and_self.mpr fun _ => by omega

/-! ## Reading terms -/

/-- What two reads give, the second gives from what the first gave. -/
theorem bind_ok {ε α β : Type} {x : Except ε α} {f : α → Except ε β} {b : β}
    (h : x.bind f = .ok b) : ∃ a, x = .ok a ∧ f a = .ok b := by
  cases x with
  | error reason => cases h
  | ok a => exact ⟨a, rfl, h⟩

/-- Why there is no result, if there is none. -/
def errorOf? {ε α : Type} : Except ε α → Option ε
  | .ok _ => none
  | .error reason => some reason

theorem errorOf?_eq_some_iff {ε α : Type} {x : Except ε α} {reason : ε} :
    errorOf? x = some reason ↔ x = .error reason := by
  cases x <;> simp [errorOf?]

theorem errorOf?_eq_none_iff {ε α : Type} {x : Except ε α} :
    errorOf? x = none ↔ ∃ a, x = .ok a := by
  cases x <;> simp [errorOf?]

theorem mapError_ok {ε δ α : Type} {x : Except ε α} {f : ε → δ} {a : α} :
    x.mapError f = .ok a ↔ x = .ok a := by
  cases x <;> simp [Except.mapError]

theorem mapError_error {ε δ α : Type} {x : Except ε α} {f : ε → δ} {r : δ} :
    x.mapError f = .error r ↔ ∃ reason, x = .error reason ∧ f reason = r := by
  cases x <;> simp [Except.mapError]

theorem not_mem_of_isDigits {digits : Text} (h : Numeral.isDigits digits = true) {c : CodePoint}
    (hc : c.isDigit = false) : c ∉ digits :=
  fun hmem => ne_of_isDigit (isDigit_of_mem h hmem) hc rfl

theorem contains_of_isDigits {digits : Text} (h : Numeral.isDigits digits = true) {c : CodePoint}
    (hc : c.isDigit = false) : digits.contains c = false := by
  rw [List.contains_eq_mem, decide_eq_false_iff_not]
  exact not_mem_of_isDigits h hc

theorem not_mem_of_isBlank {t : Text} (h : t.IsBlank) {c : CodePoint} (hc : c.isBlank = false) :
    c ∉ t := by
  intro hmem
  rw [h c hmem] at hc
  cases hc

/-- Two rows of digits with a stroke between them: the lower one is read first. -/
theorem parseFraction_digits {upper before after lower : Text}
    (hupper : Numeral.isDigits upper = true) (hlower : Numeral.isDigits lower = true)
    (hbefore : before.IsBlank) (hafter : after.IsBlank) :
    let term := (upper ++ before) ++ CodePoint.ofChar '/' :: (after ++ lower)
    parseFraction term = (readNumeral lower).bind fun denominator =>
      if denominator = 0 then .error (.malformed .divisionByZero term)
      else (readNumeral upper).bind fun numerator => .ok (.fraction numerator denominator) := by
  have hstroke : (CodePoint.ofChar '/').isDigit = false := by decide
  have hblank : (CodePoint.ofChar '/').isBlank = false := by decide
  have hpoint : (CodePoint.ofChar '.').isDigit = false := by decide
  have hleft : CodePoint.ofChar '/' ∉ upper ++ before := by
    rw [List.mem_append]
    exact not_or.mpr ⟨not_mem_of_isDigits hupper hstroke, not_mem_of_isBlank hbefore hblank⟩
  have hright : CodePoint.ofChar '/' ∉ after ++ lower := by
    rw [List.mem_append]
    exact not_or.mpr ⟨not_mem_of_isBlank hafter hblank, not_mem_of_isDigits hlower hstroke⟩
  have htrimUpper : (upper ++ before).trim = upper := by
    have h := Text.trim_blanks Text.isBlank_nil hbefore upper
    rw [List.nil_append] at h
    rw [h, trim_digits hupper]
  have htrimLower : (after ++ lower).trim = lower := by
    have h := Text.trim_blanks hafter Text.isBlank_nil lower
    rw [List.append_nil] at h
    rw [h, trim_digits hlower]
  intro term
  unfold parseFraction
  rw [Text.splitOn_pair hleft hright]
  simp only [htrimUpper, htrimLower, contains_of_isDigits hupper hpoint,
    contains_of_isDigits hlower hpoint, hupper, hlower, Bool.or_false, Bool.and_true,
    Bool.not_true, Bool.false_eq_true, if_false, bind]

/-- A fraction is malformed, or it has two rows of digits around its stroke: the sides of the stroke
    may have blanks around them, but the whole term has none. -/
theorem parseFraction_cases {term : Text} (htrim : term.trim = term) :
    (∃ category detail, parseFraction term = .error (.malformed category detail)) ∨
      ∃ upper before after lower : Text,
        term = (upper ++ before) ++ CodePoint.ofChar '/' :: (after ++ lower) ∧
          Numeral.isDigits upper = true ∧ Numeral.isDigits lower = true ∧
          before.IsBlank ∧ after.IsBlank := by
  unfold parseFraction
  split
  · rename_i left right hsplit
    dsimp only
    split
    · exact Or.inl ⟨_, _, rfl⟩
    · split
      · exact Or.inl ⟨_, _, rfl⟩
      · rename_i hdigits
        right
        rw [Bool.not_eq_true', Bool.not_eq_false, Bool.and_eq_true] at hdigits
        have hterm : term = left ++ CodePoint.ofChar '/' :: right := by
          have hjoin := Text.splitOn_join (CodePoint.ofChar '/') term
          rw [hsplit, List.intercalate_cons_cons, List.intercalate_singleton,
            List.append_assoc] at hjoin
          exact hjoin.symm
        obtain ⟨first, before, hfirst, hbefore, hleft⟩ := Text.trim_split left
        obtain ⟨after, last, hafter, hlast, hright⟩ := Text.trim_split right
        have hparts : term = first ++
            ((left.trim ++ before) ++ CodePoint.ofChar '/' :: (after ++ right.trim)) ++ last := by
          rw [hterm]
          conv_lhs => rw [hleft, hright]
          simp only [List.append_assoc, List.cons_append]
        rw [hparts] at htrim
        obtain ⟨rfl, rfl⟩ := Text.ends_of_trim hfirst hlast htrim
        rw [List.nil_append, List.append_nil] at hparts
        exact ⟨left.trim, before, after, right.trim, hparts, hdigits.1, hdigits.2, hbefore, hafter⟩
  · exact Or.inl ⟨_, _, rfl⟩

theorem parseFraction_complete {upper before after lower : Text} (hupper : IsWhole upper)
    (hlower : IsWhole lower) (hzero : ∃ c ∈ lower, c ≠ CodePoint.ofChar '0')
    (hbefore : before.IsBlank) (hafter : after.IsBlank) :
    parseFraction ((upper ++ before) ++ CodePoint.ofChar '/' :: (after ++ lower)) =
      .ok (.fraction (Numeral.value upper) (Numeral.value lower)) := by
  have hreadLower : readNumeral lower = .ok (Numeral.value lower) :=
    readNumeral_iff.mpr ⟨hlower.length_le, rfl⟩
  have hreadUpper : readNumeral upper = .ok (Numeral.value upper) :=
    readNumeral_iff.mpr ⟨hupper.length_le, rfl⟩
  have hpositive : ¬ Numeral.value lower = 0 := (value_ne_zero_iff hlower.isDigits).mpr hzero
  rw [parseFraction_digits hupper.isDigits hlower.isDigits hbefore hafter, hreadLower, hreadUpper]
  exact if_neg hpositive

theorem parseFraction_sound {term : Text} {e : Expr} (htrim : term.trim = term)
    (h : parseFraction term = .ok e) : IsTerm term e := by
  rcases parseFraction_cases htrim with
    ⟨category, detail, herror⟩ | ⟨upper, before, after, lower, rfl, hupper, hlower, hbefore, hafter⟩
  · rw [herror] at h
    cases h
  · rw [parseFraction_digits hupper hlower hbefore hafter] at h
    -- the denominator is read, found to be no zero, and then the numerator is read
    obtain ⟨denominator, hbelow, h⟩ := bind_ok h
    split at h
    · cases h
    · rename_i hpositive
      obtain ⟨numerator, habove, h⟩ := bind_ok h
      obtain rfl := Except.ok.inj h
      obtain ⟨hlengthLower, rfl⟩ := readNumeral_iff.mp hbelow
      obtain ⟨hlengthUpper, rfl⟩ := readNumeral_iff.mp habove
      have hzero := (value_ne_zero_iff hlower).mp hpositive
      exact .fraction ⟨hupper, hlengthUpper⟩ ⟨hlower, hlengthLower⟩ hzero hbefore hafter

theorem dropEnding?_eq_some {ending t s : Text} :
    dropEnding? ending t = some s ↔ t = s ++ ending := by
  unfold dropEnding?
  rw [Option.ite_none_right_eq_some, List.isSuffixOf_iff_suffix]
  constructor
  · rintro ⟨⟨before, rfl⟩, hs⟩
    rw [List.length_append, Nat.add_sub_cancel, List.take_left] at hs
    rw [Option.some.inj hs]
  · rintro rfl
    refine ⟨List.suffix_append s ending, ?_⟩
    rw [List.length_append, Nat.add_sub_cancel, List.take_left]

/-- A number with a unit after it. -/
theorem isNumber_of_trim {term number ending : Text} {x : Double} (htrim : term.trim = term)
    (hterm : term = number ++ ending) (hx : Decimal.number? number.trim = some x) :
    ∃ digits blanks, term = (digits ++ blanks) ++ ending ∧ IsNumber digits x ∧ blanks.IsBlank := by
  obtain ⟨before, after, hbefore, hafter, hnumber⟩ := Text.trim_split number
  have hparts : term = before ++ ((number.trim ++ after) ++ ending) ++ [] := by
    rw [hterm]
    conv_lhs => rw [hnumber]
    simp only [List.append_assoc, List.append_nil]
  rw [hparts] at htrim
  obtain ⟨rfl, -⟩ := Text.ends_of_trim hbefore Text.isBlank_nil htrim
  rw [List.nil_append, List.append_nil] at hparts
  exact ⟨number.trim, after, hparts, number?_iff.mp hx, hafter⟩

theorem parseTerm_sound {term : Text} {e : Expr} (htrim : term.trim = term)
    (h : parseTerm term = .ok e) : IsTerm term e := by
  unfold parseTerm at h
  split at h
  · rename_i hzero
    rw [hzero, ← Except.ok.inj h]
    exact .zero
  · split at h
    · exact parseFraction_sound htrim h
    · split at h
      · rename_i number hending
        split at h
        · rename_i x hx
          obtain ⟨digits, blanks, hterm, hdigits, hblanks⟩ :=
            isNumber_of_trim htrim (dropEnding?_eq_some.mp hending) hx
          rw [hterm, ← Except.ok.inj h]
          exact .percentage hdigits hblanks
        · cases h
      · split at h
        · rename_i number hending
          split at h
          · rename_i x hx
            obtain ⟨digits, blanks, hterm, hdigits, hblanks⟩ :=
              isNumber_of_trim htrim (dropEnding?_eq_some.mp hending) hx
            rw [hterm, ← Except.ok.inj h]
            exact .pixel hdigits hblanks
          · cases h
        · cases h

/-- A number with blanks and a unit after it holds nothing else. -/
theorem not_mem_of_isNumber {number blanks ending : Text} {x : Double} (hnumber : IsNumber number x)
    (hblanks : blanks.IsBlank) {c : CodePoint} (hdigit : c.isDigit = false)
    (hpoint : c ≠ CodePoint.ofChar '.') (hblank : c.isBlank = false) (hending : c ∉ ending) :
    c ∉ (number ++ blanks) ++ ending := by
  rw [List.mem_append, List.mem_append]
  refine not_or.mpr ⟨not_or.mpr ⟨?_, not_mem_of_isBlank hblanks hblank⟩, hending⟩
  intro hmem
  rcases hnumber.mem hmem with hc | hc
  · exact ne_of_isDigit hc hdigit rfl
  · exact hpoint hc

theorem not_contains_stroke {number blanks ending : Text} {x : Double} (hnumber : IsNumber number x)
    (hblanks : blanks.IsBlank) (hending : CodePoint.ofChar '/' ∉ ending) :
    ¬ ((number ++ blanks) ++ ending).contains (CodePoint.ofChar '/') = true := by
  rw [List.contains_eq_mem, decide_eq_true_eq]
  exact not_mem_of_isNumber hnumber hblanks (by decide) (by decide) (by decide) hending

theorem number?_trim {number blanks : Text} {x : Double} (hnumber : IsNumber number x)
    (hblanks : blanks.IsBlank) : Decimal.number? (number ++ blanks).trim = some x := by
  have h := Text.trim_blanks Text.isBlank_nil hblanks number
  rw [List.nil_append] at h
  rw [h, hnumber.trim, number?_iff.mpr hnumber]

/-- A text with a code point that the bare zero has not is another one. -/
theorem ne_zero_of_mem {t : Text} {c : CodePoint} (hc : c ∈ t) (hzero : c ∉ text "0") :
    ¬ t = text "0" := by
  rintro rfl
  exact hzero hc

theorem parseTerm_percentage {number blanks : Text} {x : Double} (hnumber : IsNumber number x)
    (hblanks : blanks.IsBlank) :
    parseTerm ((number ++ blanks) ++ text "%") = .ok (.percentage (x.div (Double.ofInt 100))) := by
  have hunit : CodePoint.ofChar '%' ∈ (number ++ blanks) ++ text "%" :=
    List.mem_append_right _ (by decide)
  unfold parseTerm
  rw [if_neg (ne_zero_of_mem hunit (by decide)),
    if_neg (not_contains_stroke hnumber hblanks (by decide)), dropEnding?_eq_some.mpr rfl]
  dsimp only
  rw [number?_trim hnumber hblanks]

theorem parseTerm_pixel {number blanks : Text} {x : Double} (hnumber : IsNumber number x)
    (hblanks : blanks.IsBlank) : parseTerm ((number ++ blanks) ++ text "px") = .ok (.pixel x) := by
  have hunit : CodePoint.ofChar 'p' ∈ (number ++ blanks) ++ text "px" :=
    List.mem_append_right _ (by decide)
  have hpercent : dropEnding? (text "%") ((number ++ blanks) ++ text "px") = none := by
    rw [Option.eq_none_iff_forall_not_mem]
    intro s hs
    have hnot : CodePoint.ofChar '%' ∉ (number ++ blanks) ++ text "px" :=
      not_mem_of_isNumber hnumber hblanks (by decide) (by decide) (by decide) (by decide)
    rw [dropEnding?_eq_some.mp hs] at hnot
    exact hnot (List.mem_append_right _ (by decide))
  unfold parseTerm
  rw [if_neg (ne_zero_of_mem hunit (by decide)),
    if_neg (not_contains_stroke hnumber hblanks (by decide)), hpercent, dropEnding?_eq_some.mpr rfl]
  dsimp only
  rw [number?_trim hnumber hblanks]

/-- A text with a stroke is read as a fraction. -/
theorem parseTerm_of_stroke {term : Text} (hstroke : CodePoint.ofChar '/' ∈ term) :
    parseTerm term = parseFraction term := by
  unfold parseTerm
  rw [if_neg (ne_zero_of_mem hstroke (by decide)), if_pos (List.contains_iff_mem.mpr hstroke)]

theorem parseTerm_fraction {upper before after lower : Text} (hupper : IsWhole upper)
    (hlower : IsWhole lower) (hzero : ∃ c ∈ lower, c ≠ CodePoint.ofChar '0')
    (hbefore : before.IsBlank) (hafter : after.IsBlank) :
    parseTerm ((upper ++ before) ++ CodePoint.ofChar '/' :: (after ++ lower)) =
      .ok (.fraction (Numeral.value upper) (Numeral.value lower)) := by
  rw [parseTerm_of_stroke (List.mem_append_right _ List.mem_cons_self)]
  exact parseFraction_complete hupper hlower hzero hbefore hafter

theorem parseTerm_complete {term : Text} {e : Expr} (h : IsTerm term e) :
    parseTerm term = .ok e := by
  cases h with
  | zero => exact if_pos rfl
  | fraction hupper hlower hzero hbefore hafter =>
    exact parseTerm_fraction hupper hlower hzero hbefore hafter
  | percentage hnumber hblanks => exact parseTerm_percentage hnumber hblanks
  | pixel hnumber hblanks => exact parseTerm_pixel hnumber hblanks

/-- A trimmed text is read as a term exactly if it is one. -/
theorem parseTerm_iff {term : Text} {e : Expr} (htrim : term.trim = term) :
    parseTerm term = .ok e ↔ IsTerm term e :=
  ⟨parseTerm_sound htrim, parseTerm_complete⟩

end WindowLayouts.Expr
