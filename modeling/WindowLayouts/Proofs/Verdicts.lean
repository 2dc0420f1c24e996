import Mathlib.Data.List.Forall2
import WindowLayouts.Proofs.FaultOrder
import WindowLayouts.Proofs.ValidLayouts

/- When validation gives an answer. A text is an expression, or it has a fault, with one exception:
   a fraction that would be one but for a number of more digits than can be read. A text is judged
   unless the leftmost of its operands that cannot be read is such a fraction, and so are layouts,
   the expressions of a `check` and the expression of an `eval`.

     `Expr.IsOverlong`                  the fractions with a number that is too long
     `Expr.parseTerm_tooLong_iff`       the only terms that are refused without a fault
     `Expr.MeetsOverlong`               the texts in which such a fraction is met
     `Layout.isValid_iff`               when a layout is judged
     `CommandLine.runCheck_says`        what is said of expressions that are checked
     `CommandLine.validation_answers`   all of it
     `CommandLine.overlong_unjudged`    a text that is not judged -/
namespace WindowLayouts

namespace Expr

/-! ## Fractions that are too long -/

/-- A fraction with a number of more digits than can be read, and how many these are. The lower
    number is read first, and the upper one only under a lower one that is not zero. -/
inductive IsOverlong : Text → Nat → Prop where
  | lower {upper before after lower : Text} (hupper : Numeral.isDigits upper = true)
    (hlower : Numeral.isDigits lower = true) (hbefore : before.IsBlank) (hafter : after.IsBlank)
    (hlong : Numeral.maxDigits < lower.length) :
    IsOverlong ((upper ++ before) ++ CodePoint.ofChar '/' :: (after ++ lower)) lower.length
  | upper {upper before after lower : Text} (hupper : Numeral.isDigits upper = true)
    (hlower : IsWhole lower) (hzero : ∃ c ∈ lower, c ≠ CodePoint.ofChar '0')
    (hbefore : before.IsBlank) (hafter : after.IsBlank)
    (hlong : Numeral.maxDigits < upper.length) :
    IsOverlong ((upper ++ before) ++ CodePoint.ofChar '/' :: (after ++ lower)) upper.length

theorem parseFraction_tooLong {term : Text} {n : Nat} (h : IsOverlong term n) :
    parseFraction term = .error (.numeralTooLong ⟨n⟩) := by
  cases h with
  | lower hupper hlower hbefore hafter hlong =>
    rw [parseFraction_digits hupper hlower hbefore hafter,
      readNumeral_error_iff.mpr ⟨hlong, rfl⟩]
    rfl
  | upper hupper hlower hzero hbefore hafter hlong =>
    have hpositive := (value_ne_zero_iff hlower.isDigits).mpr hzero
    rw [parseFraction_digits hupper hlower.isDigits hbefore hafter,
      readNumeral_iff.mpr ⟨hlower.length_le, rfl⟩, readNumeral_error_iff.mpr ⟨hlong, rfl⟩]
    exact if_neg hpositive

theorem isOverlong_of_parseFraction {term : Text} {n : Nat} (htrim : term.trim = term)
    (h : parseFraction term = .error (.numeralTooLong ⟨n⟩)) : IsOverlong term n := by
  rcases parseFraction_cases htrim with
    ⟨category, detail, herror⟩ | ⟨upper, before, after, lower, rfl, hupper, hlower, hbefore, hafter⟩
  · rw [herror] at h
    cases h
  · rw [parseFraction_digits hupper hlower hbefore hafter] at h
    cases hbelow : readNumeral lower with
    | error reason =>
      rw [hbelow] at h
      obtain rfl := Except.error.inj h
      obtain ⟨hlong, hreason⟩ := readNumeral_error_iff.mp hbelow
      cases hreason
      exact .lower hupper hlower hbefore hafter hlong
    | ok denominator =>
      obtain ⟨hlength, hvalue⟩ := readNumeral_iff.mp hbelow
      simp only [hbelow, Except.bind] at h
      split at h
      · cases h
      · rename_i hpositive
        rw [hvalue] at hpositive
        cases habove : readNumeral upper with
        | ok numerator => simp [habove] at h
        | error reason =>
          simp only [habove, Except.error.injEq] at h
          obtain ⟨hlong, hreason⟩ := readNumeral_error_iff.mp habove
          rw [h] at hreason
          cases hreason
          exact .upper hupper ⟨hlower, hlength⟩ ((value_ne_zero_iff hlower).mp hpositive) hbefore
            hafter hlong

/-- Overlong fractions are the only trimmed texts that are refused without a fault. -/
theorem parseTerm_tooLong_iff {term : Text} (htrim : term.trim = term) {n : Nat} :
    parseTerm term = .error (.numeralTooLong ⟨n⟩) ↔ IsOverlong term n := by
  constructor
  · intro h
    unfold parseTerm at h
    split at h
    · cases h
    · split at h
      · exact isOverlong_of_parseFraction htrim h
      · split at h <;> split at h
        · cases h
        · cases h
        · split at h <;> cases h
        · cases h
  · intro h
    have hstroke : CodePoint.ofChar '/' ∈ term := by cases h <;> simp
    rw [parseTerm_of_stroke hstroke]
    exact parseFraction_tooLong h

theorem IsOverlong.length_le {term : Text} {n : Nat} (h : IsOverlong term n) :
    Numeral.maxDigits + 3 ≤ term.length := by
  have hdigits : ∀ digits : Text, Numeral.isDigits digits = true → 1 ≤ digits.length := by
    intro digits hdigits
    obtain ⟨c, more, rfl⟩ := exists_cons_of_isDigits hdigits
    simp
  cases h with
  | lower hupper hlower hbefore hafter hlong =>
    have hone := hdigits _ hupper
    simp only [List.length_append, List.length_cons]
    omega
  | upper hupper hlower hzero hbefore hafter hlong =>
    have hone := hdigits _ hlower.isDigits
    simp only [List.length_append, List.length_cons]
    omega

/-! ## Texts in which one is met -/

/-- All operands are there, and the leftmost one that is no operand of an expression is a fraction
    that is too long. -/
def MeetsOverlong (t : Text) (n : Nat) : Prop :=
  ∃ (p : Pieces) (before : List Text) (operand : Text) (after : List Text),
    p.Of t ∧ p.terms = before ++ operand :: after ∧ (∀ u ∈ p.terms, ¬ u.IsBlank) ∧
      (∀ earlier ∈ before, ∃ e, IsOperand earlier e) ∧ IsOverlong operand.trim n

/-- A text that is judged: it is an expression, or it has a fault. -/
def IsJudged (t : Text) : Prop := ¬ ∃ n, MeetsOverlong t n

theorem Pieces.ne_nil_of_judge {p : Pieces} {reason : Numeral.TooLong}
    (h : p.judge = .error (.numeralTooLong reason)) : ∀ term ∈ p.terms, term ≠ [] := by
  unfold judge at h
  split at h
  · cases h
  · split at h
    · cases h
    · split at h
      · cases h
      · rename_i hnone
        intro term hterm hnil
        rw [List.findIdx?_eq_none_iff] at hnone
        simpa [hnil] using hnone term hterm

theorem finding_eq_tooLong_iff {whole : ParseError} {reason : Numeral.TooLong} :
    whole.finding = .numeralTooLong reason ↔ whole = .numeralTooLong reason := by
  cases whole <;> simp [ParseError.finding]

/-- A text is refused without a fault exactly if a fraction that is too long is met. -/
theorem parse_tooLong_iff {t : Text} {n : Nat} :
    parse t = .error (.numeralTooLong ⟨n⟩) ↔ MeetsOverlong t n := by
  have hreads : ∀ u : Text, termFailure? u.trim = none ↔ ∃ e, IsOperand u e := by
    intro u
    rw [termFailure?, errorOf?_eq_none_iff]
    exact exists_congr fun e => ⟨isOperand_of_parseTerm, parseTerm_of_isOperand⟩
  have hoverlong : ∀ u : Text,
      termFailure? u.trim = some (.numeralTooLong ⟨n⟩) ↔ IsOverlong u.trim n := fun u =>
    errorOf?_eq_some_iff.trans (parseTerm_tooLong_iff (Text.trim_trim u))
  have hwhole : parse t = .error (.numeralTooLong ⟨n⟩) ↔
      ∃ whole, parse t = .error whole ∧ whole.finding = .numeralTooLong ⟨n⟩ := by
    simp [finding_eq_tooLong_iff]
  constructor
  · intro h
    -- terms are read last, so a number is found too long only where all operands are there
    have hjudge : (Pieces.cut t).trim.judge = .error (.numeralTooLong ⟨n⟩) := by
      rw [← mapError_finding, h]
      rfl
    have hoperands : ∀ u ∈ (Pieces.cut t).terms, ¬ u.IsBlank := by
      intro u hu hblank
      apply Pieces.ne_nil_of_judge hjudge u.trim _ (Text.trim_eq_nil_iff.mpr hblank)
      rw [Pieces.terms_trim]
      exact List.mem_map_of_mem hu
    have hfound := (findSome?_operands hoperands).mp (hwhole.mp h)
    obtain ⟨before, operand, after, hsplit, hoperand, hbefore⟩ :=
      List.findSome?_eq_some_iff.mp hfound
    exact ⟨Pieces.cut t, before, operand, after, Pieces.of_cut t, hsplit, hoperands,
      fun earlier hearlier => (hreads earlier).mp (hbefore earlier hearlier),
      (hoverlong operand).mp hoperand⟩
  · intro h
    obtain ⟨p, before, operand, after, hp, hsplit, hoperands, hbefore, hoperand⟩ := h
    obtain rfl := Pieces.of_iff.mp hp
    rw [hwhole, findSome?_operands hoperands, List.findSome?_eq_some_iff]
    exact ⟨before, operand, after, hsplit, (hoverlong operand).mpr hoperand,
      fun earlier hearlier => (hreads earlier).mpr (hbefore earlier hearlier)⟩

theorem MeetsOverlong.length_le {t : Text} {n : Nat} (h : MeetsOverlong t n) :
    Numeral.maxDigits + 3 ≤ t.length := by
  obtain ⟨p, before, operand, after, hp, hsplit, -, -, hoperand⟩ := h
  have hmem : operand ∈ p.terms := by simp [hsplit]
  have hoperandLength : operand.length ≤ t.length := by
    rw [← hp.join_eq]
    cases List.mem_cons.mp hmem with
    | inl hfirst => simp [hfirst, Pieces.join]
    | inr hlater =>
      obtain ⟨q, hq, rfl⟩ := List.mem_map.mp hlater
      obtain ⟨s, u, hrest⟩ := List.append_of_mem hq
      simp only [Pieces.join, hrest, List.flatMap_append, List.flatMap_cons, List.length_append,
        List.length_cons]
      omega
  calc Numeral.maxDigits + 3 ≤ operand.trim.length := hoperand.length_le
    _ ≤ operand.length := Text.length_trim_le operand
    _ ≤ t.length := hoperandLength

theorem isJudged_of_length {t : Text} (h : t.length < Numeral.maxDigits + 3) : IsJudged t := by
  rintro ⟨n, hn⟩
  have hlength := hn.length_le
  omega

/-- A text is judged exactly if it is read or has a fault. -/
theorem isJudged_iff {t : Text} :
    IsJudged t ↔ (∃ e, parse t = .ok e) ∨ ∃ fault, parse t = .error (.malformed fault) := by
  have htooLong :
      (∃ n, MeetsOverlong t n) ↔ ∃ reason, parse t = .error (.numeralTooLong reason) := by
    constructor
    · intro h
      obtain ⟨n, hn⟩ := h
      exact ⟨⟨n⟩, parse_tooLong_iff.mpr hn⟩
    · intro h
      obtain ⟨⟨n⟩, hn⟩ := h
      exact ⟨n, parse_tooLong_iff.mp hn⟩
  rw [IsJudged, htooLong]
  cases parse t with
  | ok e => simp
  | error reason => cases reason <;> simp

theorem isValid_answers_iff {source : Option Text} :
    (∃ b, isValid source = .ok b) ↔ IsJudged (source.getD []) := by
  rw [isJudged_iff, isValid, parse?]
  cases parse (source.getD []) with
  | ok e => simp
  | error reason => cases reason <;> simp

theorem isValid_iff {source : Option Text} :
    isValid source = .ok true ↔ ∃ e, IsExpression (source.getD []) e := by
  simp only [← parse_iff]
  rw [isValid, parse?]
  cases parse (source.getD []) with
  | ok e => simp
  | error reason => cases reason <;> simp

end Expr

/-! ## Layouts -/

/-- The first refusal ends a pass over a list. -/
theorem forM_error_iff {ε α : Type} {f : α → Except ε Unit} {xs : List α} {reason : ε} :
    xs.forM f = .error reason ↔ xs.findSome? (fun a => Expr.errorOf? (f a)) = some reason := by
  induction xs with
  | nil => simp [pure, Except.pure]
  | cons a rest ih =>
    rw [List.findSome?_cons]
    show (f a).bind (fun _ => rest.forM f) = _ ↔ _
    cases f a with
    | ok done => exact ih
    | error found => simp [Expr.errorOf?, Except.bind]

namespace Layout

variable {l : Layout}

/-- Every field is judged that comes after expressions only. -/
def IsJudged (l : Layout) : Prop :=
  ∀ (before : List Text) (source : Text) (after : List Text),
    l.fields = before ++ source :: after → (∀ earlier ∈ before, ∃ e, Expr.IsExpression earlier e) →
    Expr.IsJudged source

theorem validate_error_iff {reason : ParseError} :
    l.validate = .error reason ↔
      l.fields.findSome? (fun source => Expr.errorOf? (Expr.parse source)) = some reason := by
  have hfield : ∀ source, Expr.errorOf? ((Expr.parse source).bind fun _ => pure ()) =
      Expr.errorOf? (Expr.parse source) := by
    intro source
    cases Expr.parse source <;> rfl
  unfold validate
  rw [forM_error_iff]
  simp only [bind, hfield]

theorem not_isJudged_iff :
    ¬ l.IsJudged ↔ ∃ reason, l.validate = .error (.numeralTooLong reason) := by
  simp only [validate_error_iff, List.findSome?_eq_some_iff, Expr.errorOf?_eq_some_iff,
    Expr.errorOf?_eq_none_iff, Expr.parse_iff]
  constructor
  · intro h
    simp only [IsJudged, not_forall, Expr.IsJudged, not_not] at h
    obtain ⟨before, source, after, hsplit, hbefore, n, hn⟩ := h
    exact ⟨⟨n⟩, before, source, after, hsplit, Expr.parse_tooLong_iff.mpr hn, hbefore⟩
  · intro h hjudged
    obtain ⟨⟨n⟩, before, source, after, hsplit, hn, hbefore⟩ := h
    exact hjudged before source after hsplit hbefore ⟨n, Expr.parse_tooLong_iff.mp hn⟩

theorem isValid_answers_iff : (∃ b, l.isValid = .ok b) ↔ l.IsJudged := by
  rw [← not_iff_not, not_isJudged_iff, isValid]
  cases l.validate with
  | ok done => simp
  | error reason => cases reason <;> simp

theorem isValid_iff : l.isValid = .ok true ↔ ∀ t ∈ l.fields, ∃ e, Expr.IsExpression t e := by
  have hvalidate : l.isValid = .ok true ↔ ∀ reason, l.validate ≠ .error reason := by
    rw [isValid]
    cases l.validate with
    | ok done => simp
    | error reason => cases reason <;> simp
  simp only [hvalidate, ne_eq, validate_error_iff, ← Option.eq_none_iff_forall_ne_some,
    List.findSome?_eq_none_iff, Expr.errorOf?_eq_none_iff, Expr.parse_iff]

end Layout

/-! ## Commands -/

namespace CommandLine

/-- What is said about an expression, and whether it is good. -/
inductive IsVerdict : Text → Text × Bool → Prop where
  | good {t : Text} {e : Expr} (h : Expr.IsExpression t e) :
    IsVerdict t (asLine (t.quoted ++ text ": ok"), true)
  | bad {t : Text} {fault : Fault} (h : Expr.parse t = .error (.malformed fault)) :
    IsVerdict t (asLine (t.quoted ++ text ": " ++ fault.category.label), false)

theorem verdict_iff {t : Text} {v : Text × Bool} : verdict t = .ok v ↔ IsVerdict t v := by
  constructor
  · intro h
    unfold verdict at h
    cases hparse : Expr.parse t with
    | ok e =>
      rw [hparse] at h
      rw [← Except.ok.inj h]
      exact .good (Expr.parse_iff.mp hparse)
    | error reason =>
      rw [hparse] at h
      cases reason with
      | malformed fault =>
        rw [← Except.ok.inj h]
        exact .bad hparse
      | numeralTooLong reason => cases h
  · intro h
    unfold verdict
    cases h with
    | good h => rw [Expr.parse_iff.mpr h]
    | bad h => rw [h]

theorem verdict_answers_iff {t : Text} : (∃ v, verdict t = .ok v) ↔ Expr.IsJudged t := by
  rw [Expr.isJudged_iff, verdict]
  cases Expr.parse t with
  | ok e => simp
  | error reason => cases reason <;> simp

/-- A list is mapped exactly to what its elements are mapped to. -/
theorem mapM_ok_iff {ε α β : Type} {f : α → Except ε β} {xs : List α} {ys : List β} :
    xs.mapM f = .ok ys ↔ List.Forall₂ (fun a b => f a = .ok b) xs ys := by
  induction xs generalizing ys with
  | nil => cases ys <;> simp [pure, Except.pure]
  | cons a rest ih =>
    rw [List.mapM_cons]
    cases hfirst : f a with
    | error reason => cases ys <;> simp [bind, Except.bind, hfirst]
    | ok b =>
      cases hrest : rest.mapM f with
      | error reason => cases ys <;> simp [bind, Except.bind, ← ih, hrest, hfirst]
      | ok bs => cases ys <;> simp [bind, Except.bind, pure, Except.pure, ← ih, hrest, hfirst]

theorem exists_mapM_ok_iff {ε α β : Type} {f : α → Except ε β} {xs : List α} :
    (∃ ys, xs.mapM f = .ok ys) ↔ ∀ a ∈ xs, ∃ b, f a = .ok b := by
  simp only [mapM_ok_iff]
  induction xs with
  | nil => simp
  | cons a rest ih => simp [List.forall₂_cons_left_iff, ← ih]

theorem runCheck_answers_iff {files : FileTree} {expressions : List Text} :
    (∃ done, runCheck files expressions = .ok done) ↔ ∀ t ∈ expressions, Expr.IsJudged t := by
  simp only [← verdict_answers_iff]
  rw [← exists_mapM_ok_iff, runCheck]
  cases expressions.mapM verdict <;> simp

theorem runCheck_says {files : FileTree} {expressions : List Text} {done : Finished}
    (h : runCheck files expressions = .ok done) :
    ∃ verdicts, List.Forall₂ IsVerdict expressions verdicts ∧
      done = ⟨if verdicts.all (·.2) then 0 else 1, verdicts.flatMap (·.1), [], files⟩ := by
  unfold runCheck at h
  cases hverdicts : expressions.mapM verdict with
  | error reason =>
    rw [hverdicts] at h
    cases h
  | ok verdicts =>
    rw [hverdicts] at h
    refine ⟨verdicts, ?_, (Except.ok.inj h).symm⟩
    exact (mapM_ok_iff.mp hverdicts).imp fun _ _ => verdict_iff.mp

/-- An expression with a fault ends an evaluation with the fault, and one that is not judged ends it
    with an error. -/
theorem runEval_fault_iff [StackRoom] {files : FileTree} {t : Text} {size : Size}
    (hnot : ∀ e, ¬ Expr.IsExpression t e) :
    (∃ fault, Expr.parse t = .error (.malformed fault) ∧
      runEval files t size = .ok ⟨1, [], asLine (text "error: " ++ fault.message), files⟩) ↔
      Expr.IsJudged t := by
  rw [Expr.isJudged_iff, runEval, Expr.resolve, Expr.parse?, Option.getD_some]
  cases hparse : Expr.parse t with
  | ok e => exact absurd (Expr.parse_iff.mp hparse) (hnot e)
  | error reason => cases reason <;> simp [Except.mapError, bind, Except.bind]

theorem run_of_prepare [StackRoom] {env : Environment} {arguments : List Text} {files : FileTree}
    {p : Prepared} (h : prepare env arguments = .ok p) :
    run env arguments files = runCommand p.settings p.least files p.command := by
  unfold run
  rw [h]
  rfl

/-- Every text is judged, unless a fraction with a number that is too long is met before any other
    operand that cannot be read. A layout is judged if each of its fields is that the pass comes to.
    A check that comes to its end says one verdict an expression, in order, and ends with zero
    exactly if all are good; an evaluation of what is no expression ends with one and the fault. -/
theorem validation_answers [StackRoom] (source : Option Text) (l : Layout) (env : Environment)
    (arguments : List Text) (files : FileTree) :
    let t := source.getD []
    ((Expr.IsJudged t ↔ (∃ e, Expr.parse? source = .ok e) ∨
        ∃ fault, Expr.parse? source = .error (.malformed fault)) ∧
      ((∃ b, Expr.isValid source = .ok b) ↔ Expr.IsJudged t) ∧
      (Expr.isValid source = .ok true ↔ ∃ e, Expr.IsExpression t e) ∧
      (t.length < Numeral.maxDigits + 3 → Expr.IsJudged t)) ∧
    (((∃ b, l.isValid = .ok b) ↔ l.IsJudged) ∧
      (l.isValid = .ok true ↔ ∀ t ∈ l.fields, ∃ e, Expr.IsExpression t e)) ∧
    ∀ p, prepare env arguments = .ok p →
      (∀ expressions, p.command = .check expressions →
        ((∃ done, run env arguments files = .ok done) ↔ ∀ t ∈ expressions, Expr.IsJudged t) ∧
        ∀ done, run env arguments files = .ok done →
          ∃ verdicts, List.Forall₂ IsVerdict expressions verdicts ∧
            done = ⟨if verdicts.all (·.2) then 0 else 1, verdicts.flatMap (·.1), [], files⟩) ∧
      ∀ t size, p.command = .eval t size → (∀ e, ¬ Expr.IsExpression t e) →
        ((∃ fault, Expr.parse t = .error (.malformed fault) ∧
          run env arguments files =
            .ok ⟨1, [], asLine (text "error: " ++ fault.message), files⟩) ↔ Expr.IsJudged t) := by
  intro t
  refine ⟨?_, ?_, ?_⟩
  · exact ⟨Expr.isJudged_iff, Expr.isValid_answers_iff, Expr.isValid_iff,
      Expr.isJudged_of_length⟩
  · exact ⟨Layout.isValid_answers_iff, Layout.isValid_iff⟩
  · intro p hprepare
    rw [run_of_prepare hprepare]
    constructor
    · intro expressions hcommand
      rw [hcommand]
      exact ⟨runCheck_answers_iff, fun done => runCheck_says⟩
    · intro t size hcommand hnot
      rw [hcommand]
      exact runEval_fault_iff hnot

theorem exists_of_command (arguments : List Text) (command : Command)
    (h : (prepare [] arguments).toOption.map (·.command) = some command) :
    ∃ p, prepare [] arguments = .ok p ∧ p.command = command := by
  cases hp : prepare [] arguments with
  | error reason =>
    rw [hp] at h
    cases h
  | ok p =>
    rw [hp] at h
    exact ⟨p, rfl, Option.some.inj h⟩

/-- Short texts are judged wherever they stand: nothing at all, the fields of a layout, an
    expression that is checked with a division by zero after it, and that division when it is
    evaluated. -/
theorem validation_answers_short :
    (∃ b, Expr.isValid none = .ok b) ∧ (∃ b, Layout.leftHalf.isValid = .ok b) ∧
      ∀ files,
        (∃ done, run [] [text "check", text "1/2 + 10px", text "1/0"] files = .ok done) ∧
        ∃ fault : Fault, run [] [text "eval", text "1/0", text "1080"] files =
          .ok ⟨1, [], asLine (text "error: " ++ fault.message), files⟩ := by
  have hshort : ∀ t : Text, t.length < Numeral.maxDigits + 3 → Expr.IsJudged t := fun t =>
    (validation_answers (some t) Layout.leftHalf [] [] (.empty ⟨.slash, []⟩)).1.2.2.2
  obtain ⟨⟨-, hnone, -⟩, ⟨hlayout, -⟩, -⟩ :=
    validation_answers none Layout.leftHalf [] [] (.empty ⟨.slash, []⟩)
  refine ⟨?_, ?_, ?_⟩
  · exact hnone.mpr (hshort [] (by decide))
  · apply hlayout.mpr
    intro before source after hsplit hbefore
    have hmem : source ∈ Layout.leftHalf.fields := by simp [hsplit]
    have hlengths : ∀ t ∈ Layout.leftHalf.fields, t.length < Numeral.maxDigits + 3 := by decide
    exact hshort source (hlengths source hmem)
  · intro files
    constructor
    · obtain ⟨p, hprepare, hcommand⟩ := exists_of_command
        [text "check", text "1/2 + 10px", text "1/0"]
        (.check [text "1/2 + 10px", text "1/0"]) (by decide +kernel)
      obtain ⟨-, -, hcommands⟩ := validation_answers none Layout.leftHalf []
        [text "check", text "1/2 + 10px", text "1/0"] files
      apply ((hcommands p hprepare).1 _ hcommand).1.mpr
      intro t ht
      have hlengths : ∀ t ∈ [text "1/2 + 10px", text "1/0"],
          t.length < Numeral.maxDigits + 3 := by
        decide
      exact hshort t (hlengths t ht)
    · obtain ⟨p, hprepare, hcommand⟩ := exists_of_command
        [text "eval", text "1/0", text "1080"]
        (.eval (text "1/0") (.real (Double.ofInt 1080))) (by decide +kernel)
      obtain ⟨-, -, hcommands⟩ := validation_answers none Layout.leftHalf []
        [text "eval", text "1/0", text "1080"] files
      have hnot : ∀ e, ¬ Expr.IsExpression (text "1/0") e := by
        intro e he
        have hparse := Expr.parse_iff.mpr he
        cases hparse
      obtain ⟨fault, -, hrun⟩ := ((hcommands p hprepare).2 _ _ hcommand hnot).mpr
        (hshort (text "1/0") (by decide))
      exact ⟨fault, hrun⟩

/-- A part with as many ones below the stroke as can just not be read. -/
def overlongPart : Text :=
  text "1/" ++ List.replicate (Numeral.maxDigits + 1) (CodePoint.ofChar '1')

theorem parse_overlongPart :
    Expr.parse overlongPart = .error (.numeralTooLong ⟨Numeral.maxDigits + 1⟩) := by
  rw [Expr.parse_tooLong_iff]
  have hones : Numeral.isDigits
      (List.replicate (Numeral.maxDigits + 1) (CodePoint.ofChar '1')) = true := by
    rw [Numeral.isDigits_iff]
    refine ⟨by simp, ?_⟩
    intro c hc
    rw [List.eq_of_mem_replicate hc]
    decide
  have hoverlong : Expr.IsOverlong overlongPart (Numeral.maxDigits + 1) := by
    have hone : Numeral.isDigits (text "1") = true := by decide
    have h := Expr.IsOverlong.lower hone hones Text.isBlank_nil Text.isBlank_nil (by simp)
    rw [List.length_replicate] at h
    exact h
  have hplain : Expr.IsPlain overlongPart :=
    Expr.IsPlain.append (by decide) (Expr.isPlain_of_isDigits hones)
  have hseen : ∀ c ∈ overlongPart, c.isBlank = false := by
    intro c hc
    cases List.mem_append.mp hc with
    | inl hstart =>
      have hall : ((text "1/").all fun d => !d.isBlank) = true := by decide
      simpa using List.all_eq_true.mp hall c hstart
    | inr hdigit =>
      rw [List.eq_of_mem_replicate hdigit]
      decide
  have htrim : overlongPart.trim = overlongPart :=
    Text.trim_eq_self (fun c hc => hseen c (List.mem_of_head? hc))
      fun c hc => hseen c (List.mem_of_getLast? hc)
  have hblank : ¬ overlongPart.IsBlank := by
    rw [← Text.trim_eq_nil_iff, htrim]
    exact List.cons_ne_nil _ _
  refine ⟨⟨overlongPart, []⟩, [], overlongPart, [], ⟨?_, ?_⟩, rfl, ?_, by simp, ?_⟩
  · simp [Expr.Pieces.join]
  · simpa [Expr.Pieces.terms] using hplain
  · simpa [Expr.Pieces.terms] using hblank
  · rw [htrim]
    exact hoverlong

/-- A layout that begins at that part of a screen. -/
def overlongLayout : Layout :=
  ⟨text "long", text "Long", overlongPart, text "0", text "1/2", text "100%", none⟩

/-- A text of digits and a stroke is not judged, and so no layout that it is a field of and no
    command that it is given to comes to an answer. -/
theorem overlong_unjudged :
    Expr.parse? (some overlongPart) = .error (.numeralTooLong ⟨Numeral.maxDigits + 1⟩) ∧
      Expr.isValid (some overlongPart) = .error ⟨Numeral.maxDigits + 1⟩ ∧
      overlongLayout.isValid = .error ⟨Numeral.maxDigits + 1⟩ ∧
      ∀ files,
        run [] [text "check", text "0", overlongPart] files =
          .error (.expression (.parse (.numeralTooLong ⟨Numeral.maxDigits + 1⟩))) ∧
        run [] [text "eval", overlongPart, text "1080"] files =
          .error (.expression (.parse (.numeralTooLong ⟨Numeral.maxDigits + 1⟩))) := by
  have hparse := parse_overlongPart
  refine ⟨hparse, ?_, ?_, ?_⟩
  · rw [Expr.isValid, Expr.parse?, Option.getD_some, hparse]
  · have hvalidate : overlongLayout.validate =
        .error (.numeralTooLong ⟨Numeral.maxDigits + 1⟩) := by
      rw [Layout.validate_error_iff]
      simp [Layout.fields, overlongLayout, hparse, Expr.errorOf?]
    rw [Layout.isValid, hvalidate]
  · intro files
    constructor
    · obtain ⟨p, hprepare, hcommand⟩ := exists_of_command
        [text "check", text "0", overlongPart]
        (.check [text "0", overlongPart]) rfl
      rw [run_of_prepare hprepare, hcommand]
      have hverdict : verdict overlongPart =
          .error (.expression (.parse (.numeralTooLong ⟨Numeral.maxDigits + 1⟩))) := by
        rw [verdict, hparse]
      obtain ⟨v, hzero⟩ : ∃ v, verdict (text "0") = .ok v := ⟨_, rfl⟩
      rw [runCommand, runCheck, List.mapM_cons, hzero, List.mapM_cons, hverdict]
      rfl
    · obtain ⟨p, hprepare, hcommand⟩ := exists_of_command
        [text "eval", overlongPart, text "1080"]
        (.eval overlongPart (.real (Double.ofInt 1080))) (by decide +kernel)
      rw [run_of_prepare hprepare, hcommand]
      rw [runCommand, runEval, Expr.resolve, Expr.parse?, Option.getD_some, hparse]
      rfl

end CommandLine

end WindowLayouts
