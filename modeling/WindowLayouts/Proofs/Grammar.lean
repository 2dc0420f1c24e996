import WindowLayouts.Expr.Eval
import WindowLayouts.Proofs.Terms

/- The grammar of layout expressions, and the parser against it. An expression is an operand, or an
   expression, an operator and an operand; so it is read from the left, and every right side is a
   single term. The parser reads a text exactly if the grammar derives it, and what it gives is the
   expression of the derivation.

     `Expr.IsExpression`         the grammar
     `Expr.parsePieces_complete` what the grammar derives is read
     `Expr.parsePieces_sound`    what is read is derived
     `Expr.evaluate_error`       a derived expression divides by no zero
     `Expr.parse_grammar`        all of it, for the parser of whole texts -/
namespace WindowLayouts.Expr

/-! ## The grammar -/

/-- A term with blanks around it. -/
inductive IsOperand : Text → Expr → Prop where
  | mk {before term after : Text} {e : Expr} (hbefore : before.IsBlank) (hterm : IsTerm term e)
    (hafter : after.IsBlank) : IsOperand (before ++ term ++ after) e

/-- An operand, or an expression with one more operator and operand. -/
inductive IsExpression : Text → Expr → Prop where
  | operand {t : Text} {e : Expr} (h : IsOperand t e) : IsExpression t e
  | join {t u : Text} {left right : Expr} (op : Operator) (hleft : IsExpression t left)
    (hright : IsOperand u right) : IsExpression (t ++ op.sign :: u) (join op left right)

/-! ## No operator inside an operand -/

/-- The signs of the operators are neither digits nor blanks. -/
theorem ofSign?_eq_none {c : CodePoint} (h : c.isDigit = true ∨ c.isBlank = true) :
    Operator.ofSign? c = none := by
  have hplus : c ≠ Operator.plus.sign := by
    rintro rfl
    rcases h with h | h <;> revert h <;> decide
  have hminus : c ≠ Operator.minus.sign := by
    rintro rfl
    rcases h with h | h <;> revert h <;> decide
  rw [Operator.ofSign?, if_neg hplus, if_neg hminus]

/-- A text without operators. -/
def IsPlain (t : Text) : Prop := ∀ c ∈ t, Operator.ofSign? c = none

instance (t : Text) : Decidable (IsPlain t) :=
  decidable_of_iff ((t.all fun c => (Operator.ofSign? c).isNone) = true)
    (by simp [IsPlain, List.all_eq_true])

theorem IsPlain.append {s t : Text} (hs : IsPlain s) (ht : IsPlain t) : IsPlain (s ++ t) := by
  intro c hc
  rcases List.mem_append.mp hc with hc | hc
  · exact hs c hc
  · exact ht c hc

theorem isPlain_of_isBlank {t : Text} (h : t.IsBlank) : IsPlain t :=
  fun c hc => ofSign?_eq_none (Or.inr (h c hc))

theorem isPlain_of_isDigits {t : Text} (h : Numeral.isDigits t = true) : IsPlain t :=
  fun _ hc => ofSign?_eq_none (Or.inl (isDigit_of_mem h hc))

theorem IsNumber.isPlain {t : Text} {x : Double} (h : IsNumber t x) : IsPlain t := by
  intro c hc
  rcases h.mem hc with hdigit | rfl
  · exact ofSign?_eq_none (Or.inl hdigit)
  · decide

theorem IsTerm.isPlain {t : Text} {e : Expr} (h : IsTerm t e) : IsPlain t := by
  have hstroke : IsPlain [CodePoint.ofChar '/'] := by decide
  cases h with
  | zero => decide
  | fraction hupper hlower _ hbefore hafter =>
    rw [← List.singleton_append]
    exact ((isPlain_of_isDigits hupper.isDigits).append (isPlain_of_isBlank hbefore)).append
      (hstroke.append ((isPlain_of_isBlank hafter).append (isPlain_of_isDigits hlower.isDigits)))
  | percentage hnumber hblanks =>
    exact (hnumber.isPlain.append (isPlain_of_isBlank hblanks)).append (by decide)
  | pixel hnumber hblanks =>
    exact (hnumber.isPlain.append (isPlain_of_isBlank hblanks)).append (by decide)

theorem IsOperand.isPlain {t : Text} {e : Expr} (h : IsOperand t e) : IsPlain t := by
  obtain ⟨hbefore, hterm, hafter⟩ := h
  exact ((isPlain_of_isBlank hbefore).append hterm.isPlain).append (isPlain_of_isBlank hafter)

/-! ## Cutting at the operators -/

namespace Pieces

theorem cut_cons (c : CodePoint) (t : Text) : cut (c :: t) = consPoint c (cut t) := rfl

theorem ofSign?_sign (op : Operator) : Operator.ofSign? op.sign = some op := by
  cases op <;> rfl

theorem sign_of_ofSign? {c : CodePoint} {op : Operator} (h : Operator.ofSign? c = some op) :
    op.sign = c := by
  unfold Operator.ofSign? at h
  split at h
  · rename_i hplus
    rw [← Option.some.inj h, hplus]
  · split at h
    · rename_i hminus
      rw [← Option.some.inj h, hminus]
    · cases h

/-- The pieces with their operators make the text again. -/
theorem cut_join (t : Text) :
    (cut t).first ++ (cut t).rest.flatMap (fun p => p.1.sign :: p.2) = t := by
  induction t with
  | nil => rfl
  | cons c rest ih =>
    rw [cut_cons, consPoint]
    cases hsign : Operator.ofSign? c with
    | none =>
      dsimp only
      rw [List.cons_append, ih]
    | some op =>
      dsimp only
      rw [List.nil_append, List.flatMap_cons, List.cons_append, ih, sign_of_ofSign? hsign]

theorem cut_of_isPlain {t : Text} (h : IsPlain t) : cut t = ⟨t, []⟩ := by
  induction t with
  | nil => rfl
  | cons c rest ih =>
    rw [cut_cons, ih fun d hd => h d (List.mem_cons_of_mem c hd), consPoint,
      h c List.mem_cons_self]

/-- A text is cut at an operator before either side is. -/
theorem cut_sign (s : Text) (op : Operator) (t : Text) :
    cut (s ++ op.sign :: t) =
      ⟨(cut s).first, (cut s).rest ++ (op, (cut t).first) :: (cut t).rest⟩ := by
  induction s with
  | nil =>
    rw [List.nil_append, cut_cons, consPoint, ofSign?_sign]
    rfl
  | cons c rest ih =>
    rw [List.cons_append, cut_cons, ih, cut_cons, consPoint, consPoint]
    cases Operator.ofSign? c <;> rfl

/-- One more operand is one more piece. -/
theorem cut_append (t : Text) (op : Operator) {u : Text} (hu : IsPlain u) :
    cut (t ++ op.sign :: u) = ⟨(cut t).first, (cut t).rest ++ [(op, u)]⟩ := by
  rw [cut_sign, cut_of_isPlain hu]

end Pieces

/-! ## The fold -/

theorem foldTerms_append (left : Expr) (rest : List (Operator × Text)) (op : Operator)
    (term : Text) :
    foldTerms left (rest ++ [(op, term)]) =
      (foldTerms left rest).bind fun all => (parseTerm term).map (join op all) := by
  induction rest generalizing left with
  | nil => rfl
  | cons p rest ih =>
    obtain ⟨other, first⟩ := p
    rw [List.cons_append, foldTerms, foldTerms]
    cases parseTerm first with
    | error reason => rfl
    | ok right => exact ih (join other left right)

theorem parseTerm_of_isOperand {t : Text} {e : Expr} (h : IsOperand t e) :
    parseTerm t.trim = .ok e := by
  obtain ⟨hbefore, hterm, hafter⟩ := h
  rw [Text.trim_blanks hbefore hafter, hterm.trim, (parseTerm_iff hterm.trim).mpr hterm]

/-- What the grammar derives is read. -/
theorem parsePieces_complete {source : Text} {e : Expr} (h : IsExpression source e) :
    parsePieces (Pieces.cut source).trim = .ok e := by
  induction h with
  | operand h =>
    rw [Pieces.cut_of_isPlain h.isPlain, parsePieces, Pieces.trim]
    dsimp only
    rw [parseTerm_of_isOperand h]
    rfl
  | join op hleft hright ih =>
    rename_i t u left right
    rw [parsePieces, Pieces.trim] at ih ⊢
    rw [Pieces.cut_append t op hright.isPlain]
    dsimp only at ih ⊢
    rw [List.map_append, List.map_singleton]
    obtain ⟨first, hfirst, ih⟩ := bind_ok ih
    rw [hfirst]
    simp only [bind, Except.bind]
    rw [foldTerms_append, ih, parseTerm_of_isOperand hright]
    rfl

theorem isOperand_of_parseTerm {t : Text} {e : Expr} (h : parseTerm t.trim = .ok e) :
    IsOperand t e := by
  obtain ⟨before, after, hbefore, hafter, ht⟩ := Text.trim_split t
  rw [ht]
  exact .mk hbefore ((parseTerm_iff (Text.trim_trim t)).mp h) hafter

/-- Going on from what is an expression gives an expression. -/
theorem isExpression_of_foldTerms {s : Text} {left e : Expr} {rest : List (Operator × Text)}
    (hs : IsExpression s left)
    (h : foldTerms left (rest.map fun (op, t) => (op, t.trim)) = .ok e) :
    IsExpression (s ++ rest.flatMap fun p => p.1.sign :: p.2) e := by
  induction rest generalizing s left with
  | nil =>
    obtain rfl := Except.ok.inj h
    rw [List.flatMap_nil, List.append_nil]
    exact hs
  | cons p rest ih =>
    obtain ⟨op, t⟩ := p
    rw [List.map_cons, foldTerms] at h
    obtain ⟨right, hterm, h⟩ := bind_ok h
    have hall := ih (.join op hs (isOperand_of_parseTerm hterm)) h
    rw [List.append_assoc] at hall
    exact hall

/-- What is read is derived by the grammar. -/
theorem parsePieces_sound {source : Text} {e : Expr}
    (h : parsePieces (Pieces.cut source).trim = .ok e) : IsExpression source e := by
  rw [parsePieces, Pieces.trim] at h
  dsimp only at h
  obtain ⟨first, hfirst, h⟩ := bind_ok h
  have hall := isExpression_of_foldTerms (.operand (isOperand_of_parseTerm hfirst)) h
  rw [Pieces.cut_join] at hall
  exact hall

/-! ## The whole text -/

/-- Every piece that is read is a term, so none of them is empty. -/
theorem ne_nil_of_foldTerms {left e : Expr} {rest : List (Operator × Text)}
    (h : foldTerms left rest = .ok e) : ∀ p ∈ rest, p.2 ≠ [] := by
  induction rest generalizing left with
  | nil => exact fun _ hp => nomatch hp
  | cons p rest ih =>
    obtain ⟨op, t⟩ := p
    rw [foldTerms] at h
    obtain ⟨right, hterm, h⟩ := bind_ok h
    intro q hq
    rcases List.mem_cons.mp hq with rfl | hq
    · rintro rfl
      cases hterm
    · exact ih h q hq

theorem ne_nil_of_parsePieces {p : Pieces} {e : Expr} (h : parsePieces p = .ok e) :
    p.first ≠ [] ∧ ∀ q ∈ p.rest, q.2 ≠ [] := by
  rw [parsePieces] at h
  obtain ⟨first, hfirst, h⟩ := bind_ok h
  refine ⟨?_, ne_nil_of_foldTerms h⟩
  intro hnil
  rw [hnil] at hfirst
  cases hfirst

theorem dangling?_of_ne_nil {p : Pieces} (h : ∀ q ∈ p.rest, q.2 ≠ []) : p.dangling? = none := by
  unfold Pieces.dangling?
  split
  · rename_i op hlast
    exact absurd rfl (h _ (List.mem_of_getLast? hlast))
  · rfl

theorem findIdx?_of_ne_nil {p : Pieces} (hfirst : p.first ≠ []) (hrest : ∀ q ∈ p.rest, q.2 ≠ []) :
    p.terms.findIdx? List.isEmpty = none := by
  rw [List.findIdx?_eq_none_iff]
  intro t ht
  rw [List.isEmpty_eq_false_iff]
  rcases List.mem_cons.mp ht with rfl | ht
  · exact hfirst
  · obtain ⟨q, hq, rfl⟩ := List.mem_map.mp ht
    exact hrest q hq

/-- A blank text has one piece, which is empty once it is trimmed. -/
theorem trim_ne_nil_of_cut {source : Text} (h : (Pieces.cut source).trim.first ≠ []) :
    source.trim ≠ [] := by
  intro hempty
  obtain ⟨before, after, hbefore, hafter, hsource⟩ := Text.trim_split source
  rw [hempty, List.append_nil] at hsource
  have hplain : IsPlain source := by
    rw [hsource]
    exact (isPlain_of_isBlank hbefore).append (isPlain_of_isBlank hafter)
  rw [Pieces.cut_of_isPlain hplain] at h
  exact h hempty

/-- The faults that are looked for first are found only where no term can be read either. -/
theorem parse_eq_ok_iff {source : Text} {e : Expr} :
    parse source = .ok e ↔ parsePieces (Pieces.cut source).trim = .ok e := by
  unfold parse
  constructor
  · intro h
    split at h
    · cases h
    · dsimp only at h
      split at h
      · cases h
      · split at h
        · cases h
        · cases hpieces : parsePieces (Pieces.cut source).trim with
          | error reason =>
            rw [hpieces] at h
            cases h
          | ok found =>
            rw [hpieces] at h
            exact congrArg Except.ok (Except.ok.inj h)
  · intro h
    obtain ⟨hfirst, hrest⟩ := ne_nil_of_parsePieces h
    have hblank : ¬ source.trim.isEmpty = true :=
      fun hempty => trim_ne_nil_of_cut hfirst (List.isEmpty_iff.mp hempty)
    rw [if_neg hblank]
    dsimp only
    rw [dangling?_of_ne_nil hrest, findIdx?_of_ne_nil hfirst hrest, h]
    rfl

theorem parse_iff {source : Text} {e : Expr} : parse source = .ok e ↔ IsExpression source e :=
  parse_eq_ok_iff.trans ⟨parsePieces_sound, parsePieces_complete⟩

/-! ## What a derived expression is -/

/-- A single term. -/
def isLeaf : Expr → Bool
  | .zero | .fraction .. | .percentage _ | .pixel _ => true
  | _ => false

/-- Operators were joined from the left: every right side is a single term. -/
def IsLeftFold : Expr → Prop
  | .add left right | .sub left right => left.IsLeftFold ∧ right.isLeaf = true
  | e => e.isLeaf = true

/-- Every fraction has a denominator above zero. -/
def DividesByPositive : Expr → Prop
  | .fraction _ denominator => 0 < denominator
  | .add left right | .sub left right => left.DividesByPositive ∧ right.DividesByPositive
  | _ => True

theorem IsTerm.isLeaf {t : Text} {e : Expr} (h : IsTerm t e) : e.isLeaf = true := by
  cases h <;> rfl

theorem IsTerm.dividesByPositive {t : Text} {e : Expr} (h : IsTerm t e) : e.DividesByPositive := by
  cases h with
  | fraction _ hlower hzero _ _ =>
    exact Int.natCast_pos.mpr (Nat.pos_of_ne_zero ((value_ne_zero_iff hlower.isDigits).mpr hzero))
  | _ => trivial

theorem IsExpression.isLeftFold {t : Text} {e : Expr} (h : IsExpression t e) : e.IsLeftFold := by
  induction h with
  | operand h =>
    obtain ⟨-, hterm, -⟩ := h
    have hleaf := hterm.isLeaf
    cases hterm <;> exact hleaf
  | join op hleft hright ih =>
    obtain ⟨-, hterm, -⟩ := hright
    cases op <;> exact ⟨ih, hterm.isLeaf⟩

theorem IsExpression.dividesByPositive {t : Text} {e : Expr} (h : IsExpression t e) :
    e.DividesByPositive := by
  induction h with
  | operand h =>
    obtain ⟨-, hterm, -⟩ := h
    exact hterm.dividesByPositive
  | join op hleft hright ih =>
    obtain ⟨-, hterm, -⟩ := hright
    cases op <;> exact ⟨ih, hterm.dividesByPositive⟩

end WindowLayouts.Expr

namespace WindowLayouts

/-- The errors of a division by zero. -/
def EvalError.IsDivision (r : EvalError) : Prop := r = .divisionByZero ∨ r = .realDivisionByZero

namespace Expr

theorem finiteOr_error {x : Double} {e r : EvalError} (h : x.finiteOr e = .error r) : r = e := by
  cases x with
  | infinite negative => exact (Except.error.inj h).symm
  | _ => cases h

theorem not_isDivision_integerTooLarge : ¬ EvalError.integerTooLarge.IsDivision := by
  rintro (h | h) <;> cases h

theorem toDouble_error {n : Int} {r : EvalError} (h : Size.toDouble n = .error r) :
    ¬ r.IsDivision := by
  unfold Size.toDouble at h
  rw [finiteOr_error h]
  exact not_isDivision_integerTooLarge

/-- The error of two operations is the error of one of them. -/
theorem bind_error {α β : Type} {x : Except EvalError α} {f : α → Except EvalError β}
    {r : EvalError} (h : x.bind f = .error r) : x = .error r ∨ ∃ a, x = .ok a ∧ f a = .error r := by
  cases x with
  | error reason => exact Or.inl (congrArg Except.error (Except.error.inj h))
  | ok a => exact Or.inr ⟨a, rfl, h⟩

theorem quotient_error {n d : Int} (hd : ¬ d = 0) {r : EvalError}
    (h : Size.quotient n d = .error r) : ¬ r.IsDivision := by
  unfold Size.quotient at h
  rw [if_neg hd] at h
  rw [finiteOr_error h]
  rintro (h | h) <;> cases h

theorem absentFraction_error {n d : Int} {r : EvalError}
    (h : Size.absent.fraction n d = .error r) : ¬ r.IsDivision := by
  simp only [Size.fraction] at h
  rw [← Except.error.inj h]
  split <;> rintro (h | h) <;> cases h

theorem realFraction_error {x : Double} {n d : Int} (hd : ¬ d = 0) {r : EvalError}
    (h : (Size.real x).fraction n d = .error r) : ¬ r.IsDivision := by
  rw [Size.fraction] at h
  rcases bind_error h with h | ⟨upper, -, h⟩
  · exact toDouble_error h
  · rcases bind_error h with h | ⟨lower, -, h⟩
    · exact toDouble_error h
    · rw [if_neg hd] at h
      cases h

/-- A fraction with a denominator above zero divides no size by zero. -/
theorem fraction_error {size : Size} {n d : Int} (hd : 0 < d) {r : EvalError}
    (h : size.fraction n d = .error r) : ¬ r.IsDivision := by
  have hne : ¬ d = 0 := Int.ne_of_gt hd
  cases size with
  | whole m =>
    rw [Size.fraction] at h
    exact quotient_error hne h
  | real x => exact realFraction_error hne h
  | absent => exact absentFraction_error h

theorem asDouble_error {size : Size} {r : EvalError} (h : size.asDouble = .error r) :
    ¬ r.IsDivision := by
  cases size with
  | whole n => exact toDouble_error h
  | real x => cases h
  | absent =>
    obtain rfl := Except.error.inj h
    rintro (h | h) <;> cases h

theorem tooDeep_error {r : EvalError} (h : Except.error (α := Double) .tooDeep = .error r) :
    ¬ r.IsDivision := by
  obtain rfl := Except.error.inj h
  rintro (h | h) <;> cases h

theorem valueWithin_error {size : Size} {room : Nat} {e : Expr} (he : e.DividesByPositive)
    {r : EvalError} (h : e.valueWithin size room = .error r) : ¬ r.IsDivision := by
  induction e generalizing room with
  | zero => cases h
  | fraction n d => exact fraction_error he h
  | percentage share =>
    rcases bind_error h with h | ⟨x, -, h⟩
    · exact asDouble_error h
    · cases h
  | pixel offset => cases h
  | add left right ihl ihr | sub left right ihl ihr =>
    cases room with
    | zero => exact tooDeep_error h
    | succ room =>
      rcases bind_error h with h | ⟨x, -, h⟩
      · exact ihl he.1 h
      · rcases bind_error h with h | ⟨y, -, h⟩
        · exact ihr he.2 h
        · cases h
  | unknown label =>
    obtain rfl := Except.error.inj h
    rintro (h | h) <;> cases h

theorem evaluate_error [StackRoom] {size : Size} {e : Expr} (he : e.DividesByPositive)
    {r : EvalError} (h : e.evaluate size = .error r) : ¬ r.IsDivision := by
  rcases bind_error h with h | ⟨x, -, h⟩
  · exact valueWithin_error he h
  · cases hround : x.roundAway with
    | ok n =>
      rw [hround] at h
      cases h
    | error reason =>
      rw [hround] at h
      obtain rfl := Except.error.inj h
      rintro (h | h) <;> cases h

/-! ## The parser and the grammar -/

/-- The parser reads a text exactly if the grammar derives it, and gives the expression that the
    derivation builds: a fold from the left whose fractions have denominators above zero, so that no
    size makes it divide by zero. -/
theorem parse_grammar [StackRoom] (source : Text) :
    (∀ e, parse source = .ok e ↔ IsExpression source e) ∧
    ∀ e, IsExpression source e →
      e.IsLeftFold ∧ e.DividesByPositive ∧
      ∀ size r, e.evaluate size = .error r → ¬ r.IsDivision := by
  refine ⟨?_, ?_⟩
  · intro e
    rw [parse_eq_ok_iff]
    exact ⟨parsePieces_sound, parsePieces_complete⟩
  · intro e h
    refine ⟨h.isLeftFold, h.dividesByPositive, ?_⟩
    intro size r
    exact evaluate_error h.dividesByPositive

/-- Blanks around the parts of a fraction; the bare zero after it needs none. -/
theorem parse_grammar_third :
    IsExpression (text " 1 / 3\t-0") (.sub (.fraction 1 3) .zero) ∧
    ∀ size r, (Expr.sub (.fraction 1 3) .zero).evaluate size = .error r → ¬ r.IsDivision := by
  have h : IsExpression (text " 1 / 3\t-0") (.sub (.fraction 1 3) .zero) :=
    ((parse_grammar _).1 _).mp rfl
  exact ⟨h, ((parse_grammar _).2 _ h).2.2⟩

end Expr

end WindowLayouts
