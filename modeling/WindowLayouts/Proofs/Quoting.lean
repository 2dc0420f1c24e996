import WindowLayouts.Json.Quoted
import WindowLayouts.Json.Reader

/- JSON strings between writing and reading. A written text holds printable ASCII only; reading it
   gives the text back with each high surrogate joined to a low one directly after it, so a text
   without such a pair is read as itself.

     `Text.hasPair`              whether a high surrogate stands directly before a low one
     `Json.run_quote`            reading a written text
     `Json.isPlain_of_mem_quote` a written text is printable ASCII
     `Json.hasPair_joinPieces`   no text that was read has a pair left in it -/
namespace WindowLayouts

/-! ## Surrogate pairs -/

namespace CodePoint

/-- A printable code point of ASCII. -/
def isPlain (c : CodePoint) : Bool := 0x20 ≤ c.val && c.val ≤ 0x7E

/-- A code point that needs two numbers of sixteen bits. -/
def isWide (c : CodePoint) : Bool := 0x10000 ≤ c.val

theorem not_isHighSurrogate_of_isWide {c : CodePoint} (h : c.isWide = true) :
    c.isHighSurrogate = false := by
  simp only [isWide, decide_eq_true_eq] at h
  simp only [isHighSurrogate, Bool.and_eq_false_imp, decide_eq_true_eq, decide_eq_false_iff_not]
  omega

theorem not_isLowSurrogate_of_isWide {c : CodePoint} (h : c.isWide = true) :
    c.isLowSurrogate = false := by
  simp only [isWide, decide_eq_true_eq] at h
  simp only [isLowSurrogate, Bool.and_eq_false_imp, decide_eq_true_eq,
    decide_eq_false_iff_not]
  omega

theorem not_isLowSurrogate_of_isHighSurrogate {c : CodePoint} (h : c.isHighSurrogate = true) :
    c.isLowSurrogate = false := by
  simp only [isHighSurrogate, Bool.and_eq_true, decide_eq_true_eq] at h
  simp only [isLowSurrogate, Bool.and_eq_false_imp, decide_eq_true_eq]
  omega

theorem isSurrogate_of_isHighSurrogate {c : CodePoint} (h : c.isHighSurrogate = true) :
    c.isSurrogate = true := by
  simp only [isHighSurrogate, Bool.and_eq_true, decide_eq_true_eq] at h
  simp only [isSurrogate, Bool.and_eq_true, decide_eq_true_eq]
  omega

theorem isSurrogate_of_isLowSurrogate {c : CodePoint} (h : c.isLowSurrogate = true) :
    c.isSurrogate = true := by
  simp only [isLowSurrogate, Bool.and_eq_true, decide_eq_true_eq] at h
  simp only [isSurrogate, Bool.and_eq_true, decide_eq_true_eq]
  omega

theorem isWide_joinPair (high low : CodePoint) : (joinPair high low).isWide = true := by
  exact decide_eq_true (Nat.le_trans (Nat.le_add_right _ _) (Nat.le_add_right _ _))

end CodePoint

namespace Text

/-- Whether a high surrogate stands directly before a low one. -/
def hasPair : Text → Bool
  | high :: low :: rest =>
    (high.isHighSurrogate && low.isLowSurrogate) || hasPair (low :: rest)
  | _ => false

/-- A text without a pair stays what it is. -/
theorem joinPairs_eq {t : Text} (h : t.hasPair = false) : t.joinPairs = t := by
  fun_induction joinPairs t with
  | case1 high low rest hpair ih => simp [hasPair, hpair] at h
  | case2 high low rest hpair ih =>
    have hrest : hasPair (low :: rest) = false := by
      simp only [hasPair, Bool.or_eq_false_iff] at h
      exact h.2
    rw [ih hrest]
  | case3 short hshort => rfl

theorem hasPair_cons {c : CodePoint} {t : Text}
    (h : ∀ d rest, t = d :: rest → (c.isHighSurrogate && d.isLowSurrogate) = false)
    (ht : t.hasPair = false) : hasPair (c :: t) = false := by
  cases t with
  | nil => rfl
  | cons d rest => simp only [hasPair, h d rest rfl, ht, Bool.or_false]

theorem hasPair_of_isPlain {t : Text} (h : ∀ c ∈ t, c.isPlain = true) : t.hasPair = false := by
  induction t with
  | nil => rfl
  | cons c rest ih =>
    have hc := h c List.mem_cons_self
    have hhigh : c.isHighSurrogate = false := by
      simp only [CodePoint.isPlain, Bool.and_eq_true, decide_eq_true_eq] at hc
      simp only [CodePoint.isHighSurrogate, Bool.and_eq_false_imp, decide_eq_true_eq,
        decide_eq_false_iff_not]
      omega
    apply hasPair_cons
    · intro d more _
      rw [hhigh, Bool.false_and]
    · exact ih fun d hd => h d (List.mem_cons_of_mem c hd)

end Text

namespace Json

/-! ## What reading collects -/

/-- The pieces that reading a written code point collects. -/
def piecesOf (c : CodePoint) : List Piece :=
  let n := c.val
  if (escapeLetter? n).isSome || (0x20 ≤ n && n ≤ 0x7E) then [⟨c, false⟩]
  else if n < 0x10000 then [⟨c, true⟩]
  else [⟨Fin.ofNat _ (0xD800 + (n - 0x10000) / 0x400), true⟩,
    ⟨Fin.ofNat _ (0xDC00 + (n - 0x10000) % 0x400), true⟩]

theorem hexValue?_hexDigit (n : Nat) : (hexDigit n).hexValue? = some (n % 16) := by
  have all : ∀ d : Fin 16, (CodePoint.ofChar (Nat.digitChar d.val)).hexValue? = some d.val := by
    decide
  exact all ⟨n % 16, Nat.mod_lt n (by decide)⟩

theorem hexDigits_four (n : Nat) :
    hexDigits 4 n = [hexDigit (n / 16 / 16 / 16), hexDigit (n / 16 / 16), hexDigit (n / 16),
      hexDigit n] := rfl

section Steps
variable (pieces : List Piece) (p : Place)

theorem step_backslash [StackRoom] :
    Machine.step ⟨.string pieces, p⟩ 0x5C = ⟨.escape pieces, p⟩ := rfl

theorem step_number [StackRoom] :
    Machine.step ⟨.escape pieces, p⟩ 0x75 = ⟨.numbered pieces 4 0, p⟩ := rfl

theorem step_digit [StackRoom] (left value n : Nat) :
    Machine.step ⟨.numbered pieces (left + 2) value, p⟩ (hexDigit n) =
      ⟨.numbered pieces (left + 1) (16 * value + n % 16), p⟩ := by
  simp only [Machine.step, hexValue?_hexDigit]
  rw [if_pos (by omega)]
  rfl

theorem step_lastDigit [StackRoom] (value n : Nat) :
    Machine.step ⟨.numbered pieces 1 value, p⟩ (hexDigit n) =
      ⟨.string (⟨Fin.ofNat _ (16 * value + n % 16), true⟩ :: pieces), p⟩ := by
  simp only [Machine.step, hexValue?_hexDigit]
  rw [if_neg (by omega)]

theorem step_letter [StackRoom] {letter c : CodePoint} (hescaped : escaped? letter = some c)
    (hletter : letter.val ≠ 0x75) :
    Machine.step ⟨.escape pieces, p⟩ letter = ⟨.string (⟨c, false⟩ :: pieces), p⟩ := by
  simp only [Machine.step, if_neg hletter, hescaped]

theorem step_point [StackRoom] {c : CodePoint} (hquote : c.val ≠ 0x22) (hslash : c.val ≠ 0x5C)
    (hcontrol : ¬ c.val < 0x20) :
    Machine.step ⟨.string pieces, p⟩ c = ⟨.string (⟨c, false⟩ :: pieces), p⟩ := by
  simp only [Machine.step, if_neg hquote, if_neg hslash, if_neg hcontrol]

theorem run_unitEscape [StackRoom] {n : Nat} (h : n < 0x10000) :
    Machine.run ⟨.string pieces, p⟩ (unitEscape n) =
      ⟨.string (⟨Fin.ofNat _ n, true⟩ :: pieces), p⟩ := by
  have hmark : text "\\u" = [0x5C, 0x75] := by decide
  have hvalue : 16 * (16 * (16 * (16 * 0 + n / 16 / 16 / 16 % 16) + n / 16 / 16 % 16) +
      n / 16 % 16) + n % 16 = n := by omega
  simp only [unitEscape, hmark, hexDigits_four, Machine.run, List.cons_append, List.nil_append,
    List.foldl_cons, List.foldl_nil, step_backslash, step_number]
  rw [step_digit _ _ 2, step_digit _ _ 1, step_digit _ _ 0, step_lastDigit, hvalue]

end Steps

theorem escaped?_escapeLetter {c : CodePoint} {letter : Char}
    (h : escapeLetter? c.val = some letter) :
    escaped? (CodePoint.ofChar letter) = some c ∧ (CodePoint.ofChar letter).val ≠ 0x75 := by
  obtain ⟨n, hn⟩ := c
  dsimp only at h
  unfold escapeLetter? at h
  split at h
  all_goals first
    | (obtain rfl := Option.some.inj h
       exact ⟨rfl, by decide⟩)
    | cases h

/-- Reading one written code point inside a string. -/
theorem run_quotePoint [StackRoom] (c : CodePoint) (pieces : List Piece) (p : Place) :
    Machine.run ⟨.string pieces, p⟩ (quotePoint c) =
      ⟨.string ((piecesOf c).reverse ++ pieces), p⟩ := by
  unfold quotePoint piecesOf
  dsimp only
  cases hletter : escapeLetter? c.val with
  | some letter =>
    obtain ⟨hescaped, hnumber⟩ := escaped?_escapeLetter hletter
    simp only [Machine.run, List.foldl_cons, List.foldl_nil, step_backslash,
      step_letter _ _ hescaped hnumber]
    rfl
  | none =>
    simp only [Option.isSome_none, Bool.false_or]
    by_cases hplain : (0x20 ≤ c.val && c.val ≤ 0x7E) = true
    · have hquote : c.val ≠ 0x22 := by
        intro hc
        rw [hc] at hletter
        cases hletter
      have hslash : c.val ≠ 0x5C := by
        intro hc
        rw [hc] at hletter
        cases hletter
      have hcontrol : ¬ c.val < 0x20 := by
        simp only [Bool.and_eq_true, decide_eq_true_eq] at hplain
        omega
      rw [if_pos hplain, if_pos hplain]
      exact step_point _ _ hquote hslash hcontrol
    · rw [if_neg hplain, if_neg hplain]
      by_cases hnarrow : c.val < 0x10000
      · rw [if_pos hnarrow, if_pos hnarrow, run_unitEscape _ _ hnarrow]
        congr
        exact Fin.ofNat_val_eq_self c
      · have hc := c.isLt
        rw [if_neg hnarrow, if_neg hnarrow, Machine.run_append, run_unitEscape _ _ (by omega),
          run_unitEscape _ _ (by omega)]
        rfl

theorem run_points [StackRoom] (t : Text) (pieces : List Piece) (p : Place) :
    Machine.run ⟨.string pieces, p⟩ (t.flatMap quotePoint) =
      ⟨.string ((t.flatMap piecesOf).reverse ++ pieces), p⟩ := by
  induction t generalizing pieces with
  | nil => rfl
  | cons c rest ih =>
    rw [List.flatMap_cons, Machine.run_append, run_quotePoint, ih, List.flatMap_cons,
      List.reverse_append, List.append_assoc]

/-! ## What the pieces of a text join to -/

theorem joinPieces_cons {piece : Piece} {pieces : List Piece}
    (h : ∀ next rest, pieces = next :: rest →
      (piece.point.isHighSurrogate && next.point.isLowSurrogate) = false) :
    joinPieces (piece :: pieces) = piece.point :: joinPieces pieces := by
  cases pieces with
  | nil => rfl
  | cons next rest =>
    have hpair : ¬ (piece.numbered && next.numbered && piece.point.isHighSurrogate &&
        next.point.isLowSurrogate) = true := by
      intro hall
      obtain ⟨hleft, hlow⟩ := Bool.and_eq_true_iff.mp hall
      obtain ⟨-, hhigh⟩ := Bool.and_eq_true_iff.mp hleft
      have hnone := h next rest rfl
      rw [hhigh, hlow] at hnone
      cases hnone
    rw [joinPieces, if_neg hpair]

theorem joinPieces_pair {high low : Piece} {pieces : List Piece} (hh : high.numbered = true)
    (hl : low.numbered = true) (hhigh : high.point.isHighSurrogate = true)
    (hlow : low.point.isLowSurrogate = true) :
    joinPieces (high :: low :: pieces) =
      CodePoint.joinPair high.point low.point :: joinPieces pieces := by
  rw [joinPieces, if_pos (by simp [hh, hl, hhigh, hlow])]

/-- The halves of a wide code point. -/
theorem halves {c : CodePoint} (h : c.isWide = true) :
    ∃ high low : CodePoint, high.isHighSurrogate = true ∧ low.isLowSurrogate = true ∧
      CodePoint.joinPair high low = c ∧ piecesOf c = [⟨high, true⟩, ⟨low, true⟩] := by
  have hc := c.isLt
  have hwide : 0x10000 ≤ c.val := by simpa only [CodePoint.isWide, decide_eq_true_eq] using h
  have hhigh : (Fin.ofNat 0x110000 (0xD800 + (c.val - 0x10000) / 0x400)).val =
      0xD800 + (c.val - 0x10000) / 0x400 := Nat.mod_eq_of_lt (by omega)
  have hlow : (Fin.ofNat 0x110000 (0xDC00 + (c.val - 0x10000) % 0x400)).val =
      0xDC00 + (c.val - 0x10000) % 0x400 := Nat.mod_eq_of_lt (by omega)
  refine ⟨Fin.ofNat _ (0xD800 + (c.val - 0x10000) / 0x400),
    Fin.ofNat _ (0xDC00 + (c.val - 0x10000) % 0x400), ?_, ?_, ?_, ?_⟩
  · simp only [CodePoint.isHighSurrogate, hhigh, Bool.and_eq_true, decide_eq_true_eq]
    omega
  · simp only [CodePoint.isLowSurrogate, hlow, Bool.and_eq_true, decide_eq_true_eq]
    omega
  · apply Fin.ext
    simp only [CodePoint.joinPair, hhigh, hlow]
    omega
  · have hletter : escapeLetter? c.val = none := by
      unfold escapeLetter?
      split <;> first | omega | rfl
    have hplain : ¬ ((escapeLetter? c.val).isSome || (0x20 ≤ c.val && c.val ≤ 0x7E)) = true := by
      simp only [hletter, Option.isSome_none, Bool.false_or, Bool.and_eq_true, decide_eq_true_eq]
      omega
    simp only [piecesOf, if_neg hplain, if_neg (Nat.not_lt.mpr hwide)]

theorem piecesOf_narrow {c : CodePoint} (h : c.isWide = false) :
    ∃ numbered, piecesOf c = [⟨c, numbered⟩] ∧ (c.isSurrogate = true → numbered = true) := by
  have hnarrow : c.val < 0x10000 := by
    simp only [CodePoint.isWide, decide_eq_false_iff_not] at h
    omega
  unfold piecesOf
  dsimp only
  by_cases hplain : ((escapeLetter? c.val).isSome || (0x20 ≤ c.val && c.val ≤ 0x7E)) = true
  · refine ⟨false, if_pos hplain, ?_⟩
    intro hsurrogate
    simp only [CodePoint.isSurrogate, Bool.and_eq_true, decide_eq_true_eq] at hsurrogate
    have hletter : escapeLetter? c.val = none := by
      unfold escapeLetter?
      split <;> first | omega | rfl
    simp only [hletter, Option.isSome_none, Bool.false_or, Bool.and_eq_true,
      decide_eq_true_eq] at hplain
    omega
  · exact ⟨true, by rw [if_neg hplain, if_pos hnarrow], fun _ => rfl⟩

/-- Pieces of a text begin with a low surrogate only where the text does. -/
theorem point_head_piecesOf {c : CodePoint} {rest : Text} {next : Piece} {pieces : List Piece}
    (h : (c :: rest).flatMap piecesOf = next :: pieces) (hlow : next.point.isLowSurrogate = true) :
    next.point = c := by
  rw [List.flatMap_cons] at h
  cases hwide : c.isWide with
  | true =>
    obtain ⟨high, low, hhigh, -, -, hpieces⟩ := halves hwide
    rw [hpieces, List.cons_append] at h
    obtain ⟨rfl, -⟩ := List.cons.inj h
    rw [CodePoint.not_isLowSurrogate_of_isHighSurrogate hhigh] at hlow
    cases hlow
  | false =>
    obtain ⟨numbered, hpieces, -⟩ := piecesOf_narrow hwide
    rw [hpieces, List.cons_append] at h
    obtain ⟨rfl, -⟩ := List.cons.inj h
    rfl

/-- A code point that makes no pair with the one after it is read as itself. -/
theorem joinPieces_piecesOf {c : CodePoint} {t : Text}
    (h : ∀ d rest, t = d :: rest → (c.isHighSurrogate && d.isLowSurrogate) = false) :
    joinPieces (piecesOf c ++ t.flatMap piecesOf) = c :: joinPieces (t.flatMap piecesOf) := by
  cases hwide : c.isWide with
  | true =>
    obtain ⟨high, low, hhigh, hlow, hjoin, hpieces⟩ := halves hwide
    rw [hpieces, List.cons_append, List.cons_append, List.nil_append,
      joinPieces_pair rfl rfl hhigh hlow, hjoin]
  | false =>
    obtain ⟨numbered, hpieces, -⟩ := piecesOf_narrow hwide
    rw [hpieces, List.cons_append, List.nil_append]
    apply joinPieces_cons
    intro next rest hnext
    cases t with
    | nil => cases hnext
    | cons d more =>
      cases hlow : next.point.isLowSurrogate with
      | false => exact Bool.and_false _
      | true =>
        have hd := point_head_piecesOf hnext hlow
        rw [← hlow, hd]
        exact h d more rfl

theorem joinPieces_flatMap (t : Text) : joinPieces (t.flatMap piecesOf) = t.joinPairs := by
  fun_induction Text.joinPairs t with
  | case1 high low rest hpair ih =>
    obtain ⟨hhigh, hlow⟩ := Bool.and_eq_true_iff.mp hpair
    have hnarrow : ∀ c : CodePoint, c.isSurrogate = true → c.isWide = false := by
      intro c hc
      simp only [CodePoint.isSurrogate, Bool.and_eq_true, decide_eq_true_eq] at hc
      simp only [CodePoint.isWide, decide_eq_false_iff_not]
      omega
    have hs := CodePoint.isSurrogate_of_isHighSurrogate hhigh
    have ht := CodePoint.isSurrogate_of_isLowSurrogate hlow
    obtain ⟨_, hfirst, hn⟩ := piecesOf_narrow (hnarrow high hs)
    obtain ⟨_, hsecond, hm⟩ := piecesOf_narrow (hnarrow low ht)
    rw [List.flatMap_cons, List.flatMap_cons, hfirst, hsecond, List.cons_append, List.nil_append,
      List.cons_append, List.nil_append, joinPieces_pair (hn hs) (hm ht) hhigh hlow, ih]
  | case2 high low rest hpair ih =>
    rw [List.flatMap_cons, joinPieces_piecesOf, ih]
    intro d more hd
    obtain ⟨rfl, -⟩ := List.cons.inj hd
    exact Bool.not_eq_true _ ▸ hpair
  | case3 short hshort =>
    match short, hshort with
    | [], _ => rfl
    | [c], _ => exact joinPieces_piecesOf (t := []) (fun _ _ h => by cases h)
    | c :: d :: rest, hshort => exact absurd rfl (hshort c d rest)

/-- Reading a written text. -/
theorem run_quote [StackRoom] (t : Text) (p : Place) :
    Machine.run ⟨.between, p⟩ (quote t) = ⟨.between, p.string t.joinPairs⟩ := by
  have hopen : Machine.step ⟨.between, p⟩ 0x22 = ⟨.string [], p⟩ := rfl
  have hclose : ∀ pieces, Machine.step ⟨.string pieces, p⟩ 0x22 =
      ⟨.between, p.string (joinPieces pieces.reverse)⟩ := fun _ => rfl
  have hpoints := run_points t [] p
  unfold Machine.run at hpoints
  rw [quote, Machine.run, List.cons_append, List.foldl_cons, hopen, List.foldl_append, hpoints,
    List.foldl_cons, List.foldl_nil, hclose, List.append_nil, List.reverse_reverse,
    joinPieces_flatMap]

/-! ## What a written text holds -/

/-- What holds of the sixteen hexadecimal digits holds all along a number written with them. -/
theorem all_hexDigits {p : CodePoint → Prop}
    (h : ∀ d : Fin 16, p (CodePoint.ofChar (Nat.digitChar d.val))) {width n : Nat} :
    ∀ c ∈ hexDigits width n, p c := by
  induction width generalizing n with
  | zero => exact fun _ hc => nomatch hc
  | succ width ih =>
    intro c hc
    rw [hexDigits, List.mem_append, List.mem_singleton] at hc
    rcases hc with hc | rfl
    · exact ih c hc
    · exact h ⟨n % 16, Nat.mod_lt n (by decide)⟩

theorem isPlain_of_mem_hexDigits {width n : Nat} {c : CodePoint} (h : c ∈ hexDigits width n) :
    c.isPlain = true :=
  all_hexDigits (p := fun c => c.isPlain = true) (by decide) c h

theorem isPlain_of_mem_unitEscape {n : Nat} {c : CodePoint} (h : c ∈ unitEscape n) :
    c.isPlain = true := by
  rw [unitEscape, List.mem_append] at h
  rcases h with h | h
  · have all : (text "\\u").all CodePoint.isPlain = true := by decide
    exact List.all_eq_true.mp all c h
  · exact isPlain_of_mem_hexDigits h

theorem isPlain_escapeLetter {n : Nat} {letter : Char} (h : escapeLetter? n = some letter) :
    (CodePoint.ofChar letter).isPlain = true := by
  unfold escapeLetter? at h
  split at h
  all_goals first
    | (obtain rfl := Option.some.inj h
       decide)
    | cases h

theorem isPlain_of_mem_quotePoint {c d : CodePoint} (h : d ∈ quotePoint c) : d.isPlain = true := by
  unfold quotePoint at h
  dsimp only at h
  split at h
  · rename_i letter hletter
    rcases List.mem_cons.mp h with rfl | h
    · decide
    · rw [List.mem_singleton.mp h]
      exact isPlain_escapeLetter hletter
  · split at h
    · rename_i hplain
      rw [List.mem_singleton.mp h]
      exact hplain
    · split at h
      · exact isPlain_of_mem_unitEscape h
      · rcases List.mem_append.mp h with h | h <;> exact isPlain_of_mem_unitEscape h

theorem isPlain_of_mem_quote {t : Text} {c : CodePoint} (h : c ∈ quote t) : c.isPlain = true := by
  rw [quote, List.cons_append, List.mem_cons, List.mem_append, List.mem_singleton] at h
  rcases h with rfl | h | rfl
  · decide
  · obtain ⟨d, -, hc⟩ := List.mem_flatMap.mp h
    exact isPlain_of_mem_quotePoint hc
  · decide

/-! ## What a text that was read holds -/

theorem head_joinPieces {piece : Piece} {pieces : List Piece} {c : CodePoint} {rest : Text}
    (h : joinPieces (piece :: pieces) = c :: rest) : c = piece.point ∨ c.isWide = true := by
  cases pieces with
  | nil => exact Or.inl (List.cons.inj h).1.symm
  | cons next more =>
    rw [joinPieces] at h
    split at h
    · obtain ⟨rfl, -⟩ := List.cons.inj h
      exact Or.inr (CodePoint.isWide_joinPair _ _)
    · exact Or.inl (List.cons.inj h).1.symm

/-- Pieces whose surrogates were all written as numbers. -/
def SurrogatesNumbered (pieces : List Piece) : Prop :=
  ∀ piece ∈ pieces, piece.point.isSurrogate = true → piece.numbered = true

theorem hasPair_joinPieces {pieces : List Piece} (h : SurrogatesNumbered pieces) :
    (joinPieces pieces).hasPair = false := by
  fun_induction joinPieces pieces with
  | case1 high low rest hpair ih =>
    apply Text.hasPair_cons
    · intro d more _
      rw [CodePoint.not_isHighSurrogate_of_isWide (CodePoint.isWide_joinPair _ _), Bool.false_and]
    · exact ih fun piece hp => h piece (List.mem_cons_of_mem _ (List.mem_cons_of_mem _ hp))
  | case2 high low rest hpair ih =>
    apply Text.hasPair_cons
    · intro d more hd
      rcases head_joinPieces hd with rfl | hwide
      · -- both written as numbers, so they would have been joined
        cases hhigh : high.point.isHighSurrogate with
        | false => rfl
        | true =>
          cases hlow : low.point.isLowSurrogate with
          | false => rfl
          | true =>
            have hn := h high List.mem_cons_self (CodePoint.isSurrogate_of_isHighSurrogate hhigh)
            have hm := h low (List.mem_cons_of_mem _ List.mem_cons_self)
              (CodePoint.isSurrogate_of_isLowSurrogate hlow)
            exact absurd (by rw [hn, hm, hhigh, hlow]; rfl) hpair
      · rw [CodePoint.not_isLowSurrogate_of_isWide hwide, Bool.and_false]
    · exact ih fun piece hp => h piece (List.mem_cons_of_mem _ hp)
  | case3 short hshort =>
    match short, hshort with
    | [], _ => rfl
    | [piece], _ => rfl
    | high :: low :: rest, hshort => exact absurd rfl (hshort high low rest)

end Json

end WindowLayouts
