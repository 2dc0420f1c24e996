import WindowLayouts.Proofs.LogLines

/- The line of an event cut short. Wherever an event's line is cut before its last code point, what
   is left is no JSON, and it is no JSON because something is missing: none of its numbers is too
   long to be read. So a line that was cut is skipped, and never ends the reading of its log.

     `Json.Machine.Breaks`           a text that is no JSON wherever it is cut
     `Json.breaks_body`              the line of an event is such a text
     `LineReading.of_cut_line`       a line that was cut is skipped -/
namespace WindowLayouts

namespace Json

/-! ## Where a text ends -/

/-- What was read if the text ends at a place. -/
def Place.outcome (p : Place) : Except ReadError Value :=
  match p.phase with
  | .done v => .ok v
  | .failed reason => .error reason
  | _ => .error .malformed

theorem read_eq [StackRoom] (t : Text) : read t = (Machine.start.run t).finish.outcome := rfl

namespace Machine

/-- Going on with a text, nothing well-formed was read until the text is complete. -/
def Breaks [StackRoom] (m : Machine) : Text → Prop
  | [] => True
  | c :: rest => m.finish.outcome = .error .malformed ∧ (m.step c).Breaks rest

theorem Breaks.append [StackRoom] {m : Machine} {s t : Text} (hs : m.Breaks s)
    (ht : (m.run s).Breaks t) :
    m.Breaks (s ++ t) := by
  induction s generalizing m with
  | nil => exact ht
  | cons c rest ih => exact ⟨hs.1, ih hs.2 ht⟩

/-- What a strict beginning of such a text leads to is malformed. -/
theorem Breaks.outcome [StackRoom] {m : Machine} {before after : Text}
    (h : m.Breaks (before ++ after))
    (hafter : after ≠ []) : (m.run before).finish.outcome = .error .malformed := by
  induction before generalizing m with
  | nil =>
    obtain ⟨c, rest, rfl⟩ := List.exists_cons_of_ne_nil hafter
    exact h.1
  | cons c rest ih => exact ih h.2

end Machine

/-! ## Strings that are cut -/

/-- Whether a string is being collected. -/
def Scanner.isInString : Scanner → Bool
  | .between | .bare _ => false
  | _ => true

/-- A string is open, or an error was met already; in both cases no end of the text is
    well-formed. -/
def Machine.Hangs (m : Machine) : Prop :=
  (m.scanner.isInString = true ∧ (malformed m.place).place.phase = .failed .malformed) ∨
    m.place.phase = .failed .malformed

namespace Machine

theorem Hangs.outcome {m : Machine} (h : m.Hangs) : m.finish.outcome = .error .malformed := by
  have hfailed : m.finish.phase = .failed .malformed := by
    rcases h with ⟨hstring, hmalformed⟩ | hfailed
    · obtain ⟨scanner, place⟩ := m
      cases scanner with
      | between => cases hstring
      | bare points => cases hstring
      | _ => exact hmalformed
    · exact finish_failed hfailed
  rw [Place.outcome, hfailed]

/-- Only a quotation mark closes a string. -/
theorem Hangs.step [StackRoom] {m : Machine} (h : m.Hangs) {c : CodePoint} (hc : c.val ≠ 0x22) :
    (m.step c).Hangs := by
  rcases h with ⟨hstring, hmalformed⟩ | hfailed
  · obtain ⟨scanner, place⟩ := m
    cases scanner with
    | between => cases hstring
    | bare points => cases hstring
    | string pieces =>
      simp only [Machine.step, if_neg hc]
      split
      · exact Or.inl ⟨rfl, hmalformed⟩
      · split
        · exact Or.inr hmalformed
        · exact Or.inl ⟨rfl, hmalformed⟩
    | escape pieces =>
      simp only [Machine.step]
      split
      · exact Or.inl ⟨rfl, hmalformed⟩
      · split
        · exact Or.inl ⟨rfl, hmalformed⟩
        · exact Or.inr hmalformed
    | numbered pieces left value =>
      simp only [Machine.step]
      split
      · exact Or.inr hmalformed
      · split <;> exact Or.inl ⟨rfl, hmalformed⟩
  · exact Or.inr (step_failed hfailed c)

/-- A text with no quotation mark but at its end leaves a string open wherever it is cut. -/
theorem Hangs.breaks [StackRoom] {m : Machine} (h : m.Hangs) {t : Text}
    (ht : ∀ c ∈ t.dropLast, c.val ≠ 0x22) : m.Breaks t := by
  induction t generalizing m with
  | nil => trivial
  | cons c rest ih =>
    refine ⟨h.outcome, ?_⟩
    cases rest with
    | nil => trivial
    | cons d more =>
      rw [List.dropLast_cons_cons] at ht
      exact ih (h.step (ht c List.mem_cons_self)) fun e he => ht e (List.mem_cons_of_mem c he)

end Machine

theorem val_ne_of_mem_unitEscape {n : Nat} {c : CodePoint} (h : c ∈ unitEscape n) :
    c.val ≠ 0x22 := by
  have hletters : (text "\\u").all (fun d => d.val != 0x22) = true := by decide
  rw [unitEscape, List.mem_append] at h
  rcases h with h | h
  · exact bne_iff_ne.mp (List.all_eq_true.mp hletters c h)
  · exact all_hexDigits (p := fun c => c.val ≠ 0x22) (by decide) c h

/-- A code point is written with a quotation mark at the end of its escape only. -/
theorem val_ne_of_mem_dropLast_quotePoint {c d : CodePoint} (h : d ∈ (quotePoint c).dropLast) :
    d.val ≠ 0x22 := by
  unfold quotePoint at h
  dsimp only at h
  split at h
  · rw [List.mem_singleton.mp h]
    decide
  · split at h
    · cases h
    · split at h
      · exact val_ne_of_mem_unitEscape (List.dropLast_subset _ h)
      · rcases List.mem_append.mp (List.dropLast_subset _ h) with h | h <;>
          exact val_ne_of_mem_unitEscape h

section Place

variable {p : Place}

theorem hangs_of_outcome (h : p.outcome = .error .malformed) (pieces : List Piece) :
    Machine.Hangs ⟨.string pieces, p⟩ := by
  refine Or.inl ⟨rfl, ?_⟩
  obtain ⟨phase, stack⟩ := p
  cases phase with
  | failed reason => exact congrArg Phase.failed (Except.error.inj h)
  | _ => rfl

/-- A written text, where a text without it would be malformed. -/
theorem breaks_quote [StackRoom] (h : p.outcome = .error .malformed) (t : Text) :
    Machine.Breaks ⟨.between, p⟩ (quote t) := by
  have hpoints : ∀ (s : Text) (pieces : List Piece),
      Machine.Breaks ⟨.string pieces, p⟩ (s.flatMap quotePoint) := by
    intro s
    induction s with
    | nil => exact fun _ => trivial
    | cons c rest ih =>
      intro pieces
      apply Machine.Breaks.append
      · exact (hangs_of_outcome h pieces).breaks fun d hd => val_ne_of_mem_dropLast_quotePoint hd
      · rw [run_quotePoint]
        exact ih _
  -- the opening mark, the code points, and the closing mark
  refine ⟨h, (hpoints t []).append ?_⟩
  rw [run_points]
  exact ⟨(hangs_of_outcome h _).outcome, trivial⟩

end Place

/-! ## Numbers that are cut -/

theorem length_splitWhole_le (t : Text) : (splitWhole t).1.length ≤ t.length := by
  unfold splitWhole
  split
  · exact Nat.le_refl 0
  · rename_i c rest
    split
    · simp
    · rw [List.span_eq_takeWhile_dropWhile]
      exact (List.takeWhile_sublist _).length_le

theorem length_of_readInteger {negative : Bool} {digits : Text} {reason : ReadError}
    (h : readInteger negative digits = .error reason) : Numeral.maxDigits < digits.length := by
  unfold readInteger Numeral.read at h
  by_cases hlong : digits.length ≤ Numeral.maxDigits
  · rw [if_pos hlong] at h
    cases h
  · exact Nat.lt_of_not_le hlong

/-- Only a number of too many digits is refused though it is well-formed. -/
theorem length_of_readNumber {t : Text} {reason : ReadError} (hreason : reason ≠ .malformed) :
    readNumber t = .error reason → Numeral.maxDigits < t.length := by
  have hother : (Except.error .malformed : Except ReadError Value) ≠ .error reason :=
    fun heq => hreason (Except.error.inj heq).symm
  fun_cases readNumber t with
  | case1 => exact fun h => absurd h hother
  | case2 negative unsigned hsign whole after hwhole hsplit =>
    intro h
    have hunsigned : unsigned.length ≤ t.length := by
      split at hsign
      · split at hsign
        · obtain ⟨-, rfl⟩ := Prod.mk.inj hsign
          exact Nat.le_succ _
        · obtain ⟨-, rfl⟩ := Prod.mk.inj hsign
          exact Nat.le_refl _
      · obtain ⟨-, rfl⟩ := Prod.mk.inj hsign
        exact Nat.le_refl _
    have hdigits := length_splitWhole_le unsigned
    rw [hsplit] at hdigits
    cases hread : readInteger negative whole with
    | error other =>
      rw [hread] at h
      exact Nat.lt_of_lt_of_le (length_of_readInteger hread) (Nat.le_trans hdigits hunsigned)
    | ok i =>
      rw [hread] at h
      simp only [bind, Except.bind] at h
      split at h
      · cases h
      · exact absurd h hother
  | case3 => exact nofun
  | case4 => exact fun h => absurd h hother

theorem length_of_readScalar {t : Text} {reason : ReadError} (hreason : reason ≠ .malformed)
    (h : readScalar t = .error reason) : Numeral.maxDigits < t.length := by
  unfold readScalar at h
  repeat' split at h
  all_goals first
    | exact length_of_readNumber hreason h
    | cases h

section Number

variable {members : List (Text × Value)} {key : Text} {stack : List Frame}

/-- A member whose scalar ends with the text is missing the end of its object. -/
theorem outcome_bare {t : Text} (h : t.length ≤ Numeral.maxDigits) :
    ((Place.mk .value (.object members key :: stack)).bare t).outcome = .error .malformed := by
  unfold Place.bare
  cases hread : readScalar t with
  | ok v => rfl
  | error reason =>
    by_cases hreason : reason = .malformed
    · rw [hreason]
      rfl
    · exact absurd h (Nat.not_le.mpr (length_of_readScalar hreason hread))

theorem breaks_digits [StackRoom] {t points : Text} (ht : ∀ c ∈ t, Numeral.isNumberPoint c = true)
    (h : points.length + t.length ≤ Numeral.maxDigits) :
    Machine.Breaks ⟨.bare points, ⟨.value, .object members key :: stack⟩⟩ t := by
  induction t generalizing points with
  | nil => trivial
  | cons c rest ih =>
    obtain ⟨hends, -, -, -⟩ := endsBare_of_isNumberPoint (ht c List.mem_cons_self)
    rw [List.length_cons] at h
    refine ⟨outcome_bare (by rw [List.length_reverse]; omega), ?_⟩
    simp only [Machine.step, hends, Bool.false_eq_true, if_false]
    apply ih fun d hd => ht d (List.mem_cons_of_mem c hd)
    rw [List.length_cons]
    omega

/-- A whole number of an object, as long as it is short enough to be read. -/
theorem breaks_number [StackRoom] {t : Text} (ht : ∀ c ∈ t, Numeral.isNumberPoint c = true)
    (h : t.length ≤ Numeral.maxDigits) :
    Machine.Breaks ⟨.between, ⟨.value, .object members key :: stack⟩⟩ t := by
  cases t with
  | nil => trivial
  | cons c rest =>
    obtain ⟨-, hspace, hquote, hmark⟩ := endsBare_of_isNumberPoint (ht c List.mem_cons_self)
    refine ⟨rfl, ?_⟩
    simp only [Machine.step, Machine.stepBetween, hspace, Bool.false_eq_true, if_false,
      if_neg hquote, hmark]
    apply breaks_digits fun d hd => ht d (List.mem_cons_of_mem c hd)
    rw [List.length_cons] at h
    rw [List.length_singleton]
    omega

/-- A comma after a number ends the number and then the member. -/
theorem breaks_bare [StackRoom] {points t : Text} {p : Place}
    (h : Machine.Breaks ⟨.between, p.bare points.reverse⟩ (0x2C :: t)) :
    Machine.Breaks ⟨.bare points, p⟩ (0x2C :: t) :=
  h

end Number

/-! ## The line of an event -/

/-- A member with a text, after other members. -/
theorem breaks_memberText [StackRoom] (members : List (Text × Value)) (name value : Text) :
    Machine.Breaks ⟨.between, ⟨.afterMember members, []⟩⟩ (Event.memberText name value) := by
  have hcomma : text ", " = [0x2C, 0x20] := by decide
  have hcolon : text ": " = [0x3A, 0x20] := by decide
  rw [Event.memberText, hcomma, hcolon]
  refine ⟨rfl, rfl, ?_⟩
  refine (breaks_quote rfl name).append ?_
  rw [run_quote]
  exact ⟨rfl, rfl, breaks_quote rfl value⟩

/-- The object of an event is no JSON before its last code point. -/
theorem breaks_body [StackRoom] {e : Event} (h : (Double.ofInt e.time).isFinite = true) :
    Machine.start.Breaks e.body := by
  have hopen : text "\x7b" = [0x7B] := by decide
  have hclose : text "\x7d" = [0x7D] := by decide
  have hcolon : text ": " = [0x3A, 0x20] := by decide
  rw [Event.body_eq, hopen, hclose, hcolon]
  -- the first member, whose value is the number
  refine ⟨rfl, ?_⟩
  refine (breaks_quote rfl (text "ts")).append ?_
  rw [run_quote, text_ts]
  refine ⟨rfl, rfl, ?_⟩
  refine (breaks_number (fun _ => Numeral.isNumberPoint_of_mem_ofInt)
    (Numeral.length_ofInt_le h)).append ?_
  rw [run_number]
  have hmembers : Machine.Breaks ⟨.between, ⟨.afterMember [(text "ts", .integer e.time)], []⟩⟩
      (Event.memberText (text "wmClassHash") e.classHash ++
        (Event.memberText (text "titleHash") e.titleHash ++
          (Event.memberText (text "layoutId") e.layoutId ++ [0x7D]))) := by
    refine (breaks_memberText _ _ _).append ?_
    rw [run_memberText]
    refine (breaks_memberText _ _ _).append ?_
    rw [run_memberText]
    refine (breaks_memberText _ _ _).append ?_
    rw [run_memberText]
    exact ⟨rfl, trivial⟩
  have hcomma : ∀ name value, ∃ rest, Event.memberText name value = 0x2C :: rest := by
    have hpoints : text ", " = [0x2C, 0x20] := by decide
    intro name value
    exact ⟨_, by rw [Event.memberText, hpoints, List.cons_append]⟩
  obtain ⟨rest, hrest⟩ := hcomma (text "wmClassHash") e.classHash
  rw [hrest, List.cons_append] at hmembers ⊢
  apply breaks_bare
  rw [List.reverse_reverse, bare_number (Numeral.length_ofNat_le h)]
  exact hmembers

end Json

namespace Event

/-- The line of an event is no JSON before its last byte, whatever it is cut to. -/
theorem ofText_of_cut_body [StackRoom] {e : Event} (h : (Double.ofInt e.time).isFinite = true)
    {before after : Text} (hsplit : e.body = before ++ after) (hafter : after ≠ []) :
    ofText before = .error .notJson := by
  have hbreaks := Json.breaks_body h
  rw [hsplit] at hbreaks
  rw [ofText, Json.read_eq, hbreaks.outcome hafter]

end Event

/-- What is left of a list without its last elements is a beginning of it. -/
theorem dropTailWhile_isPrefix {α : Type} (p : α → Bool) (xs : List α) :
    dropTailWhile p xs <+: xs := by
  rw [dropTailWhile, ← List.reverse_suffix, List.reverse_reverse]
  exact List.dropWhile_suffix p

namespace LineReading

/-- A line that was cut is skipped, and it does not end the reading of its log. -/
theorem of_cut_line [StackRoom] {e : Event} (h : (Double.ofInt e.time).isFinite = true)
    {before after : Bytes} (hsplit : e.lineBytes = before ++ after) (hafter : after ≠ []) :
    (of before).event? = none ∧ (of before).failure? = none := by
  have htrim : before.trim <+: before := by
    cases before with
    | nil => exact List.nil_prefix
    | cons b rest =>
      obtain ⟨more, hline⟩ := e.lineBytes_eq_cons
      rw [hline] at hsplit
      obtain ⟨rfl, -⟩ := List.cons.inj hsplit
      have hopen : ¬ isBlankByte 0x7B = true := by decide
      rw [Bytes.trim, List.dropWhile_cons_of_neg hopen]
      exact dropTailWhile_isPrefix _ _
  -- what is left of the line once it is trimmed is a strict beginning of it too
  obtain ⟨blanks, hblanks⟩ := htrim
  rw [← hblanks, List.append_assoc] at hsplit
  obtain ⟨t, lost, hbody, hleft, hlost⟩ := List.map_eq_append_iff.mp hsplit
  have hcut : lost ≠ [] := by
    rintro rfl
    exact hafter (List.append_eq_nil_iff.mp hlost.symm).2
  have hdecode : Utf8.decode? before.trim = some t := by
    rw [← hleft]
    apply Utf8.decode?_ascii
    intro c hc
    exact Event.isAscii_of_mem_body (e := e) (by rw [hbody]; exact List.mem_append_left lost hc)
  have htext := Event.ofText_of_cut_body h hbody hcut
  unfold of
  dsimp only
  split
  · exact ⟨rfl, rfl⟩
  · rw [hdecode]
    dsimp only
    rw [htext]
    exact ⟨rfl, rfl⟩

end LineReading

end WindowLayouts
