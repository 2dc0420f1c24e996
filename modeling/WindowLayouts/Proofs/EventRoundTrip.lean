import Mathlib.Algebra.Ring.Int.Defs
import WindowLayouts.Proofs.CutLines
import WindowLayouts.Proofs.Writable

/- Events to lines and back. The line of an event is ASCII with its one newline at the end, and it
   is read as the event with its surrogate pairs joined, from the text as from the bytes of a log. A
   pair that is joined makes a text shorter, so exactly the events without pairs come back as they
   were. What was read from any line has no pairs left and comes back from then on.

     `Text.joinPairs_eq_iff`    only a text without pairs stays what it is
     `Json.read_append_space`   a blank after a value makes no difference
     `Utf8.encode_ascii`        ASCII text is encoded point by point
     `Event.codec_round_trip`   writing and reading, in both orders -/
namespace WindowLayouts

/-! ## Texts that stay what they are -/

namespace Text

theorem length_joinPairs_le (t : Text) : t.joinPairs.length ≤ t.length := by
  fun_induction joinPairs t with
  | case1 high low rest hpair ih => simp only [List.length_cons]; omega
  | case2 high low rest hpair ih => simp only [List.length_cons] at ih ⊢; omega
  | case3 short hshort => exact Nat.le_refl _

/-- A pair that is joined makes the text shorter. -/
theorem length_joinPairs_lt {t : Text} (h : t.hasPair = true) : t.joinPairs.length < t.length := by
  fun_induction joinPairs t with
  | case1 high low rest hpair ih =>
    have hrest := length_joinPairs_le rest
    simp only [List.length_cons]
    omega
  | case2 high low rest hpair ih =>
    have hlater : hasPair (low :: rest) = true := by
      rw [hasPair, Bool.or_eq_true] at h
      exact h.resolve_left hpair
    have hshorter := ih hlater
    simp only [List.length_cons] at hshorter ⊢
    omega
  | case3 short hshort =>
    cases short with
    | nil => cases h
    | cons high later =>
      cases later with
      | nil => cases h
      | cons low rest => exact absurd rfl (hshort high low rest)

theorem joinPairs_eq_iff {t : Text} : t.joinPairs = t ↔ t.hasPair = false := by
  constructor
  · intro h
    rw [← Bool.not_eq_true]
    intro hpair
    have hshorter := length_joinPairs_lt hpair
    rw [h] at hshorter
    exact Nat.lt_irrefl _ hshorter
  · exact joinPairs_eq

end Text

/-! ## Blanks after a value -/

namespace Json

theorem Machine.outcome_step_space [StackRoom] {m : Machine} {v : Value} {c : CodePoint}
    (hc : isSpace c = true) (h : m.finish.outcome = .ok v) :
    (m.step c).finish.outcome = .ok v := by
  have hmalformed : (malformed m.place).place.outcome ≠ .ok v := by
    unfold malformed
    split
    · exact nofun
    · exact nofun
  obtain ⟨scanner, place⟩ := m
  cases scanner with
  | between =>
    have hstep : step ⟨.between, place⟩ c = ⟨.between, place⟩ := by
      simp only [step, stepBetween, hc, if_true]
    rw [hstep]
    exact h
  | bare points =>
    have hends : endsBare c = true := by
      simp only [endsBare, hc, Bool.true_or]
    have hstep : step ⟨.bare points, place⟩ c = ⟨.between, place.bare points.reverse⟩ := by
      simp only [step, hends, if_true, stepBetween, hc]
    rw [hstep]
    exact h
  | string pieces => exact absurd h hmalformed
  | escape pieces => exact absurd h hmalformed
  | numbered pieces left value => exact absurd h hmalformed

theorem read_append_space [StackRoom] {t : Text} {v : Value} {c : CodePoint} (hc : isSpace c = true)
    (h : read t = .ok v) : read (t ++ [c]) = .ok v := by
  rw [read_eq] at h ⊢
  rw [Machine.run_append]
  exact Machine.outcome_step_space hc h

end Json

/-! ## The bytes of an ASCII text -/

namespace Utf8

theorem surrogateRun?_ascii {t : Text} (h : ∀ c ∈ t, c.val < 0x80) : surrogateRun? t = none := by
  rw [surrogateRun?, runFrom?_eq_none]
  intro c hc
  have hlt := h c hc
  simp only [CodePoint.isSurrogate, Bool.and_eq_false_imp, decide_eq_true_eq]
  omega

theorem flatMap_encodePoint_ascii {t : Text} (h : ∀ c ∈ t, c.val < 0x80) :
    t.flatMap encodePoint = t.map CodePoint.toByte := by
  induction t with
  | nil => rfl
  | cons c rest ih =>
    have hc : encodePoint c = [c.toByte] := if_pos (h c List.mem_cons_self)
    rw [List.flatMap_cons, List.map_cons, hc, ih fun d hd => h d (List.mem_cons_of_mem c hd),
      List.singleton_append]

theorem encode_ascii {t : Text} (h : ∀ c ∈ t, c.val < 0x80) :
    encode t = .ok (t.map CodePoint.toByte) := by
  rw [encode, surrogateRun?_ascii h, flatMap_encodePoint_ascii h]

end Utf8

theorem dropTailWhile_append_of_pos {α : Type} {p : α → Bool} {a : α} (ha : p a = true)
    (xs : List α) : dropTailWhile p (xs ++ [a]) = dropTailWhile p xs := by
  rw [dropTailWhile, dropTailWhile, List.reverse_append, List.reverse_singleton,
    List.singleton_append, List.dropWhile_cons_of_pos ha]

namespace Event

/-! ## The line of an event -/

theorem line_eq (e : Event) : e.line = e.body ++ [0x0A] := by
  have hnewline : text "\n" = [0x0A] := by decide
  rw [line, hnewline]

theorem isAscii_of_mem_line {e : Event} {c : CodePoint} (h : c ∈ e.line) : c.val < 0x80 := by
  rw [line_eq, List.mem_append, List.mem_singleton] at h
  rcases h with h | rfl
  · exact isAscii_of_mem_body h
  · decide

theorem newline_not_mem_body (e : Event) : (0x0A : CodePoint) ∉ e.body := by
  intro h
  have hplain := isPlain_of_mem_body h
  revert hplain
  decide

theorem count_newline_line (e : Event) : e.line.count 0x0A = 1 := by
  rw [line_eq, List.count_append, List.count_eq_zero_of_not_mem e.newline_not_mem_body,
    List.count_singleton_self]

theorem encode_line (e : Event) : Utf8.encode e.line = .ok e.bytes :=
  Utf8.encode_ascii fun _ hc => isAscii_of_mem_line hc

theorem trim_bytes (e : Event) : e.bytes.trim = e.lineBytes := by
  have hblank : isBlankByte newline = true := by decide
  have hopen : ¬ isBlankByte 0x7B = true := by decide
  have htrim := e.trim_lineBytes
  obtain ⟨rest, hline⟩ := e.lineBytes_eq_cons
  rw [bytes_eq, Bytes.trim, hline, List.cons_append, List.cons_append,
    List.dropWhile_cons_of_neg hopen, ← List.cons_append, ← List.cons_append,
    dropTailWhile_append_of_pos hblank]
  rw [hline, Bytes.trim, List.cons_append, List.dropWhile_cons_of_neg hopen,
    ← List.cons_append] at htrim
  exact htrim

/-! ## Reading it -/

theorem ofText_line [StackRoom] {e : Event} {read : Option Event} (h : ofText e.body = .ok read) :
    ofText e.line = .ok read := by
  have hspace : Json.isSpace 0x0A = true := by decide
  unfold ofText at h ⊢
  cases hbody : Json.read e.body with
  | ok v =>
    rw [hbody] at h
    rw [line_eq, Json.read_append_space hspace hbody]
    exact h
  | error reason =>
    rw [hbody] at h
    cases reason <;> cases h

/-- The bytes of a line are read as those without the newline. -/
theorem readingOf_bytes [StackRoom] (e : Event) :
    LineReading.of e.bytes = LineReading.of e.lineBytes := by
  unfold LineReading.of
  rw [e.trim_bytes, e.trim_lineBytes]

theorem stored_eq_iff {e : Event} :
    e.stored = e ↔
      e.classHash.hasPair = false ∧ e.titleHash.hasPair = false ∧ e.layoutId.hasPair = false := by
  obtain ⟨time, classHash, titleHash, layoutId⟩ := e
  simp only [stored, Event.mk.injEq, Text.joinPairs_eq_iff, true_and]

/-- Writing an event and reading it joins its surrogate pairs and does nothing else; reading a line
    and writing what was read gives a line that is read as the same. -/
theorem codec_round_trip [StackRoom] :
    (∀ e : Event,
      (∀ c ∈ e.line, c.val < 0x80) ∧ e.line.count 0x0A = 1 ∧ e.line.getLast? = some 0x0A ∧
      Utf8.encode e.line = .ok e.bytes ∧
      ((Double.ofInt e.time).isFinite = true →
        ofText e.line = .ok (some e.stored) ∧ LineReading.of e.bytes = .event e.stored ∧
        (e.stored = e ↔ e.classHash.hasPair = false ∧ e.titleHash.hasPair = false ∧
          e.layoutId.hasPair = false))) ∧
    ∀ (t : Text) (e : Event), Utf8.NoSurrogate t → ofText t = .ok (some e) →
      ofText e.line = .ok (some e) := by
  refine ⟨?_, ?_⟩
  · intro e
    refine ⟨fun c => isAscii_of_mem_line, e.count_newline_line, ?_, e.encode_line, ?_⟩
    · rw [line_eq, List.getLast?_concat]
    · intro htime
      refine ⟨ofText_line (ofText_body htime), ?_, stored_eq_iff⟩
      rw [readingOf_bytes, LineReading.of_line htime]
  · intro t e hplain hread
    have hstorable : e.Storable := storable_of_ofText hplain hread
    have hback := ofText_line (ofText_body hstorable.time)
    rw [hstorable.stored_eq] at hback
    exact hback

/-- An event with a large time and texts of surrogates, quotes and newlines. -/
def oddEvent : Event :=
  ⟨-(2 ^ 1000), [0xD83D, 0xDE00, 0xDE00], [0x22, 0x0A, 0x5C, 0x7F, 0xD83D], [0x1F600, 0xD83D, 0x41]⟩

/-- A line with a fraction in the time, a member that comes twice, and one too many. -/
def oddLine : Text :=
  text "\x7b\"layoutId\": 1, \"more\": [], \"ts\": -12.5e1, \"titleHash\": \"\\ud83d\\ude00\"," ++
    text " \"wmClassHash\": \"c\", \"layoutId\": \"\\ude00\"\x7d "

theorem codec_round_trip_odd :
    (ofText oddEvent.line = .ok (some { oddEvent with classHash := [0x1F600, 0xDE00] }) ∧
      oddEvent.stored ≠ oddEvent) ∧
    ofText oddLine = .ok (some ⟨-125, text "c", [0x1F600], [0xDE00]⟩) ∧
    ofText (line ⟨-125, text "c", [0x1F600], [0xDE00]⟩) =
      .ok (some ⟨-125, text "c", [0x1F600], [0xDE00]⟩) := by
  have hstored : oddEvent.stored = { oddEvent with classHash := [0x1F600, 0xDE00] } := by
    decide +kernel
  have hread : ofText oddLine = .ok (some ⟨-125, text "c", [0x1F600], [0xDE00]⟩) := by
    decide +kernel
  have hplain : Utf8.NoSurrogate oddLine := by
    have hall : (oddLine.all fun c => !c.isSurrogate) = true := by decide +kernel
    intro c hc
    simpa using List.all_eq_true.mp hall c hc
  obtain ⟨hback, -, hsame⟩ := (codec_round_trip.1 oddEvent).2.2.2.2 (by decide +kernel)
  refine ⟨⟨hstored ▸ hback, ?_⟩, hread, ?_⟩
  · rw [ne_eq, hsame]
    decide
  · exact codec_round_trip.2 oddLine _ hplain hread

end Event

end WindowLayouts
