import WindowLayouts.Proofs.EventLine

/- Logs as lines. What a log decodes to is what each of its lines decodes to by itself, and reading
   a log gives just that unless some line fails. Appending an event adds one line and touches no
   other, whether or not the log ends its last line; a log written for some events has one line for
   each of them.

     `Log.readLines_events`    reading some lines, by what each line is
     `Log.lines_repair`        the lines of a log at whose end something was written
     `Log.decoded_append`      what a log with one more event decodes to
     `Log.decoded_ofEvents`    what a log of some events decodes to -/
namespace WindowLayouts

namespace LineReading

/-- The event of a line. -/
def event? : LineReading → Option Event
  | .event e => some e
  | _ => none

/-- Why a line ends the reading of its log. -/
def failure? : LineReading → Option Event.ReadError
  | .failed reason => some reason
  | _ => none

theorem event?_eq_some {r : LineReading} {e : Event} (h : r.event? = some e) : r = .event e := by
  cases r with
  | event d => rw [Option.some.inj h]
  | _ => cases h

theorem of_nil [StackRoom] : of [] = .blank := rfl

end LineReading

namespace Event

/-- The event that the line of an event decodes to. -/
def decoded? [StackRoom] (e : Event) : Option Event := (LineReading.of e.lineBytes).event?

theorem decoded?_eq [StackRoom] {e : Event} (h : (Double.ofInt e.time).isFinite = true) :
    e.decoded? = some e.stored := by
  rw [decoded?, LineReading.of_line h]
  rfl

theorem decoded?_eq_none [StackRoom] {e : Event} (h : (Double.ofInt e.time).isFinite = false) :
    e.decoded? = none := by
  obtain ⟨reason, hreason⟩ := LineReading.of_line_failed h
  rw [decoded?, hreason]
  rfl

theorem Storable.decoded? [StackRoom] {e : Event} (h : e.Storable) : e.decoded? = some e := by
  rw [decoded?_eq h.time, h.stored_eq]

theorem Storable.failure? [StackRoom] {e : Event} (h : e.Storable) :
    (LineReading.of e.lineBytes).failure? = none := by
  rw [LineReading.of_storable h]
  rfl

end Event

namespace Log

/-! ## What lines decode to -/

/-- The events that lines decode to, each line taken alone. -/
def decodedLines [StackRoom] (lines : List Bytes) : List Event :=
  lines.filterMap fun raw => (LineReading.of raw).event?

/-- Why the first line that fails does so. -/
def failureOf [StackRoom] (lines : List Bytes) : Option Event.ReadError :=
  lines.findSome? fun raw => (LineReading.of raw).failure?

/-- The events that a log decodes to. -/
def decoded [StackRoom] (content : Bytes) : List Event := decodedLines (lines content)

/-- Whether no line of a log fails. -/
def isReadable [StackRoom] (content : Bytes) : Bool := (failureOf (lines content)).isNone

theorem decodedLines_append [StackRoom] (first second : List Bytes) :
    decodedLines (first ++ second) = decodedLines first ++ decodedLines second :=
  List.filterMap_append

theorem decodedLines_singleton [StackRoom] (raw : Bytes) :
    decodedLines [raw] = (LineReading.of raw).event?.toList := by
  rw [decodedLines, List.filterMap_cons]
  cases (LineReading.of raw).event? <;> rfl

theorem failureOf_append [StackRoom] (first second : List Bytes) :
    failureOf (first ++ second) = (failureOf first).or (failureOf second) :=
  List.findSome?_append

theorem failureOf_append_eq_none [StackRoom] {first second : List Bytes} :
    failureOf (first ++ second) = none ↔ failureOf first = none ∧ failureOf second = none := by
  rw [failureOf_append, Option.or_eq_none_iff]

theorem failureOf_eq_none [StackRoom] {lines : List Bytes} :
    failureOf lines = none ↔ ∀ raw ∈ lines, (LineReading.of raw).failure? = none :=
  List.findSome?_eq_none_iff

theorem isReadable_iff [StackRoom] {content : Bytes} :
    isReadable content = true ↔ failureOf (lines content) = none :=
  Option.isNone_iff_eq_none

/-- Reading some lines gives the events of all lines, unless a line fails. -/
theorem readLines_events [StackRoom] (number : Nat) (lines : List Bytes) :
    (readLines number lines).events =
      match failureOf lines with
      | some reason => .error reason
      | none => .ok (decodedLines lines) := by
  induction lines generalizing number with
  | nil => rfl
  | cons raw rest ih =>
    have hfailure : failureOf (raw :: rest) =
        ((LineReading.of raw).failure?).or (failureOf rest) := by
      rw [failureOf, List.findSome?_cons]
      cases (LineReading.of raw).failure? <;> rfl
    rw [readLines, hfailure, decodedLines, List.filterMap_cons]
    -- only a failing line ends the reading; the number of the line has no part in the events
    cases LineReading.of raw with
    | blank => exact ih (number + 1)
    | event e =>
      show (readLines (number + 1) rest).events.map (e :: ·) = _
      rw [ih (number + 1)]
      show _ = match failureOf rest with
        | some reason => Except.error reason
        | none => .ok (e :: decodedLines rest)
      cases failureOf rest <;> rfl
    | invalid trimmed => exact ih (number + 1)
    | failed reason => rfl

theorem read_events [StackRoom] {content : Bytes} (h : isReadable content = true) :
    (read content).events = .ok (decoded content) := by
  rw [read, readLines_events, isReadable_iff.mp h]
  rfl

theorem read_events_error [StackRoom] {content : Bytes} (h : isReadable content = false) :
    ∃ reason, (read content).events = .error reason := by
  have hsome : failureOf (lines content) ≠ none := by
    intro hnone
    rw [isReadable_iff.mpr hnone] at h
    exact Bool.noConfusion h
  obtain ⟨reason, hreason⟩ := Option.ne_none_iff_exists'.mp hsome
  exact ⟨reason, by rw [read, readLines_events, hreason]⟩

/-- What a log decodes to can be stored again. -/
theorem storable_of_mem_decoded [StackRoom] {content : Bytes} {e : Event}
    (h : e ∈ decoded content) :
    e.Storable := by
  obtain ⟨raw, -, hraw⟩ := List.mem_filterMap.mp h
  exact LineReading.storable (LineReading.event?_eq_some hraw)

/-! ## The lines of a log that grows -/

theorem foldr_consByte_ne_nil (content line : Bytes) : content.foldr consByte [line] ≠ [] := by
  cases content with
  | nil => exact List.cons_ne_nil line []
  | cons b rest =>
    unfold List.foldr consByte
    split
    · exact List.cons_ne_nil _ _
    · split <;> exact List.cons_ne_nil _ _

theorem foldr_consByte_cons (content line : Bytes) (more : List Bytes) :
    content.foldr consByte (line :: more) = content.foldr consByte [line] ++ more := by
  induction content generalizing line with
  | nil => rfl
  | cons b rest ih =>
    -- a byte goes into the first line or in front of it, and never reaches the lines after it
    obtain ⟨first, later, hfirst⟩ := List.exists_cons_of_ne_nil (foldr_consByte_ne_nil rest line)
    rw [List.foldr_cons, List.foldr_cons, ih, hfirst, List.cons_append]
    unfold consByte
    split <;> rfl

/-- A newline ends a line, and the lines on both sides of it stay what they are. -/
theorem lines_append_newline (before after : Bytes) :
    lines (before ++ newline :: after) = lines before ++ lines after := by
  have hnewline : consByte newline (lines after) = [] :: lines after := if_pos rfl
  rw [lines, List.foldr_append, List.foldr_cons]
  show before.foldr consByte (consByte newline (lines after)) = _
  rw [hnewline, foldr_consByte_cons]
  rfl

theorem lines_of_not_mem {content : Bytes} (h : newline ∉ content) : lines content = [content] := by
  induction content with
  | nil => rfl
  | cons b rest ih =>
    have hb : ¬ b = newline := fun he => h (he ▸ List.mem_cons_self)
    have hrest := ih fun hmem => h (List.mem_cons_of_mem b hmem)
    rw [lines] at hrest
    rw [lines, List.foldr_cons, hrest, consByte, if_neg hb]

theorem lines_bytes_append (e : Event) (rest : Bytes) :
    lines (e.bytes ++ rest) = e.lineBytes :: lines rest := by
  rw [e.bytes_eq, List.append_assoc, List.singleton_append, lines_append_newline,
    lines_of_not_mem e.newline_not_mem_lineBytes, List.singleton_append]

theorem lines_bytes (e : Event) : lines e.bytes = [e.lineBytes, []] := by
  have h := lines_bytes_append e []
  rw [List.append_nil] at h
  exact h

theorem decodedLines_blank [StackRoom] (lines : List Bytes) :
    decodedLines (lines ++ [[]]) = decodedLines lines := by
  rw [decodedLines_append, decodedLines_singleton, LineReading.of_nil]
  exact List.append_nil _

theorem failureOf_blank [StackRoom] (lines : List Bytes) :
    failureOf (lines ++ [[]]) = failureOf lines := by
  rw [failureOf_append]
  exact Option.or_none

/-! ## What is written at the end of a log -/

/-- What is written before anything else: the newline that a broken line is ended with. -/
def repair (content : Bytes) : Bytes := if endsMidLine content then [newline] else []

theorem appended_eq (content : Bytes) (e : Event) :
    appended content e = repair content ++ e.bytes := by
  unfold appended repair
  split <;> rfl

theorem append_eq (content : Bytes) (e : Event) :
    append content e = content ++ (repair content ++ e.bytes) := by
  rw [append, appended_eq]

/-- Whatever is written after the repair stands on lines of its own. What follows the last newline
    of a log is a line too, and new lines take its place if it is empty. -/
theorem lines_repair (content rest : Bytes) :
    ∃ before, (lines content = before ∨ lines content = before ++ [[]]) ∧
      lines (content ++ (repair content ++ rest)) = before ++ lines rest := by
  rw [repair, endsMidLine]
  rcases List.eq_nil_or_concat content with rfl | ⟨before, b, rfl⟩
  · exact ⟨[], Or.inr rfl, rfl⟩
  · rw [List.concat_eq_append, List.getLast?_concat]
    -- only a log that does not end its last line gets a newline before the new one
    by_cases hb : b = newline
    · subst hb
      refine ⟨lines before, Or.inr (lines_append_newline before []), ?_⟩
      rw [if_neg (by decide), List.nil_append, List.append_assoc, List.singleton_append,
        lines_append_newline]
    · refine ⟨lines (before ++ [b]), Or.inl rfl, ?_⟩
      rw [if_pos (bne_iff_ne.mpr hb), List.singleton_append, lines_append_newline]

/-- What is written after the repair adds its own events to those of the log. -/
theorem decoded_repair [StackRoom] (content rest : Bytes) :
    decoded (content ++ (repair content ++ rest)) = decoded content ++ decoded rest := by
  obtain ⟨before, hbefore, hlines⟩ := lines_repair content rest
  have hdecoded : decoded content = decodedLines before := by
    unfold decoded
    rcases hbefore with h | h
    · rw [h]
    · rw [h, decodedLines_blank]
  rw [hdecoded, decoded, hlines, decodedLines_append]
  rfl

theorem isReadable_repair [StackRoom] (content rest : Bytes) :
    isReadable (content ++ (repair content ++ rest)) = true ↔
      isReadable content = true ∧ isReadable rest = true := by
  obtain ⟨before, hbefore, hlines⟩ := lines_repair content rest
  have hfailure : failureOf (lines content) = failureOf before := by
    rcases hbefore with h | h
    · rw [h]
    · rw [h, failureOf_blank]
  rw [isReadable_iff, isReadable_iff, isReadable_iff, hlines, failureOf_append_eq_none, hfailure]

theorem decoded_bytes [StackRoom] (e : Event) : decoded e.bytes = e.decoded?.toList := by
  rw [decoded, lines_bytes]
  exact (decodedLines_blank [e.lineBytes]).trans (decodedLines_singleton e.lineBytes)

theorem isReadable_bytes [StackRoom] (e : Event) :
    isReadable e.bytes = true ↔ (LineReading.of e.lineBytes).failure? = none := by
  have hblank : failureOf [e.lineBytes, []] = failureOf [e.lineBytes] :=
    failureOf_blank [e.lineBytes]
  rw [isReadable_iff, lines_bytes, hblank, failureOf_eq_none]
  simp only [List.mem_singleton, forall_eq]

/-- A log with one more event decodes to one event more, or to none where the new line does not. -/
theorem decoded_append [StackRoom] (content : Bytes) (e : Event) :
    decoded (append content e) = decoded content ++ e.decoded?.toList := by
  rw [append_eq, decoded_repair, decoded_bytes]

theorem isReadable_append [StackRoom] {content : Bytes} {e : Event} (h : isReadable content = true)
    (he : e.Storable) : isReadable (append content e) = true := by
  rw [append_eq, isReadable_repair]
  exact ⟨h, (isReadable_bytes e).mpr he.failure?⟩

/-! ## The log of some events -/

theorem lines_ofEvents (events : List Event) :
    lines (ofEvents events) = events.map Event.lineBytes ++ [[]] := by
  induction events with
  | nil => rfl
  | cons e rest ih =>
    rw [ofEvents, List.flatMap_cons, lines_bytes_append, List.map_cons, List.cons_append]
    rw [ofEvents] at ih
    rw [ih]

/-- A log of some events decodes to what the line of each of them decodes to. -/
theorem decoded_ofEvents [StackRoom] (events : List Event) :
    decoded (ofEvents events) = events.filterMap Event.decoded? := by
  rw [decoded, lines_ofEvents, decodedLines_blank, decodedLines, List.filterMap_map]
  rfl

theorem decoded_ofEvents_of_storable [StackRoom] {events : List Event}
    (h : ∀ e ∈ events, e.Storable) :
    decoded (ofEvents events) = events := by
  induction events with
  | nil => rfl
  | cons e rest ih =>
    have hrest := ih fun d hd => h d (List.mem_cons_of_mem e hd)
    rw [decoded_ofEvents] at hrest ⊢
    rw [List.filterMap_cons, (h e List.mem_cons_self).decoded?, hrest]

theorem isReadable_ofEvents [StackRoom] {events : List Event} (h : ∀ e ∈ events, e.Storable) :
    isReadable (ofEvents events) = true := by
  rw [isReadable_iff, lines_ofEvents, failureOf_blank, failureOf_eq_none]
  intro raw hraw
  obtain ⟨e, he, rfl⟩ := List.mem_map.mp hraw
  exact (h e he).failure?

end Log

end WindowLayouts
