import WindowLayouts.History.Log
import WindowLayouts.Proofs.Decoding
import WindowLayouts.Proofs.JsonReading
import WindowLayouts.Proofs.Numerals

/- The line of an event. It is printable ASCII, and reading it gives the event back as far as a log
   can hold it: a surrogate pair in a text is joined, and a time that no double is near cannot be
   read at all. What was read from any line is read back exactly from then on.

     `Event.stored`                  an event as its line holds it
     `Event.Storable`                an event that its line holds exactly
     `LineReading.of_line`           reading the line of an event
     `LineReading.storable`          an event that was read can be stored -/
namespace WindowLayouts

/-! ## What a line holds of an event -/

namespace Event

/-- An event as its line holds it: surrogate pairs are joined. -/
def stored (e : Event) : Event :=
  ⟨e.time, e.classHash.joinPairs, e.titleHash.joinPairs, e.layoutId.joinPairs⟩

/-- An event that its line holds exactly: the time converts to a double, and no text has a
    surrogate pair in it. -/
structure Storable (e : Event) : Prop where
  time : (Double.ofInt e.time).isFinite = true
  classHash : e.classHash.hasPair = false
  titleHash : e.titleHash.hasPair = false
  layoutId : e.layoutId.hasPair = false

theorem Storable.stored_eq {e : Event} (h : e.Storable) : e.stored = e := by
  simp only [stored, Text.joinPairs_eq h.classHash, Text.joinPairs_eq h.titleHash,
    Text.joinPairs_eq h.layoutId]

/-- A member of the object of an event, after the comma before it. -/
def memberText (name value : Text) : Text :=
  text ", " ++ (Json.quote name ++ (text ": " ++ Json.quote value))

theorem body_eq (e : Event) :
    e.body = text "\x7b" ++ (Json.quote (text "ts") ++ (text ": " ++ (Numeral.ofInt e.time ++
      (memberText (text "wmClassHash") e.classHash ++ (memberText (text "titleHash") e.titleHash ++
        (memberText (text "layoutId") e.layoutId ++ text "\x7d")))))) := by
  have hts : text "\x7b\"ts\": " = text "\x7b" ++ (Json.quote (text "ts") ++ text ": ") := by
    decide +kernel
  have hclass : text ", \"wmClassHash\": " =
      text ", " ++ (Json.quote (text "wmClassHash") ++ text ": ") := by decide +kernel
  have htitle : text ", \"titleHash\": " =
      text ", " ++ (Json.quote (text "titleHash") ++ text ": ") := by decide +kernel
  have hlayout : text ", \"layoutId\": " =
      text ", " ++ (Json.quote (text "layoutId") ++ text ": ") := by decide +kernel
  simp only [body, memberText, hts, hclass, htitle, hlayout, List.append_assoc]

end Event

/-! ## Reading the object of an event -/

namespace Json

/-- The code points of a whole number stand between marks and blanks. -/
theorem endsBare_of_isNumberPoint {c : CodePoint} (h : Numeral.isNumberPoint c = true) :
    Machine.endsBare c = false ∧ isSpace c = false ∧ c.val ≠ 0x22 ∧ Mark.ofPoint? c = none := by
  have hval : (0x30 ≤ c.val ∧ c.val ≤ 0x39) ∨ c.val = 0x2D := by
    simp only [Numeral.isNumberPoint, CodePoint.isDigit, Bool.or_eq_true, Bool.and_eq_true,
      decide_eq_true_eq] at h
    rcases h with h | rfl
    · exact Or.inl h
    · exact Or.inr rfl
  have hspace : isSpace c = false := by
    simp only [isSpace, Bool.or_eq_false_iff, beq_eq_false_iff_ne, ne_eq]
    omega
  have hquote : c.val ≠ 0x22 := by omega
  have hmark : Mark.ofPoint? c = none := by
    unfold Mark.ofPoint?
    split <;> first | omega | rfl
  refine ⟨?_, hspace, hquote, hmark⟩
  simp only [Machine.endsBare, hspace, hmark, Option.isSome_none, Bool.or_false, Bool.false_or,
    beq_eq_false_iff_ne, ne_eq]
  exact hquote

theorem run_bare [StackRoom] {t : Text} (h : ∀ c ∈ t, Numeral.isNumberPoint c = true)
    (points : Text)
    (p : Place) : Machine.run ⟨.bare points, p⟩ t = ⟨.bare (t.reverse ++ points), p⟩ := by
  induction t generalizing points with
  | nil => rfl
  | cons c rest ih =>
    obtain ⟨hends, -, -, -⟩ := endsBare_of_isNumberPoint (h c List.mem_cons_self)
    have hstep : Machine.step ⟨.bare points, p⟩ c = ⟨.bare (c :: points), p⟩ := by
      simp only [Machine.step, hends, Bool.false_eq_true, if_false]
    have hrest := ih (fun d hd => h d (List.mem_cons_of_mem c hd)) (c :: points)
    rw [Machine.run, List.foldl_cons, hstep]
    rw [Machine.run] at hrest
    rw [hrest, List.reverse_cons, List.append_assoc, List.singleton_append]

theorem run_numberPoints [StackRoom] {t : Text} (ht : t ≠ [])
    (hpoints : ∀ c ∈ t, Numeral.isNumberPoint c = true) (p : Place) :
    Machine.run ⟨.between, p⟩ t = ⟨.bare t.reverse, p⟩ := by
  obtain ⟨c, rest, rfl⟩ := List.exists_cons_of_ne_nil ht
  obtain ⟨-, hspace, hquote, hmark⟩ := endsBare_of_isNumberPoint (hpoints c List.mem_cons_self)
  have hstep : Machine.step ⟨.between, p⟩ c = ⟨.bare [c], p⟩ := by
    simp only [Machine.step, Machine.stepBetween, hspace, Bool.false_eq_true, if_false,
      if_neg hquote, hmark]
  have hrest := run_bare (fun d hd => hpoints d (List.mem_cons_of_mem c hd)) [c] p
  rw [Machine.run, List.foldl_cons, hstep]
  rw [Machine.run] at hrest
  rw [hrest, List.reverse_cons]

theorem run_number [StackRoom] (i : Int) (p : Place) :
    Machine.run ⟨.between, p⟩ (Numeral.ofInt i) = ⟨.bare (Numeral.ofInt i).reverse, p⟩ :=
  run_numberPoints (Numeral.ofInt_ne_nil i) (fun _ => Numeral.isNumberPoint_of_mem_ofInt) p

/-- A member with a text, after other members. -/
theorem run_memberText [StackRoom] (members : List (Text × Value)) (name value : Text) :
    Machine.run ⟨.between, ⟨.afterMember members, []⟩⟩ (Event.memberText name value) =
      ⟨.between, ⟨.afterMember ((name.joinPairs, .string value.joinPairs) :: members), []⟩⟩ := by
  have hcomma : Machine.run ⟨.between, ⟨.afterMember members, []⟩⟩ (text ", ") =
      ⟨.between, ⟨.key members, []⟩⟩ := rfl
  have hcolon : ∀ key, Machine.run ⟨.between, ⟨.colon members key, []⟩⟩ (text ": ") =
      ⟨.between, ⟨.value, [.object members key]⟩⟩ := fun _ => rfl
  rw [Event.memberText, Machine.run_append, hcomma, Machine.run_append, run_quote,
    Machine.run_append]
  show Machine.run (Machine.run ⟨.between, ⟨.colon members name.joinPairs, []⟩⟩ (text ": "))
    (quote value) = _
  rw [hcolon, run_quote]
  rfl

theorem text_ts : Text.joinPairs (text "ts") = text "ts" := by decide

theorem text_wmClassHash : Text.joinPairs (text "wmClassHash") = text "wmClassHash" := by decide

theorem text_titleHash : Text.joinPairs (text "titleHash") = text "titleHash" := by decide

theorem text_layoutId : Text.joinPairs (text "layoutId") = text "layoutId" := by decide

/-- The members of the object of an event, as they are read. -/
def membersOf (e : Event) : List (Text × Value) :=
  [(text "ts", .integer e.time), (text "wmClassHash", .string e.classHash.joinPairs),
   (text "titleHash", .string e.titleHash.joinPairs),
   (text "layoutId", .string e.layoutId.joinPairs)]

/-- Reading up to the number of an event. -/
theorem run_body [StackRoom] (e : Event) :
    ∃ rest, Machine.run Machine.start e.body =
        Machine.run ⟨.between, (Place.mk .value [.object [] (text "ts")]).bare
          (Numeral.ofInt e.time)⟩ rest ∧
      rest = Event.memberText (text "wmClassHash") e.classHash ++
        (Event.memberText (text "titleHash") e.titleHash ++
          (Event.memberText (text "layoutId") e.layoutId ++ text "\x7d")) := by
  refine ⟨_, ?_, rfl⟩
  have hopen : Machine.run Machine.start (text "\x7b") = ⟨.between, ⟨.firstKey, []⟩⟩ := rfl
  have hcolon : Machine.run ⟨.between, ⟨.colon [] (text "ts"), []⟩⟩ (text ": ") =
      ⟨.between, ⟨.value, [.object [] (text "ts")]⟩⟩ := rfl
  have hcomma : ∀ points p rest, Machine.run ⟨.bare points, p⟩ (text ", " ++ rest) =
      Machine.run ⟨.between, p.bare points.reverse⟩ (text ", " ++ rest) := fun _ _ _ => rfl
  have hmember : ∀ name value, Event.memberText name value =
    text ", " ++ (quote name ++ (text ": " ++ quote value)) := fun _ _ => rfl
  rw [Event.body_eq, Machine.run_append, hopen, Machine.run_append, run_quote, text_ts]
  show Machine.run ⟨.between, ⟨.colon [] (text "ts"), []⟩⟩ _ = _
  rw [Machine.run_append, hcolon, Machine.run_append, run_number,
    hmember (text "wmClassHash") e.classHash, List.append_assoc, hcomma, List.reverse_reverse]

/-- The number of a member, complete. -/
theorem bare_number {i : Int} (h : (Numeral.ofNat i.natAbs).length ≤ Numeral.maxDigits)
    (members : List (Text × Value)) (key : Text) (stack : List Frame) :
    (Place.mk .value (.object members key :: stack)).bare (Numeral.ofInt i) =
      ⟨.afterMember ((key, .integer i) :: members), stack⟩ := by
  simp only [Place.bare, readScalar_ofInt, readInteger_ofNat_natAbs h, Except.map]
  rfl

theorem read_body_of_length [StackRoom] {e : Event}
    (h : (Numeral.ofNat e.time.natAbs).length ≤ Numeral.maxDigits) :
    read e.body = .ok (.object (membersOf e)) := by
  obtain ⟨rest, hrun, hrest⟩ := run_body e
  have hnumber := bare_number h [] (text "ts") []
  have hclose : ∀ members, Machine.run ⟨.between, ⟨.afterMember members, []⟩⟩ (text "\x7d") =
      ⟨.between, ⟨.done (.object members.reverse), []⟩⟩ := fun _ => rfl
  have hall : Machine.run Machine.start e.body =
      ⟨.between, ⟨.done (.object (membersOf e)), []⟩⟩ := by
    rw [hrun, hrest, hnumber, Machine.run_append, run_memberText, Machine.run_append,
      run_memberText, Machine.run_append, run_memberText, hclose, text_wmClassHash,
      text_titleHash, text_layoutId]
    rfl
  rw [read, hall]
  rfl

theorem read_body_of_long [StackRoom] {e : Event}
    (h : Numeral.maxDigits < (Numeral.ofNat e.time.natAbs).length) :
    read e.body = .error (.numeralTooLong ⟨(Numeral.ofNat e.time.natAbs).length⟩) := by
  obtain ⟨rest, hrun, -⟩ := run_body e
  have hnumber : ((Place.mk .value [.object [] (text "ts")]).bare (Numeral.ofInt e.time)).phase =
      .failed (.numeralTooLong ⟨(Numeral.ofNat e.time.natAbs).length⟩) := by
    simp only [Place.bare, readScalar_ofInt, readInteger_long h, Except.map]
    rfl
  rw [read, hrun, Machine.finish_failed (Machine.run_failed hnumber rest)]

end Json

namespace Event

theorem ofValue_membersOf (e : Event) :
    ofValue (.object (Json.membersOf e)) =
      (time? (.integer e.time)).map fun time => time.map fun t => { e.stored with time := t } := by
  have hts : member "ts" (Json.membersOf e) = .integer e.time := by rfl
  have hclass : member "wmClassHash" (Json.membersOf e) = .string e.classHash.joinPairs := by rfl
  have htitle : member "titleHash" (Json.membersOf e) = .string e.titleHash.joinPairs := by rfl
  have hlayout : member "layoutId" (Json.membersOf e) = .string e.layoutId.joinPairs := by rfl
  simp only [ofValue, hts, hclass, htitle, hlayout, text?]
  cases time? (.integer e.time) with
  | error reason => rfl
  | ok time => cases time <;> rfl

theorem ofText_body [StackRoom] {e : Event} (h : (Double.ofInt e.time).isFinite = true) :
    ofText e.body = .ok (some e.stored) := by
  rw [ofText, Json.read_body_of_length (Numeral.length_ofNat_le h)]
  show ofValue (.object (Json.membersOf e)) = _
  rw [ofValue_membersOf, time?, if_pos h]
  rfl

/-- A time that no double is near cannot be read back. -/
theorem ofText_body_error [StackRoom] {e : Event} (h : (Double.ofInt e.time).isFinite = false) :
    ∃ reason, reason ≠ .notJson ∧ ofText e.body = .error reason := by
  by_cases hlen : (Numeral.ofNat e.time.natAbs).length ≤ Numeral.maxDigits
  · refine ⟨.timeTooLarge, by decide, ?_⟩
    rw [ofText, Json.read_body_of_length hlen]
    show ofValue (.object (Json.membersOf e)) = _
    rw [ofValue_membersOf, time?, h]
    rfl
  · refine ⟨.numeralTooLong ⟨(Numeral.ofNat e.time.natAbs).length⟩, nofun, ?_⟩
    rw [ofText, Json.read_body_of_long (Nat.lt_of_not_le hlen)]

/-- A time that was read converts to a double. -/
theorem isFinite_of_time? {v : Json.Value} {time : Int} (h : time? v = .ok (some time)) :
    (Double.ofInt time).isFinite = true := by
  cases v with
  | integer i =>
    rw [time?] at h
    split at h
    · rename_i hfinite
      obtain rfl := Option.some.inj (Except.ok.inj h)
      exact hfinite
    · cases h
  | double x =>
    have htruncate : x.truncate = .ok time := by
      rw [time?] at h
      cases hx : x.truncate with
      | ok whole =>
        rw [hx] at h
        rw [Option.some.inj (Except.ok.inj h)]
      | error reason =>
        rw [hx] at h
        cases Except.ok.inj h
    exact Double.isFinite_ofInt_truncate htruncate
  | _ => cases h

theorem hasPair_of_text? {name : String} {members : List (Text × Json.Value)} {t : Text}
    (hmembers : Json.MembersNoPairs members) (h : text? (member name members) = some t) :
    t.hasPair = false := by
  have hstring : member name members = .string t := by
    unfold text? at h
    split at h
    · rename_i found heq
      obtain rfl := Option.some.inj h
      exact heq
    · cases h
  unfold member at hstring
  cases hfind : members.reverse.find? fun m => m.1 = text name with
  | none =>
    rw [hfind] at hstring
    cases hstring
  | some m =>
    rw [hfind] at hstring
    have hm : m ∈ members := List.mem_reverse.mp (List.mem_of_find?_eq_some hfind)
    exact hmembers m hm t hstring

theorem storable_of_ofValue {v : Json.Value} {e : Event} (hv : v.NoPairs)
    (h : ofValue v = .ok (some e)) : e.Storable := by
  cases v with
  | object members =>
    simp only [ofValue, bind, Except.bind, pure, Except.pure] at h
    cases htime : time? (member "ts" members) with
    | error reason =>
      rw [htime] at h
      cases h
    | ok time =>
      simp only [htime, Except.ok.injEq, Option.bind_eq_some_iff] at h
      obtain ⟨whole, rfl, classHash, hclass, titleHash, htitle, layoutId, hlayout, he⟩ := h
      obtain rfl := Option.some.inj he
      exact ⟨isFinite_of_time? htime, hasPair_of_text? hv hclass, hasPair_of_text? hv htitle,
        hasPair_of_text? hv hlayout⟩
  | _ => cases h

theorem storable_of_ofText [StackRoom] {t : Text} {e : Event} (ht : ∀ c ∈ t, c.isSurrogate = false)
    (h : ofText t = .ok (some e)) : e.Storable := by
  unfold ofText at h
  split at h
  · rename_i v hread
    exact storable_of_ofValue (Json.read_noPairs ht hread) h
  · cases h
  · cases h
  · cases h

/-- A hash has no surrogate in it. -/
theorem hasPair_hashText (t : Text) : (hashText t).hasPair = false := by
  apply Text.hasPair_of_isPlain
  intro c hc
  unfold hashText at hc
  split at hc
  · obtain ⟨word, -, hdigit⟩ := List.mem_flatMap.mp (List.mem_of_mem_take hc)
    exact Json.isPlain_of_mem_hexDigits hdigit
  · obtain rfl := List.eq_of_mem_replicate hc
    decide

theorem isPlain_of_mem_body {e : Event} {c : CodePoint} (h : c ∈ e.body) : c.isPlain = true := by
  have hall : ∀ t : Text, t.all CodePoint.isPlain = true → c ∈ t → c.isPlain = true :=
    fun t ht hc => List.all_eq_true.mp ht c hc
  have hdigit : ∀ d : CodePoint, Numeral.isNumberPoint d = true → d.isPlain = true := by
    intro d hd
    obtain ⟨hends, -, -, -⟩ := Json.endsBare_of_isNumberPoint hd
    simp only [Numeral.isNumberPoint, CodePoint.isDigit, Bool.or_eq_true, Bool.and_eq_true,
      decide_eq_true_eq] at hd
    rcases hd with hd | rfl
    · simp only [CodePoint.isPlain, Bool.and_eq_true, decide_eq_true_eq]
      omega
    · decide
  simp only [body_eq, memberText, List.mem_append] at h
  rcases h with h | h | h | h | (h | h | h | h) | (h | h | h | h) | (h | h | h | h) | h
  all_goals first
    | exact Json.isPlain_of_mem_quote h
    | exact hdigit c (Numeral.isNumberPoint_of_mem_ofInt h)
    | exact hall _ (by decide) h

theorem isAscii_of_mem_body {e : Event} {c : CodePoint} (h : c ∈ e.body) : c.val < 0x80 := by
  have hplain := isPlain_of_mem_body h
  simp only [CodePoint.isPlain, Bool.and_eq_true, decide_eq_true_eq] at hplain
  omega

/-- The bytes of an event's line without the newline. -/
def lineBytes (e : Event) : Bytes := e.body.map CodePoint.toByte

theorem bytes_eq (e : Event) : e.bytes = e.lineBytes ++ [newline] := by
  have hnewline : text "\n" = [0x0A] := by decide
  rw [bytes, line, hnewline, List.map_append]
  rfl

theorem lineBytes_eq_cons (e : Event) : ∃ rest, e.lineBytes = 0x7B :: rest ++ [0x7D] := by
  have hopen : (text "\x7b").map CodePoint.toByte = [0x7B] := by decide
  have hclose : (text "\x7d").map CodePoint.toByte = [0x7D] := by decide
  refine ⟨(Json.quote (text "ts") ++ text ": " ++ Numeral.ofInt e.time ++
    memberText (text "wmClassHash") e.classHash ++ memberText (text "titleHash") e.titleHash ++
    memberText (text "layoutId") e.layoutId).map CodePoint.toByte, ?_⟩
  rw [lineBytes, body_eq, List.map_append, hopen]
  simp only [List.map_append, hclose, List.append_assoc, List.nil_append, List.cons_append]

theorem newline_not_mem_lineBytes (e : Event) : newline ∉ e.lineBytes := by
  intro h
  obtain ⟨c, hc, heq⟩ := List.mem_map.mp h
  have hplain := isPlain_of_mem_body hc
  simp only [CodePoint.isPlain, Bool.and_eq_true, decide_eq_true_eq] at hplain
  have hval := CodePoint.toNat_toByte (isAscii_of_mem_body hc)
  rw [heq] at hval
  have hnewline : newline.toNat = 0x0A := rfl
  omega

end Event

theorem dropTailWhile_append {α : Type} {p : α → Bool} {a : α} (ha : p a = false) (xs : List α) :
    dropTailWhile p (xs ++ [a]) = xs ++ [a] := by
  rw [dropTailWhile, List.reverse_append, List.reverse_singleton, List.singleton_append,
    List.dropWhile_cons_of_neg (by rw [ha]; exact Bool.false_ne_true), List.reverse_cons,
    List.reverse_reverse]

theorem Event.trim_lineBytes (e : Event) : e.lineBytes.trim = e.lineBytes := by
  obtain ⟨rest, he⟩ := e.lineBytes_eq_cons
  have hopen : isBlankByte 0x7B = false := by decide
  have hclose : isBlankByte 0x7D = false := by decide
  rw [he, Bytes.trim, List.cons_append,
    List.dropWhile_cons_of_neg (by rw [hopen]; exact Bool.false_ne_true), ← List.cons_append,
    dropTailWhile_append hclose]

namespace LineReading

theorem of_lineBytes [StackRoom] (e : Event) :
    of e.lineBytes =
      match Event.ofText e.body with
      | .ok (some e) => .event e
      | .ok none => .invalid e.lineBytes
      | .error .notJson => .invalid e.lineBytes
      | .error reason => .failed reason := by
  have hempty : e.lineBytes.isEmpty = false := by
    obtain ⟨rest, he⟩ := e.lineBytes_eq_cons
    rw [he]
    rfl
  have hdecode : Utf8.decode? e.lineBytes = some e.body :=
    Utf8.decode?_ascii fun _ => Event.isAscii_of_mem_body
  rcases htext : Event.ofText e.body with (_ | _ | _) | (_ | _) <;>
    simp only [of, Event.trim_lineBytes, hempty, hdecode, htext, Bool.false_eq_true, if_false]

/-- Reading the line of an event gives what the line holds of it. -/
theorem of_line [StackRoom] {e : Event} (h : (Double.ofInt e.time).isFinite = true) :
    of e.lineBytes = .event e.stored := by
  rw [of_lineBytes, Event.ofText_body h]

/-- Reading the line of an event whose time no double is near fails. -/
theorem of_line_failed [StackRoom] {e : Event} (h : (Double.ofInt e.time).isFinite = false) :
    ∃ reason, of e.lineBytes = .failed reason := by
  obtain ⟨reason, hreason, hbody⟩ := Event.ofText_body_error h
  refine ⟨reason, ?_⟩
  rw [of_lineBytes, hbody]
  cases reason with
  | notJson => exact absurd rfl hreason
  | numeralTooLong r => rfl
  | tooDeep container => rfl
  | timeTooLarge => rfl

/-- The line of a storable event gives the event back. -/
theorem of_storable [StackRoom] {e : Event} (h : e.Storable) : of e.lineBytes = .event e := by
  rw [of_line h.time, h.stored_eq]

/-- What reading a line gives as an event, its line holds exactly. -/
theorem storable [StackRoom] {raw : Bytes} {e : Event} (h : of raw = .event e) : e.Storable := by
  unfold of at h
  dsimp only at h
  split at h
  · cases h
  · split at h
    · cases h
    · rename_i t hdecode
      split at h
      · rename_i read hread
        obtain rfl := LineReading.event.inj h
        exact Event.storable_of_ofText (Utf8.decode?_surrogate hdecode) hread
      · cases h
      · cases h
      · cases h

end LineReading

end WindowLayouts
