import WindowLayouts.Proofs.BadLines
import WindowLayouts.Proofs.CutLines
import WindowLayouts.Proofs.Following
import WindowLayouts.Proofs.Writable

/- Appends that were cut short. If only the first bytes of what an append writes are in the log, a
   store that loads it has the events from before, and the new one exactly if the JSON text of its
   line is complete. What that store records next goes to a line of its own, so that nothing is
   lost and nothing runs together.

     `Log.torn`                    a log after an append that was cut short
     `Log.decoded_torn`            what it decodes to
     `Store.Follows.events_torn`   the events that it gives
     `Store.recovers_torn_append`  loading it, recording on, and loading again -/
namespace WindowLayouts

namespace Log

/-! ## The log after an append that was cut short -/

/-- A log with the first bytes of what is written for one more event. -/
def torn (content : Bytes) (e : Event) (k : Nat) : Bytes := content ++ (appended content e).take k

/-- Whether the JSON text of an event is complete in the first bytes of what is written for it; the
    newline after it may be missing. -/
def isComplete (content : Bytes) (e : Event) (k : Nat) : Bool :=
  (repair content).length + e.lineBytes.length ≤ k

/-- The first bytes of an event's line decode to the event if the line is complete, and to nothing
    otherwise. They never end the reading. -/
theorem cut_bytes [StackRoom] {e : Event} (h : (Double.ofInt e.time).isFinite = true) (k : Nat) :
    decoded (e.bytes.take k) = (if e.lineBytes.length ≤ k then [e.stored] else []) ∧
      isReadable (e.bytes.take k) = true := by
  have hwhole : e.decoded?.toList = [e.stored] := by
    rw [Event.decoded?_eq h]
    rfl
  have hreadable : (LineReading.of e.lineBytes).failure? = none := by
    rw [LineReading.of_line h]
    rfl
  rcases Nat.lt_trichotomy k e.lineBytes.length with hlt | rfl | hgt
  · -- a line that was cut
    have htake : e.bytes.take k = e.lineBytes.take k := by
      rw [e.bytes_eq, List.take_append_of_le_length (Nat.le_of_lt hlt)]
    have hlost : e.lineBytes.drop k ≠ [] := by
      intro hnil
      have hlength := congrArg List.length hnil
      rw [List.length_drop, List.length_nil] at hlength
      omega
    obtain ⟨hevent, hfailure⟩ :=
      LineReading.of_cut_line h (List.take_append_drop k e.lineBytes).symm hlost
    have hline : lines (e.lineBytes.take k) = [e.lineBytes.take k] :=
      lines_of_not_mem fun hmem => e.newline_not_mem_lineBytes (List.mem_of_mem_take hmem)
    rw [htake, if_neg (Nat.not_le.mpr hlt), isReadable_iff, decoded, hline,
      decodedLines_singleton, hevent, failureOf_eq_none]
    exact ⟨rfl, by simpa using hfailure⟩
  · -- the whole line without its newline
    have htake : e.bytes.take e.lineBytes.length = e.lineBytes := by
      rw [e.bytes_eq, List.take_left]
    rw [htake, if_pos (Nat.le_refl _), isReadable_iff, decoded,
      lines_of_not_mem e.newline_not_mem_lineBytes, decodedLines_singleton, failureOf_eq_none]
    exact ⟨hwhole, by simpa using hreadable⟩
  · have htake : e.bytes.take k = e.bytes := by
      apply List.take_of_length_le
      rw [e.bytes_eq, List.length_append, List.length_singleton]
      omega
    rw [htake, if_pos (Nat.le_of_lt hgt), decoded_bytes, isReadable_bytes]
    exact ⟨hwhole, hreadable⟩

/-- Nothing of the new line is written before the repair is. -/
theorem torn_cases (content : Bytes) (e : Event) (k : Nat) :
    (torn content e k = content ∧ isComplete content e k = false) ∨
      ∃ j, torn content e k = content ++ (repair content ++ e.bytes.take j) ∧
        (isComplete content e k = true ↔ e.lineBytes.length ≤ j) := by
  rw [torn, appended_eq, isComplete]
  by_cases hk : k < (repair content).length
  · have hzero : k = 0 := by
      have hone : (repair content).length ≤ 1 := by
        unfold repair
        split <;> decide
      omega
    subst hzero
    refine Or.inl ⟨List.append_nil content, ?_⟩
    rw [decide_eq_false_iff_not]
    omega
  · refine Or.inr ⟨k - (repair content).length, ?_, ?_⟩
    · rw [List.take_append, List.take_of_length_le (Nat.le_of_not_lt hk)]
    · rw [decide_eq_true_eq]
      omega

/-- A log after a torn append decodes to what it did before, and then to the new event if that is
    complete. -/
theorem decoded_torn [StackRoom] (content : Bytes) {e : Event}
    (h : (Double.ofInt e.time).isFinite = true) (k : Nat) :
    decoded (torn content e k) =
      decoded content ++ (if isComplete content e k then [e.stored] else []) := by
  rcases torn_cases content e k with ⟨htorn, hcut⟩ | ⟨j, htorn, hcomplete⟩
  · rw [htorn, hcut]
    exact (List.append_nil _).symm
  · rw [htorn, decoded_repair, (cut_bytes h j).1]
    simp only [hcomplete]

theorem isReadable_torn [StackRoom] {content : Bytes} (hreadable : isReadable content = true)
    {e : Event} (h : (Double.ofInt e.time).isFinite = true) (k : Nat) :
    isReadable (torn content e k) = true := by
  rcases torn_cases content e k with ⟨htorn, -⟩ | ⟨j, htorn, -⟩
  · rw [htorn, hreadable]
  · rw [htorn, isReadable_repair]
    exact ⟨hreadable, (cut_bytes h j).2⟩

end Log

namespace Store

variable {s : Store} {known : KnownLayouts} {content : Bytes}

/-! ## Loading a log after a torn append -/

/-- The choices that are recorded with an event that its line holds exactly and that loading takes
    up again. -/
structure Recordable (known : KnownLayouts) (now : Int) (windowClass layoutId : Text) : Prop where
  class_ne_nil : windowClass ≠ []
  time : (Double.ofInt now).isFinite = true
  hasPair : layoutId.hasPair = false
  knows : known.knows layoutId = true

/-- A log after a torn append gives the events from before, and the new one if it is complete. -/
theorem Follows.events_torn [StackRoom] (h : s.Follows known (some content)) {e : Event}
    (hstorable : e.Storable) (hknows : known.knows e.layoutId = true)
    (hlatest : ∀ old ∈ s.events, old.time ≤ e.time) (k : Nat) :
    known.eventsOf (some (Log.torn content e k)) =
      s.events ++ (if Log.isComplete content e k then [e] else []) := by
  have hdecoded := Log.decoded_torn content hstorable.time k
  rw [hstorable.stored_eq] at hdecoded
  cases hcomplete : Log.isComplete content e k with
  | true =>
    -- the complete log decodes to the same
    have happend := (h.withEvent hstorable hknows hlatest).events
    have hevents : (s.withEvent e).events = s.events ++ [e] := rfl
    rw [hcomplete, if_pos rfl] at hdecoded
    rw [KnownLayouts.eventsOf, Option.getD_some, Option.getD_some, Log.decoded_append,
      hstorable.decoded?, Option.toList_some, hevents] at happend
    rw [KnownLayouts.eventsOf, Option.getD_some, hdecoded, if_pos rfl, happend]
  | false =>
    rw [hcomplete, if_neg Bool.false_ne_true, List.append_nil] at hdecoded
    rw [KnownLayouts.eventsOf, Option.getD_some, hdecoded, if_neg Bool.false_ne_true,
      List.append_nil, h.events, KnownLayouts.eventsOf, Option.getD_some]

theorem loadError?_of_readable [StackRoom] {files : FileTree}
    (hlog : files.log? s.path = some content)
    (hreadable : Log.isReadable content = true) (hknown : known.error? = none) :
    s.loadError? files known = none := by
  obtain ⟨hholds, hread⟩ := holds_of_log? hlog
  unfold loadError?
  rw [hholds, readEvents_of_read? hread, Log.read_events hreadable, hknown]

/-- Loading a log that is there and can be read, and that is not too long, takes up its events. -/
theorem load_short [StackRoom] {files : FileTree} (hlog : files.log? s.path = some content)
    (hreadable : Log.isReadable content = true) (hknown : known.error? = none)
    (hshort : ((known.eventsOf (some content)).length : Int) ≤ s.threshold) :
    (s.load files known).store = s.taken known (some content) ∧
      (s.load files known).files = files ∧ (s.load files known).result = .ok () := by
  have hresult : (s.load files known).result = .ok () := by
    obtain ⟨hholds, -⟩ := holds_of_log? hlog
    rw [load, hholds]
    exact s.result_takeRead _ _ _ _
  rcases load_cases (FileTree.isLog_of_log? hlog) hreadable hknown with
    ⟨hstore, hfiles⟩ | ⟨hlong, -, -⟩
  · exact ⟨hstore, hfiles, hresult⟩
  · exact absurd hlong (Int.not_lt.mpr hshort)

/-- The store that has loaded a log follows it, and the log stays where it is. -/
theorem load_follows [StackRoom] {files : FileTree} (hlog : files.log? s.path = some content)
    (hreadable : Log.isReadable content = true) (hknown : known.error? = none)
    (hshort : ((known.eventsOf (some content)).length : Int) ≤ s.threshold) :
    let loaded := s.load files known
    loaded.result = .ok () ∧ loaded.store.path = s.path ∧
      loaded.files.log? s.path = some content ∧
      loaded.store.Follows known (some content) := by
  intro loaded
  obtain ⟨hstore, hfiles, hresult⟩ := load_short hlog hreadable hknown hshort
  refine ⟨hresult, ?_, ?_, ?_⟩
  · rw [hstore]
    rfl
  · rw [hfiles]
    exact hlog
  · rw [hstore]
    exact s.follows_taken known hreadable

/-- Recording a choice in a log that is there appends its event to the log and to the store. It ends
    well if the number of the window can be shown. -/
theorem Follows.select_recordable [StackRoom] (h : s.Follows known (some content))
    {files : FileTree}
    (hlog : files.log? s.path = some content) {now : Int} {windowClass layoutId : Text}
    (hchoice : Recordable known now windowClass layoutId) (windowId : Int) (title : Text) :
    let e := s.nextEvent now windowClass title layoutId
    let recorded := s.select files now windowId windowClass title layoutId
    (recorded.result = .ok () ↔ Numeral.isShowable windowId = true) ∧
      recorded.store.path = s.path ∧ recorded.store.events = s.events ++ [e] ∧
      recorded.files.log? s.path = some (Log.append content e) ∧
      recorded.store.Follows known (some (Log.append content e)) := by
  intro e recorded
  have hclass : windowClass.isEmpty = false := List.isEmpty_eq_false_iff.mpr hchoice.class_ne_nil
  obtain ⟨hstore, hresult, -, his⟩ :=
    select_spec (FileTree.isLog_of_log? hlog) now windowId title layoutId hclass
  have hstorable : e.Storable := h.storable_nextEvent hchoice.time hchoice.hasPair windowClass title
  have hgrown : Log.grown (some content) e (.ok ()) = some (Log.append content e) :=
    Log.grown_of_isShowable hstorable.isShowable (some content)
  rw [FileTree.allows_of_log? hlog] at hstore hresult his
  rw [Event.written_of_isShowable hstorable.isShowable] at hstore hresult
  rw [hgrown] at his
  have hfollows : recorded.store.Follows known (some (Log.append content e)) := by
    rw [hstore, ← hgrown]
    exact h.chosen hstorable hchoice.knows (fun old => h.le_nextTime now) windowId (.ok ())
  have hreported : recorded.result = Store.recorded windowId (.ok ()) := hresult
  refine ⟨by rw [hreported, recorded_ok_iff], ?_, ?_, his.now, hfollows⟩
  · rw [hstore, path_chosen]
  · rw [hstore]
    rfl

/-- An append may be cut short at any byte: a store that loads the log then has the events from
    before, followed by the new one exactly if the JSON text of its line is complete. What that
    store records next is appended, and loading once more gives all of it. -/
theorem recovers_torn_append [StackRoom] {files : FileTree}
    (hlog : files.log? s.path = some content) (hload : s.loadError? files known = none)
    (hshort : ((known.eventsOf (some content)).length : Int) ≤ s.threshold) {now : Int}
    {windowClass layoutId : Text} (hchoice : Recordable known now windowClass layoutId)
    (windowId : Int) (title : Text) :
    let loaded := s.load files known
    let e := loaded.store.nextEvent now windowClass title layoutId
    let recorded := loaded.store.select loaded.files now windowId windowClass title layoutId
    recorded.files.log? s.path = some (content ++ Log.appended content e) ∧
    ∀ (k : Nat) (torn : FileTree) (fresh : Store),
      torn.log? fresh.path = some (content ++ (Log.appended content e).take k) →
      let events := loaded.store.events ++ (if Log.isComplete content e k then [e] else [])
      (events.length : Int) ≤ fresh.threshold →
      let reloaded := fresh.load torn known
      reloaded.result = .ok () ∧ fresh.loadError? torn known = none ∧
      reloaded.store.events = events ∧
      ∀ (now₂ windowId₂ : Int) (class₂ title₂ layoutId₂ : Text),
        Recordable known now₂ class₂ layoutId₂ →
        let e₂ := reloaded.store.nextEvent now₂ class₂ title₂ layoutId₂
        let again := reloaded.store.select reloaded.files now₂ windowId₂ class₂ title₂ layoutId₂
        (again.result = .ok () ↔ Numeral.isShowable windowId₂ = true) ∧
        again.store.events = events ++ [e₂] ∧
        ∀ last : Store, last.path = fresh.path →
          ((events ++ [e₂]).length : Int) ≤ last.threshold →
          (last.load again.files known).store.events = events ++ [e₂] := by
  intro loaded e recorded
  obtain ⟨hreadable, hknown⟩ := taken?_of_loadError? hlog hload
  obtain ⟨-, hpath, hstays, hfollows⟩ := load_follows hlog hreadable hknown hshort
  have hstorable : e.Storable :=
    hfollows.storable_nextEvent hchoice.time hchoice.hasPair windowClass title
  refine ⟨?_, ?_⟩
  · rw [← hpath] at hstays
    obtain ⟨-, -, -, hwritten, -⟩ := hfollows.select_recordable hstays hchoice windowId title
    rw [hpath] at hwritten
    exact hwritten
  · intro k torn fresh htorn events hfew reloaded
    -- the store that loads what the crash left
    change torn.log? fresh.path = some (Log.torn content e k) at htorn
    have hevents : known.eventsOf (some (Log.torn content e k)) = events :=
      hfollows.events_torn hstorable hchoice.knows (fun old => hfollows.le_nextTime now) k
    have hagain : Log.isReadable (Log.torn content e k) = true :=
      Log.isReadable_torn hreadable hstorable.time k
    rw [← hevents] at hfew
    obtain ⟨hresult, hsame, hkept, hreloaded⟩ := load_follows htorn hagain hknown hfew
    have hheld : reloaded.store.events = events := by
      rw [hreloaded.events, hevents]
    refine ⟨hresult, loadError?_of_readable htorn hagain hknown, hheld, ?_⟩
    -- what it records, and the store that loads that
    intro now₂ windowId₂ class₂ title₂ layoutId₂ hchoice₂ e₂ again
    rw [← hsame] at hkept
    obtain ⟨hrecorded, -, hadded, hwritten, hfollows₂⟩ :=
      hreloaded.select_recordable hkept hchoice₂ windowId₂ title₂
    rw [hheld] at hadded
    refine ⟨hrecorded, hadded, ?_⟩
    intro last hlast hfew₂
    have hgives :
        known.eventsOf (some (Log.append (Log.torn content e k) e₂)) = events ++ [e₂] := by
      rw [← hfollows₂.events]
      exact hadded
    rw [hsame, ← hlast] at hwritten
    rw [← hgives] at hfew₂
    obtain ⟨-, -, -, hlastFollows⟩ := load_follows hwritten hfollows₂.readable hknown hfew₂
    rw [hlastFollows.events, hgives]

/-! ## A broken line and an append that was cut short -/

/-- A log that ends with a broken line. -/
def brokenLog : Bytes := [0x7B]

theorem eventsOf_brokenLog : KnownLayouts.all.eventsOf (some brokenLog) = [] := by
  have hdecoded : Log.decoded brokenLog = [] := rfl
  rw [KnownLayouts.eventsOf, Option.getD_some, hdecoded, KnownLayouts.select_eq_filter]
  exact List.mergeSort_nil

theorem isReadable_brokenLog : Log.isReadable brokenLog = true := rfl

/-- The event that was being recorded. -/
def cutEvent : Event := ⟨5, hashText (text "c"), hashText (text "t"), text "l"⟩

/-- Files with what the crash left of the log. -/
def tornFiles : FileTree := filesWith (Log.torn brokenLog cutEvent 20)

/-- The store and the files once what was left is loaded. -/
def reloaded : Outcome (Except FileFailure Unit) := plainStore.load tornFiles .all

theorem recordable_plain {layoutId : Text} (h : layoutId.hasPair = false) :
    Recordable .all 5 (text "c") layoutId :=
  ⟨by decide, by decide +kernel, h, rfl⟩

theorem nextEvent_of_nil (h : s.events = []) (now : Int) (windowClass title layoutId : Text) :
    s.nextEvent now windowClass title layoutId =
      ⟨now, hashText windowClass, hashText title, layoutId⟩ := by
  unfold nextEvent nextTime
  rw [h]
  rfl

theorem recovers_torn_append_brokenLog :
    reloaded.store.events = [] ∧
      (plainStore.load (reloaded.store.select reloaded.files 5 1 (text "c") (text "t")
        (text "m")).files .all).store.events =
          [⟨5, hashText (text "c"), hashText (text "t"), text "m"⟩] := by
  have hlog := log?_filesWith brokenLog
  have hfew :
      ((KnownLayouts.all.eventsOf (some brokenLog)).length : Int) ≤ plainStore.threshold := by
    rw [eventsOf_brokenLog]
    decide
  obtain ⟨hstore, -, -⟩ := load_short hlog isReadable_brokenLog rfl hfew
  have hevents : (plainStore.taken .all (some brokenLog)).events = [] := eventsOf_brokenLog
  have hnext : (plainStore.taken .all (some brokenLog)).nextEvent 5 (text "c") (text "t")
      (text "l") = cutEvent := nextEvent_of_nil hevents _ _ _ _
  have hcut : Log.isComplete brokenLog cutEvent 20 = false := by decide +kernel
  have hplain : (text "l").hasPair = false := by decide
  obtain ⟨-, htorn⟩ := recovers_torn_append hlog
    (loadError?_of_readable hlog isReadable_brokenLog rfl) hfew
    (recordable_plain hplain) 1 (text "t")
  have hreload := htorn 20 tornFiles plainStore
  rw [hstore, hnext, hevents, hcut] at hreload
  obtain ⟨-, -, hnothing, hagain⟩ := hreload (log?_filesWith _) (by decide)
  obtain ⟨-, -, hlast⟩ := hagain 5 1 (text "c") (text "t") (text "m") (recordable_plain (by decide))
  have hfirst : reloaded.store.nextEvent 5 (text "c") (text "t") (text "m") =
      ⟨5, hashText (text "c"), hashText (text "t"), text "m"⟩ := nextEvent_of_nil hnothing _ _ _ _
  refine ⟨hnothing, ?_⟩
  rw [← hfirst]
  exact hlast plainStore rfl (by decide)

end Store

end WindowLayouts
