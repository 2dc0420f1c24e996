import WindowLayouts.Proofs.Files
import WindowLayouts.Proofs.LogLines
import WindowLayouts.History.Loading
import WindowLayouts.History.Recording

/- The log of a store. What appending, compacting and loading do is told here by the content of the
   log alone, without the files around it.

     `Store.appendToLog_spec`    the log has one event more, or the system refused
     `Store.compact_spec`        the log holds what is kept, or nothing happened
     `Store.load_spec`           the store takes up what the log decodes to, or is empty -/
namespace WindowLayouts

/-- What a log holds once one more event was to be appended, where that was allowed or not. If the
    event cannot be written the log was opened all the same. -/
def Log.grown (content : Option Bytes) (e : Event) : Except FileFailure Unit → Option Bytes
  | .ok () =>
    some (if Numeral.isShowable e.time then Log.append (content.getD []) e else content.getD [])
  | .error _ => content

/-- Whether an event is appended, where that is allowed or not. -/
def Event.written (e : Event) : Except FileFailure Unit → Except FileFailure Unit
  | .ok () => if Numeral.isShowable e.time then .ok () else .error (.unshowable .tooLong)
  | .error reason => .error reason

theorem Event.written_of_isShowable {e : Event} (h : Numeral.isShowable e.time = true)
    (allowed : Except FileFailure Unit) : e.written allowed = allowed := by
  cases allowed with
  | error reason => rfl
  | ok done => exact if_pos h

theorem Log.grown_of_isShowable {e : Event} (h : Numeral.isShowable e.time = true)
    (content : Option Bytes) :
    Log.grown content e (.ok ()) = some (Log.append (content.getD []) e) :=
  congrArg some (if_pos h)

/-- The log decodes to what it did before, and to an event that was appended. -/
theorem Log.decoded_grown [StackRoom] (content : Option Bytes) (e : Event)
    (allowed : Except FileFailure Unit) :
    Log.decoded ((Log.grown content e allowed).getD []) =
      Log.decoded (content.getD []) ++
        ((e.written allowed).toOption.bind fun _ => e.decoded?).toList := by
  cases allowed with
  | error reason => exact (List.append_nil _).symm
  | ok done =>
    cases hshowable : Numeral.isShowable e.time with
    | true =>
      rw [grown_of_isShowable hshowable, Event.written_of_isShowable hshowable, Option.getD_some,
        Log.decoded_append, Except.toOption, Option.bind_some]
    | false =>
      rw [grown, Event.written, hshowable]
      exact (List.append_nil _).symm

theorem Event.Storable.isShowable {e : Event} (h : e.Storable) :
    Numeral.isShowable e.time = true := by
  rw [Numeral.isShowable, decide_eq_true_eq]
  exact Numeral.length_ofNat_le h.time

namespace Store

open FileTree

/-! ## Appending and replacing -/

theorem appendToLog_eq [StackRoom] (s : Store) (files : FileTree) (e : Event) :
    s.appendToLog files e =
      match (files.makeDirectories s.path.parent).2 with
      | .error reason => (files.madeAbove s.path, .error reason)
      | .ok () =>
        match (files.madeAbove s.path).write s.path
            ((Log.grown ((files.madeAbove s.path).read? s.path) e (.ok ())).getD []) with
        | .ok written => (written, e.written (.ok ()))
        | .error reason => (files.madeAbove s.path, .error reason) := by
  unfold appendToLog madeAbove
  rcases files.makeDirectories s.path.parent with ⟨made, reason | _⟩
  · rfl
  · unfold Event.lineAfter Event.written Log.grown
    dsimp only
    cases Numeral.isShowable e.time with
    | true => rfl
    | false =>
      simp only [Bool.false_eq_true, if_false, Except.toOption, Option.getD_none, List.append_nil]
      rfl

/-- What appending leaves behind: the log with one more event if the system allows writing it and
    the event can be written, and the log as it was otherwise. -/
theorem appendToLog_spec [StackRoom] {s : Store} {files : FileTree} {content : Option Bytes}
    (h : files.IsLog s.path content) (e : Event) :
    ∃ files', s.appendToLog files e = (files', e.written (files.allows s.path)) ∧
      files'.allows s.path = files.allows s.path ∧
      files'.IsLog s.path (Log.grown content e (files.allows s.path)) := by
  rw [appendToLog_eq]
  -- the directories above cannot be made, or the log cannot be written, or both can
  rcases allows_cases files s.path with
    ⟨reason, hallows, hmade⟩ | ⟨reason, hallows, hmade, herror⟩ | ⟨hallows, hmade, hok⟩
  · rw [hmade, hallows]
    exact ⟨_, rfl, (allows_madeAbove files s.path).trans hallows, h.madeAbove⟩
  · rw [hmade, hallows]
    dsimp only
    rw [herror]
    exact ⟨_, rfl, (allows_madeAbove files s.path).trans hallows, h.madeAbove⟩
  · obtain ⟨written, hwritten⟩ :=
      hok ((Log.grown ((files.madeAbove s.path).read? s.path) e (.ok ())).getD [])
    obtain ⟨his, hagain⟩ := isLog_of_write hmade hwritten
    have hread : (files.madeAbove s.path).read? s.path = content := by
      rw [← log?_of_write hwritten, h.made]
    rw [hmade, hallows]
    dsimp only
    rw [hwritten]
    rw [hread] at his
    exact ⟨written, rfl, hagain, his⟩

theorem replaceLog_eq [StackRoom] (s : Store) (files : FileTree) (content : Bytes) :
    s.replaceLog files content =
      match (files.makeDirectories s.path.parent).2 with
      | .error reason => (files.madeAbove s.path, .error reason)
      | .ok () =>
        match (s.temporaryPath (files.madeAbove s.path)).fault? with
        | some fault => (files.madeAbove s.path, .error (.name fault))
        | none =>
          if isNameTooLong (temporaryName s.path.name) ||
              (s.temporaryPath (files.madeAbove s.path)).isTooLong then
            (files.madeAbove s.path, .error .system)
          else match (files.madeAbove s.path).write s.path content with
            | .error reason => (files.madeAbove s.path, .error reason)
            | .ok replaced => (replaced, .ok ()) := by
  unfold replaceLog madeAbove
  rcases files.makeDirectories s.path.parent with ⟨made, reason | _⟩ <;> rfl

/-- What replacing leaves behind: the new log, or the files with no more than directories made. -/
theorem replaceLog_spec [StackRoom] (s : Store) (files : FileTree) (new : Bytes) :
    (∃ files', s.replaceLog files new = (files', .ok ()) ∧
      files'.allows s.path = files.allows s.path ∧ files'.IsLog s.path (some new)) ∨
    (∃ reason, s.replaceLog files new = (files.madeAbove s.path, .error reason)) := by
  rw [replaceLog_eq]
  cases hmade : (files.makeDirectories s.path.parent).2 with
  | error reason => exact Or.inr ⟨reason, rfl⟩
  | ok done =>
    dsimp only
    split
    · exact Or.inr ⟨_, rfl⟩
    · split
      · exact Or.inr ⟨_, rfl⟩
      · cases hwritten : (files.madeAbove s.path).write s.path new with
        | error reason => exact Or.inr ⟨reason, rfl⟩
        | ok replaced =>
          obtain ⟨his, hagain⟩ := isLog_of_write hmade hwritten
          refine Or.inl ⟨replaced, rfl, ?_, his⟩
          rcases allows_cases files s.path with
            ⟨reason, -, hrefused⟩ | ⟨reason, -, -, herror⟩ | ⟨hallows, -, -⟩
          · rw [hmade] at hrefused
            cases hrefused
          · rw [herror] at hwritten
            cases hwritten
          · rw [hagain, hallows]

/-! ## Recording -/

/-- A store that remembers a choice, with its event if that could be appended. -/
def chosen (s : Store) (windowId : Int) (e : Event) : Except FileFailure Unit → Store
  | .ok () => (s.remembering windowId e.layoutId).withEvent e
  | .error _ => s.remembering windowId e.layoutId

theorem path_chosen (s : Store) (windowId : Int) (e : Event) (allowed : Except FileFailure Unit) :
    (s.chosen windowId e allowed).path = s.path := by
  cases allowed <;> rfl

theorem session_chosen (s : Store) (windowId : Int) (e : Event)
    (allowed : Except FileFailure Unit) :
    (s.chosen windowId e allowed).session = Keyed.set windowId e.layoutId s.session := by
  cases allowed <;> rfl

/-- What becomes of recording a choice: a refusal of the system goes no further, and what was
    recorded has to be reported. -/
def recorded (windowId : Int) : Except FileFailure Unit → Except RecordingFailure Unit
  | .error .system => .ok ()
  | .error reason => .error (.log reason)
  | .ok () => ((Numeral.shown windowId).map fun _ => ()).mapError .report

theorem recorded_ok_iff (windowId : Int) :
    recorded windowId (.ok ()) = .ok () ↔ Numeral.isShowable windowId = true := by
  rw [recorded, Numeral.shown]
  cases Numeral.isShowable windowId with
  | true => exact iff_of_true rfl rfl
  | false =>
    constructor
    · intro h
      cases h
    · intro h
      cases h

/-- What is published of a choice: only an event that was appended, and could be reported. -/
def announced (s : Store) (windowId : Int) (e : Event) : Except FileFailure Unit → List Message
  | .error _ => []
  | .ok () =>
    if s.onBus && Numeral.isShowable windowId then
      [.layoutRecorded e.layoutId e.classHash e.titleHash]
    else []

/-- What an append decides about a choice. -/
theorem afterAppend_spec (s : Store) (windowId : Int) (e : Event) {said : Trace}
    (hsaid : said.messages = []) (appended : FileTree × Except FileFailure Unit) :
    let o := s.afterAppend windowId e said appended
    o.result = recorded windowId appended.2 ∧ o.store = s.chosen windowId e appended.2 ∧
      o.files = appended.1 ∧ o.trace.messages = s.announced windowId e appended.2 := by
  obtain ⟨left, (_ | fault | _ | reason) | _⟩ := appended
  · exact ⟨rfl, rfl, rfl, by simp [afterAppend, announced, Trace.messages_append, hsaid]⟩
  · exact ⟨rfl, rfl, rfl, hsaid⟩
  · exact ⟨rfl, rfl, rfl, hsaid⟩
  · exact ⟨rfl, rfl, rfl, hsaid⟩
  · cases hshowable : Numeral.isShowable windowId with
    | true =>
      have hshown := Numeral.shown_of_isShowable hshowable
      simp [afterAppend, recordedTrace, recorded, announced, chosen, hshown, hshowable, Except.map,
        Except.mapError, Trace.messages_append, hsaid]
    | false =>
      have hshown := Numeral.shown_of_not_isShowable hshowable
      simp [afterAppend, recordedTrace, recorded, announced, chosen, hshown, hshowable, Except.map,
        Except.mapError, hsaid]

theorem select_of_isEmpty [StackRoom] (s : Store) (files : FileTree) (now windowId : Int)
    {windowClass : Text} (title layoutId : Text) (h : windowClass.isEmpty = true) :
    (s.select files now windowId windowClass title layoutId).store = s ∧
      (s.select files now windowId windowClass title layoutId).files = files ∧
      (s.select files now windowId windowClass title layoutId).result = .ok () := by
  unfold select
  rw [if_pos h]
  exact ⟨rfl, rfl, rfl⟩

/-- What recording a choice comes to for a window with a class: the outcome of the append
    decides. -/
theorem select_of_named [StackRoom] (s : Store) (files : FileTree) (now windowId : Int)
    {windowClass : Text} (title layoutId : Text) (hclass : windowClass.isEmpty = false) :
    let o := s.select files now windowId windowClass title layoutId
    let e := s.nextEvent now windowClass title layoutId
    o.result = recorded windowId (s.appendToLog files e).2 ∧
      o.store = s.chosen windowId e (s.appendToLog files e).2 ∧
      o.files = (s.appendToLog files e).1 ∧
      o.trace.messages = s.announced windowId e (s.appendToLog files e).2 := by
  intro o e
  have ho : o = s.afterAppend windowId e (hashTrace windowClass ++ hashTrace title)
      (s.appendToLog files e) := if_neg (by simp [hclass])
  rw [ho]
  exact s.afterAppend_spec windowId e (by simp [Trace.messages_append]) _

/-- What recording a choice leaves behind is decided by whether the system allows writing, and by
    whether the event can be written. -/
theorem select_spec [StackRoom] {s : Store} {files : FileTree} {content : Option Bytes}
    (h : files.IsLog s.path content) (now windowId : Int) {windowClass : Text}
    (title layoutId : Text) (hclass : windowClass.isEmpty = false) :
    let o := s.select files now windowId windowClass title layoutId
    let e := s.nextEvent now windowClass title layoutId
    o.store = s.chosen windowId e (e.written (files.allows s.path)) ∧
      o.result = recorded windowId (e.written (files.allows s.path)) ∧
      o.files.allows s.path = files.allows s.path ∧
      o.files.IsLog s.path (Log.grown content e (files.allows s.path)) := by
  intro o e
  obtain ⟨files', happend, hallows, his⟩ := appendToLog_spec h e
  obtain ⟨hresult, hstore, hfiles, -⟩ := s.select_of_named files now windowId title layoutId hclass
  rw [happend] at hresult hstore hfiles
  have hleft : o.files = files' := hfiles
  rw [hleft]
  exact ⟨hstore, hresult, hallows, his⟩

/-! ## Compacting -/

/-- What a compaction does: the log and the store become what is kept, or nothing happens but that
    directories are made. -/
theorem compact_spec [StackRoom] (s : Store) (files : FileTree) :
    ((s.compact files).result = true ∧ (s.compact files).store = s.withEvents s.kept ∧
      (s.compact files).files.allows s.path = files.allows s.path ∧
      (s.compact files).files.IsLog s.path (some (Log.ofEvents s.kept))) ∨
    ((s.compact files).result = false ∧ (s.compact files).store = s ∧
      (s.compact files).files = files.madeAbove s.path) := by
  unfold compact compacted
  dsimp only
  rcases s.replaceLog_spec files (Log.ofEvents s.kept) with
    ⟨files', hresult, hallows, his⟩ | ⟨reason, hresult⟩
  · rw [hresult]
    exact Or.inl ⟨rfl, rfl, hallows, his⟩
  · rw [hresult]
    exact Or.inr ⟨rfl, rfl, rfl⟩

theorem allows_compact [StackRoom] (s : Store) (files : FileTree) :
    (s.compact files).files.allows s.path = files.allows s.path := by
  rcases s.compact_spec files with ⟨-, -, hallows, -⟩ | ⟨-, -, hfiles⟩
  · exact hallows
  · rw [hfiles, allows_madeAbove]

theorem temporaryPath_congr (s : Store) {files files' : FileTree}
    (h : files'.workingDirectory = files.workingDirectory) :
    s.temporaryPath files' = s.temporaryPath files := by
  unfold temporaryPath
  rw [h]

theorem store_compact [StackRoom] (s : Store) (files : FileTree) :
    (s.compact files).store =
      match (s.replaceLog files (Log.ofEvents s.kept)).2 with
      | .ok () => s.withEvents s.kept
      | .error _ => s := by
  unfold compact compacted
  dsimp only
  rcases s.replaceLog files (Log.ofEvents s.kept) with ⟨files', reason | _⟩ <;> rfl

theorem session_compact [StackRoom] (s : Store) (files : FileTree) :
    (s.compact files).store.session = s.session := by
  rw [store_compact]
  split <;> rfl

/-! ## Loading -/

/-- Why loading gives up on a log that is there, if it does. -/
def loadError? [StackRoom] (s : Store) (files : FileTree) (known : KnownLayouts) :
    Option LoadError :=
  match files.holds s.path, (s.readEvents files known).2 with
  | .ok true, .error reason => some reason
  | _, _ => none

end Store

namespace KnownLayouts

/-- The events that are taken up of a log, unless there is none or it cannot be loaded. -/
def taken? [StackRoom] (known : KnownLayouts) : Option Bytes → Option (List Event)
  | none => none
  | some content =>
    if Log.isReadable content && known.error?.isNone then
      some ((known.select (Log.decoded content)).mergeSort Event.notAfter)
    else none

theorem taken?_of_readable [StackRoom] {known : KnownLayouts} {content : Bytes}
    (h : Log.isReadable content = true) (hknown : known.error? = none) :
    known.taken? (some content) =
      some ((known.select (Log.decoded content)).mergeSort Event.notAfter) := by
  rw [taken?, h, hknown]
  rfl

theorem taken?_of_not_readable [StackRoom] (known : KnownLayouts) {content : Bytes}
    (h : Log.isReadable content = false) : known.taken? (some content) = none := by
  rw [taken?, h]
  rfl

theorem taken?_of_error [StackRoom] {known : KnownLayouts} {error : LoadError} (content : Bytes)
    (h : known.error? = some error) : known.taken? (some content) = none := by
  rw [taken?, h, Option.isNone_some, Bool.and_false]
  rfl

end KnownLayouts

namespace Store

/-- Taking up events and then compacting if there are more than the threshold. -/
def takeUp [StackRoom] (s : Store) (files : FileTree) (events : List Event) : Store × FileTree :=
  let taken := s.reset.withEvents events
  if s.threshold < events.length then ((taken.compact files).store, (taken.compact files).files)
  else (taken, files)

theorem holds_of_log? {files : FileTree} {p : Path} {content : Bytes}
    (h : files.log? p = some content) :
    files.holds p = .ok true ∧ files.read? p = some content := by
  unfold FileTree.log? at h
  split at h
  · cases h
  · rename_i hfault
    unfold FileTree.holds
    rw [if_neg hfault]
    unfold FileTree.read? at h ⊢
    cases hfound : files.lookup p with
    | file place old =>
      rw [hfound] at h
      exact ⟨rfl, h⟩
    | _ =>
      rw [hfound] at h
      cases h

theorem read?_of_holds {files : FileTree} {p : Path} (hholds : files.holds p = .ok true)
    (h : files.log? p = none) : files.read? p = none := by
  unfold FileTree.holds at hholds
  unfold FileTree.log? at h
  split at hholds
  · cases hholds
  · rename_i hfault
    rw [if_neg hfault] at h
    exact h

theorem readEvents_of_read? [StackRoom] {s : Store} {files : FileTree} {content : Bytes}
    (h : files.read? s.path = some content) (known : KnownLayouts) :
    (s.readEvents files known).2 =
      match (Log.read content).events, known.error? with
      | .error reason, _ => .error (.line reason)
      | .ok _, some error => .error error
      | .ok events, none => .ok events := by
  cases hevents : (Log.read content).events with
  | error reason => simp only [readEvents, h, hevents]
  | ok events => cases hknown : known.error? <;> simp only [readEvents, h, hevents, hknown]

/-- Taking up what was read always comes to its end. -/
theorem result_takeRead (s : Store) (compacting : Store → FileTree → Outcome Bool)
    (files : FileTree) (known : KnownLayouts) (read : Trace × Except LoadError (List Event)) :
    (s.takeRead compacting files known read).result = .ok () := by
  rcases read with ⟨said, reason | events⟩
  · rfl
  · unfold takeRead compactIfLong
    dsimp only
    split <;> rfl

theorem loadLog_of_error [StackRoom] {s : Store} {files : FileTree} {known : KnownLayouts}
    {reason : LoadError} (h : (s.readEvents files known).2 = .error reason) :
    ((s.loadLog files known).store, (s.loadLog files known).files) = (s.reset, files) := by
  unfold loadLog
  rcases hread : s.readEvents files known with ⟨said, result⟩
  rw [hread] at h
  obtain rfl : result = .error reason := h
  rfl

theorem loadLog_of_ok [StackRoom] {s : Store} {files : FileTree} {known : KnownLayouts}
    {events : List Event} (h : (s.readEvents files known).2 = .ok events) :
    ((s.loadLog files known).store, (s.loadLog files known).files) =
      s.takeUp files ((known.select events).mergeSort Event.notAfter) := by
  unfold loadLog
  rcases hread : s.readEvents files known with ⟨said, result⟩
  rw [hread] at h
  obtain rfl : result = .ok events := h
  unfold takeUp takeRead compactIfLong commit
  dsimp only
  split
  · rename_i hlong
    exact (if_pos hlong).symm
  · rename_i hlong
    exact (if_neg hlong).symm

theorem loadLog_spec [StackRoom] {s : Store} {files : FileTree} {content : Bytes}
    (h : files.read? s.path = some content) (known : KnownLayouts) :
    ((s.loadLog files known).store, (s.loadLog files known).files) =
      match known.taken? (some content) with
      | none => (s.reset, files)
      | some events => s.takeUp files events := by
  have hevents := readEvents_of_read? h known
  cases hreadable : Log.isReadable content with
  | false =>
    obtain ⟨reason, hreason⟩ := Log.read_events_error hreadable
    rw [hreason] at hevents
    rw [KnownLayouts.taken?_of_not_readable known hreadable]
    exact loadLog_of_error hevents
  | true =>
    rw [Log.read_events hreadable] at hevents
    cases herror : known.error? with
    | some error =>
      rw [herror] at hevents
      rw [KnownLayouts.taken?_of_error content herror]
      exact loadLog_of_error hevents
    | none =>
      rw [herror] at hevents
      rw [KnownLayouts.taken?_of_readable hreadable herror]
      exact loadLog_of_ok hevents

/-- What loading leaves behind depends on the log alone. -/
theorem load_spec [StackRoom] (s : Store) (files : FileTree) (known : KnownLayouts) :
    ((s.load files known).store, (s.load files known).files) =
      match known.taken? (files.log? s.path) with
      | none => (s.reset, files)
      | some events => s.takeUp files events := by
  unfold load
  cases hlog : files.log? s.path with
  | some content =>
    obtain ⟨hholds, hread⟩ := holds_of_log? hlog
    rw [hholds]
    exact loadLog_spec hread known
  | none =>
    cases hholds : files.holds s.path with
    | error reason => rfl
    | ok there =>
      cases there with
      | false => rfl
      | true =>
        -- something is there that cannot be read, such as a directory
        have hread := read?_of_holds hholds hlog
        have hsystem : (s.readEvents files known).2 = .error .system := by
          unfold readEvents
          rw [hread]
        exact loadLog_of_error hsystem

/-- Loading does not change what the system allows. -/
theorem allows_load [StackRoom] (s : Store) (files : FileTree) (known : KnownLayouts) :
    (s.load files known).files.allows s.path = files.allows s.path := by
  have hload := s.load_spec files known
  split at hload
  · rw [(Prod.mk.inj hload).2]
  · rename_i events _
    unfold takeUp at hload
    dsimp only at hload
    split at hload
    · rw [(Prod.mk.inj hload).2]
      exact (s.reset.withEvents events).allows_compact files
    · rw [(Prod.mk.inj hload).2]

/-- A log that was there and loaded without giving up could be read. -/
theorem taken?_of_loadError? [StackRoom] {s : Store} {files : FileTree} {known : KnownLayouts}
    {content : Bytes}
    (hlog : files.log? s.path = some content) (h : s.loadError? files known = none) :
    Log.isReadable content = true ∧ known.error? = none := by
  obtain ⟨hholds, hread⟩ := holds_of_log? hlog
  have hevents := readEvents_of_read? hread known
  unfold loadError? at h
  rw [hholds, hevents] at h
  cases hreadable : Log.isReadable content with
  | false =>
    obtain ⟨reason, hreason⟩ := Log.read_events_error hreadable
    rw [hreason] at h
    cases h
  | true =>
    rw [Log.read_events hreadable] at h
    cases herror : known.error? with
    | some error =>
      rw [herror] at h
      cases h
    | none => exact ⟨rfl, rfl⟩

/-- Giving up leaves an empty store and the files as they were. -/
theorem load_of_loadError? [StackRoom] {s : Store} {files : FileTree} {known : KnownLayouts}
    {reason : LoadError} (h : s.loadError? files known = some reason) :
    (s.load files known).store = s.reset ∧ (s.load files known).files = files := by
  unfold loadError? at h
  cases hholds : files.holds s.path with
  | error fault =>
    rw [hholds] at h
    cases h
  | ok there =>
    cases there with
    | false =>
      rw [hholds] at h
      cases h
    | true =>
      rw [hholds] at h
      have hload : s.load files known = s.loadLog files known := by
        rw [load, hholds]
        rfl
      rw [hload]
      cases hread : (s.readEvents files known).2 with
      | ok events =>
        rw [hread] at h
        cases h
      | error other => exact Prod.mk.inj (loadLog_of_error hread)

end Store

end WindowLayouts
