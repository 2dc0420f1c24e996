import WindowLayouts.Proofs.Absorbed

/- Recording a choice is all or nothing, whatever step the system refuses. Without a class nothing
   happens. Else the session remembers the choice, and either the log and the store both have the
   event at their end and one message says so, or the store is without it and nothing is said. What
   may be left of an append that failed are directories on the way to the log, which are made first
   and which nothing takes away, and a beginning of what was to be written: the next event then goes
   on a line of its own.

     `FileTree.OnlyAppends`            one file has more bytes at its end
     `Store.appendBySteps_cases`       an append writes a line, or a beginning of it, or nothing
     `Store.Endures.hasFiniteTimes`    the times of a store at work are ones that a log can keep
     `Store.Ignores`, `FailsToRecord`, `Records`    the outcomes of a choice
     `Store.records_or_not`            every choice has just one of them
     `Store.failed_record_adds`        choices that fail and leave something in the files -/
namespace WindowLayouts

namespace FileTree

/-! ## Files that grow -/

/-- What the file at a place holds, nothing where no file is. -/
def contentAt (t : FileTree) (place : Place) : Bytes :=
  match t.node? place with
  | some (.file content) => content
  | _ => []

theorem contentAt_of_file {t : FileTree} {place : Place} {content : Bytes}
    (h : t.node? place = some (.file content)) : t.contentAt place = content := by
  rw [contentAt, h]

theorem contentAt_of_none {t : FileTree} {place : Place} (h : t.node? place = none) :
    t.contentAt place = [] := by
  rw [contentAt, h]

/-- New directories hold no bytes. -/
theorem OnlyAddsDirectories.contentAt_eq {t t' : FileTree} (h : t.OnlyAddsDirectories t')
    (place : Place) : t'.contentAt place = t.contentAt place := by
  cases hnode : t.node? place with
  | none =>
    rw [contentAt_of_none hnode]
    cases h.added place hnode with
    | inl hnone => exact contentAt_of_none hnone
    | inr hdirectory => rw [contentAt, hdirectory]
  | some node =>
    have hkept := h.kept place node hnode
    rw [contentAt, contentAt, hkept, hnode]

theorem lookup_eq_follow {t : FileTree} {p : Path} (h : t.lookup p ≠ .refused) :
    t.lookup p = t.follow (origin p) p.names := if_neg (isTooLong_of_lookup h)

theorem contentAt_of_lookup_file {t : FileTree} {p : Path} {place : Place} {content : Bytes}
    (h : t.lookup p = .file place content) : t.contentAt place = content := by
  have hfollow := lookup_eq_follow (t := t) (p := p) (by simp [h])
  rw [h] at hfollow
  exact contentAt_of_file (node?_of_follow_file hfollow.symm)

theorem contentAt_of_lookup_absent {t : FileTree} {p : Path} {place : Place}
    (h : t.lookup p = .absent place) : t.contentAt place = [] := by
  have hfollow := lookup_eq_follow (t := t) (p := p) (by simp [h])
  rw [h] at hfollow
  exact contentAt_of_none (node?_of_follow_absent hfollow.symm)

/-- The file that a path leads to is read at its place, and nothing is read where it is absent. -/
theorem read?_of_takes {t : FileTree} {p : Path} {place : Place} (h : takes place (t.lookup p)) :
    (t.read? p).getD [] = t.contentAt place := by
  unfold read?
  cases hfound : t.lookup p with
  | file found content =>
    rw [hfound] at h
    obtain rfl : found = place := h
    exact (contentAt_of_lookup_file hfound).symm
  | absent found =>
    rw [hfound] at h
    obtain rfl : found = place := h
    exact (contentAt_of_lookup_absent hfound).symm
  | _ =>
    rw [hfound] at h
    exact h.elim

/-- The file that a path leads to has more bytes at its end, and began empty if it was not there.
    Whatever else was there is as it was, and what else is new are directories. -/
structure OnlyAppends (t t' : FileTree) (p : Path) (place : Place) (added : Bytes) : Prop where
  found : t'.lookup p = .file place (t.contentAt place ++ added)
  log : ∀ content, t.log? p = some content → t.contentAt place = content
  kept : ∀ other node, other ≠ place → t.node? other = some node → t'.node? other = some node
  added : ∀ other, other ≠ place → t.node? other = none →
    t'.node? other = none ∨ t'.node? other = some .directory

/-- Writing the file at a path, with more at its end, once the directories above it are made. -/
theorem onlyAppends_put [StackRoom] {t : FileTree} {p : Path} {place : Place}
    (h : takes place ((t.madeAbove p).lookup p)) (added : Bytes) :
    t.OnlyAppends ((t.madeAbove p).put place (.file (t.contentAt place ++ added))) p place
      added := by
  have hmade := (t.onlyMakesWay_madeAbove p).nodes
  constructor
  case found => exact lookup_put h _
  case log =>
    intro content hcontent
    -- a log that is there needs no directory made, so the path leads to it as before
    obtain ⟨there, hfault, habove, -, -, -⟩ := log_cases hcontent
    have hread : t.read? p = some content := by
      rw [log?, hfault] at hcontent
      exact hcontent
    rw [habove] at h
    rw [← read?_of_takes h, hread]
    rfl
  case kept =>
    intro other node hother hnode
    rw [node?_put, if_neg (Ne.symm hother)]
    exact hmade.kept other node hnode
  case added =>
    intro other hother hnode
    rw [node?_put, if_neg (Ne.symm hother)]
    exact hmade.added other hnode

end FileTree

namespace Store

open FileTree

variable {s : Store}

/-- Writing a line to the log fails and changes nothing, or the first bytes of it stand at its end,
    and those are all unless the system takes no more. -/
theorem writeMore_cases (s : Store) (refused : Refusals) (files : FileTree)
    (line : Except FileFailure Bytes) :
    (∃ reason, s.writeMore refused files line = (files, .error reason)) ∨
      ∃ place, s.path.fault? = none ∧ takes place (files.lookup s.path) ∧
        s.writeMore refused files line =
          (files.put place (.file (files.contentAt place ++
              (line.toOption.getD []).take
                (refused.appending.getD (line.toOption.getD []).length))),
            line.bind fun _ => if refused.appending.isSome then .error .system else .ok ()) := by
  unfold writeMore
  dsimp only
  rcases files.write_cases s.path with ⟨reason, hwrite⟩ | ⟨place, hfault, htakes, hwrite⟩
  · rw [hwrite]
    exact Or.inl ⟨reason, rfl⟩
  · rw [hwrite, read?_of_takes htakes]
    dsimp only
    split
    · exact Or.inl ⟨.system, rfl⟩
    · exact Or.inr ⟨place, hfault, htakes, rfl⟩

/-- A look at the end of a log that can be written tells of what it holds, if it tells at all. -/
theorem looksMidLine_of_takes {refused : Refusals} {files : FileTree} {place : Place}
    {midLine : Bool} (hfault : s.path.fault? = none) (htakes : takes place (files.lookup s.path))
    (h : s.looksMidLine refused files = .ok midLine) :
    midLine = Log.endsMidLine (files.contentAt place) := by
  rw [← read?_of_takes htakes]
  unfold looksMidLine tells at h
  rw [holds, hfault] at h
  cases hfound : files.lookup s.path with
  | file found content =>
    rw [read?, hfound] at h ⊢
    cases htelling : refused.telling <;> cases hreading : refused.reading <;>
      simp [htelling, hreading] at h ⊢
    exact h.symm
  | absent found =>
    rw [read?, hfound] at h ⊢
    cases htelling : refused.telling <;> simp [htelling] at h ⊢
    exact h
  | _ =>
    rw [hfound] at htakes
    exact htakes.elim

/-- An append writes what makes a line of the event, if that can be written. Or it fails, and then
    it made directories at most, or the system took a beginning of the line. -/
theorem appendBySteps_cases [StackRoom] (s : Store) (refused : Refusals) (files : FileTree)
    {e : Event} (hshowable : Numeral.isShowable e.time = true) :
    (∃ reason, (s.appendBySteps refused files e).2 = .error reason ∧
      (files.OnlyMakesWay (s.appendBySteps refused files e).1 s.path ∨
        refused.appending ≠ none ∧ ∃ place begun,
          begun <+: Log.appended (files.contentAt place) e ∧
            files.OnlyAppends (s.appendBySteps refused files e).1 s.path place begun)) ∨
    ((s.appendBySteps refused files e).2 = .ok () ∧
      ∃ place, files.OnlyAppends (s.appendBySteps refused files e).1 s.path place
        (Log.appended (files.contentAt place) e)) := by
  unfold appendBySteps
  rcases hmakes : files.makeDirectoriesUpTo s.path.parent refused.directories with
    ⟨made, reason | done⟩
  · obtain ⟨n, hn⟩ := files.exists_makeDirectoriesUpTo s.path.parent refused.directories
    have hway := files.onlyMakesWay_makeFrom s.path n
    rw [hmakes] at hn
    obtain rfl : made = _ := hn
    exact Or.inl ⟨reason, rfl, Or.inl hway⟩
  · have hmade : files.madeAbove s.path = made := congrArg Prod.fst (makeDirectoriesUpTo_ok hmakes)
    have hway := files.onlyMakesWay_madeAbove s.path
    rw [hmade] at hway
    dsimp only
    cases hlooks : s.looksMidLine refused made with
    | error reason => exact Or.inl ⟨reason, rfl, Or.inl hway⟩
    | ok midLine =>
      dsimp only
      rcases s.writeMore_cases refused made (e.lineAfter midLine) with
        ⟨reason, hwrite⟩ | ⟨place, hfault, htakes, hwrite⟩
      · rw [hwrite]
        exact Or.inl ⟨reason, rfl, Or.inl hway⟩
      · have hline : e.lineAfter midLine = .ok (Log.appended (files.contentAt place) e) := by
          rw [looksMidLine_of_takes hfault htakes hlooks, hway.nodes.contentAt_eq]
          exact if_pos hshowable
        rw [hwrite, hline, hway.nodes.contentAt_eq]
        rw [← hmade] at htakes ⊢
        have happends := onlyAppends_put htakes
        cases happending : refused.appending with
        | none =>
          refine Or.inr ⟨rfl, place, ?_⟩
          dsimp only [Option.getD_none]
          rw [List.take_length]
          exact happends _
        | some n =>
          exact Or.inl ⟨.system, rfl,
            Or.inr ⟨nofun, place, _, List.take_prefix n _, happends _⟩⟩

/-! ## Times that a log can keep -/

/-- The times of all events are ones that a double holds, so that their lines can be read. -/
def HasFiniteTimes (s : Store) : Prop := ∀ e ∈ s.events, (Double.ofInt e.time).isFinite = true

end Store

/-- A choice is made at a time that a double holds. -/
def Operation.HasFiniteClock : Operation → Prop
  | .select now _ _ _ _ => (Double.ofInt now).isFinite = true
  | _ => True

instance (o : Operation) : Decidable o.HasFiniteClock :=
  match o with
  | .select now _ _ _ _ => inferInstanceAs (Decidable ((Double.ofInt now).isFinite = true))
  | .load _ => isTrue trivial
  | .forget _ => isTrue trivial
  | .compact => isTrue trivial

namespace Run

theorem hasFiniteTimes_stepBySteps [StackRoom] {r : Run} (h : r.store.HasFiniteTimes)
    (refused : Refusals) (name : Text) {o : Operation} (ho : o.HasFiniteClock) :
    (r.stepBySteps refused name o).store.HasFiniteTimes := by
  apply stepBySteps_preserves name h
  case hloaded => exact fun events hstorable _ e he => (hstorable e he).time
  case hchosen =>
    rintro now windowId windowClass title layoutId rfl
    have htime : (Double.ofInt (r.store.nextEvent now windowClass title layoutId).time).isFinite =
        true := r.store.isFinite_nextTime ho h
    exact Store.forall_mem_chosen h windowId fun _ => htime
  case hforgotten => exact fun windowId => h
  case hthinned => exact fun s hs e he => hs e (Store.mem_events_of_mem_kept he)

end Run

namespace Store

open FileTree

variable {s t : Store} {operations : List Operation}

theorem Endures.hasFiniteTimes [StackRoom] (h : s.Endures operations t) (hs : s.HasFiniteTimes)
    (hclock : ∀ o ∈ operations, o.HasFiniteClock) : t.HasFiniteTimes := by
  induction h with
  | start => exact hs
  | step h files refused name o ih =>
    have hbefore := ih fun o' ho' => hclock o' (List.mem_append_left _ ho')
    exact Run.hasFiniteTimes_stepBySteps hbefore refused name
      (hclock o (List.mem_append_right _ List.mem_cons_self))

/-- The next event has the time of the clock or that of the last event, whichever is later. -/
theorem nextTime_eq (s : Store) (now : Int) :
    s.nextTime now = s.events.getLast?.elim now fun last => max now last.time := by
  unfold nextTime
  cases s.events.getLast? with
  | none => rfl
  | some last =>
    simp only [Option.elim_some]
    split <;> omega

/-! ## The outcomes of a choice -/

/-- The session of a store remembers a choice, and is as that of another for other windows. -/
structure RemembersChoice (s t : Store) (windowId : Int) (layoutId : Text) : Prop where
  chosen : Keyed.get? windowId t.session = some layoutId
  others : ∀ other, other ≠ windowId → Keyed.get? other t.session = Keyed.get? other s.session

theorem remembersChoice_chosen (s : Store) (windowId : Int) (e : Event)
    (allowed : Except FileFailure Unit) :
    s.RemembersChoice (s.chosen windowId e allowed) windowId e.layoutId := by
  constructor
  · rw [session_chosen, Keyed.get?_set, if_pos rfl]
  · intro other hother
    rw [session_chosen, Keyed.get?_set, if_neg (Ne.symm hother)]

section Outcomes

variable (s : Store) (refused : Refusals) (files : FileTree) (windowId : Int) (windowClass : Text)
  (e : Event) (o : Outcome (Except RecordingFailure Unit))

/-- There is no class, and nothing happens. -/
structure Ignores : Prop where
  unnamed : windowClass = []
  result : o.result = .ok ()
  store : o.store = s
  files : o.files = files
  silent : o.trace.messages = []

/-- The event cannot be appended. The session remembers the choice all the same. What may be new
    among the files are directories that were missing on the way to the log, and at the end of the
    log a beginning of what was to be written, if the system took no more. -/
structure FailsToRecord [StackRoom] : Prop where
  named : windowClass ≠ []
  failed : ∃ reason, (s.appendBySteps refused files e).2 = .error reason ∧
    o.result = recorded windowId (.error reason)
  same : Run.SameLog s o.store
  events : o.store.events = s.events
  index : o.store.index = s.index
  session : s.RemembersChoice o.store windowId e.layoutId
  files : files.OnlyMakesWay o.files s.path ∨
    refused.appending ≠ none ∧ ∃ place begun,
      begun <+: Log.appended (files.contentAt place) e ∧
        files.OnlyAppends o.files s.path place begun
  silent : o.trace.messages = []

/-- The event is appended: it stands at the end of the log, behind the events that the log had, and
    at the end of the store's events. If it can be reported, one message tells of it. -/
structure Records [StackRoom] : Prop where
  named : windowClass ≠ []
  done : (s.appendBySteps refused files e).2 = .ok ()
  same : Run.SameLog s o.store
  events : o.store.events = s.events ++ [e]
  index : o.store.index = s.index.record s.limit e
  session : s.RemembersChoice o.store windowId e.layoutId
  files : ∃ place,
    files.OnlyAppends o.files s.path place (Log.appended (files.contentAt place) e) ∧
      files.contentAt place <+: o.files.contentAt place ∧
      Log.decoded (o.files.contentAt place) = Log.decoded (files.contentAt place) ++ [e]
  published : Numeral.isShowable windowId = true → o.result = .ok () ∧ o.trace.messages =
    if s.onBus then [.layoutRecorded e.layoutId e.classHash e.titleHash] else []

end Outcomes

section Decided

variable [StackRoom] {s : Store} {refused : Refusals} {files : FileTree} {windowId : Int}
  {windowClass : Text} {e : Event} {o : Outcome (Except RecordingFailure Unit)}

theorem FailsToRecord.not_done (h : s.FailsToRecord refused files windowId windowClass e o) :
    (s.appendBySteps refused files e).2 ≠ .ok () := by
  obtain ⟨reason, hfailed, -⟩ := h.failed
  rw [hfailed]
  exact nofun

/-- Whether the event could be appended decides between the outcomes of a choice with a class. -/
theorem records_of_done (hclass : windowClass ≠ [])
    (hdone : (s.appendBySteps refused files e).2 = .ok ())
    (h : s.Ignores files windowClass o ∨ s.FailsToRecord refused files windowId windowClass e o ∨
      s.Records refused files windowId windowClass e o) :
    s.Records refused files windowId windowClass e o := by
  rcases h with hignores | hfails | hrecords
  · exact absurd hignores.unnamed hclass
  · exact absurd hdone hfails.not_done
  · exact hrecords

theorem failsToRecord_of_failed (hclass : windowClass ≠ [])
    (hfailed : (s.appendBySteps refused files e).2 ≠ .ok ())
    (h : s.Ignores files windowClass o ∨ s.FailsToRecord refused files windowId windowClass e o ∨
      s.Records refused files windowId windowClass e o) :
    s.FailsToRecord refused files windowId windowClass e o := by
  rcases h with hignores | hfails | hrecords
  · exact absurd hignores.unnamed hclass
  · exact hfails
  · exact absurd hrecords.done hfailed

end Decided

theorem ignores_selectBySteps [StackRoom] (s : Store) (refused : Refusals) (files : FileTree)
    (now windowId : Int) (title layoutId : Text) :
    s.Ignores files [] (s.selectBySteps refused files now windowId [] title layoutId) :=
  ⟨rfl, rfl, rfl, rfl, rfl⟩

variable {refused : Refusals} {files : FileTree} {now windowId : Int}
  {windowClass title layoutId : Text}

theorem failsToRecord_selectBySteps [StackRoom] (hclass : windowClass ≠ []) {reason : FileFailure} :
    let e := s.nextEvent now windowClass title layoutId
    let left := (s.appendBySteps refused files e).1
    (s.appendBySteps refused files e).2 = .error reason →
      (files.OnlyMakesWay left s.path ∨ refused.appending ≠ none ∧ ∃ place begun,
        begun <+: Log.appended (files.contentAt place) e ∧
          files.OnlyAppends left s.path place begun) →
      s.FailsToRecord refused files windowId windowClass e
        (s.selectBySteps refused files now windowId windowClass title layoutId) := by
  intro e left hfailed hway
  obtain ⟨hresult, hstore, hfiles, hmessages⟩ :=
    s.selectBySteps_spec refused files now windowId title layoutId (by simpa using hclass)
  rw [hfailed] at hresult hstore hmessages
  constructor
  case named => exact hclass
  case failed => exact ⟨reason, hfailed, hresult⟩
  case same =>
    rw [hstore]
    exact Run.SameLog.refl s
  case events =>
    rw [hstore]
    rfl
  case index =>
    rw [hstore]
    rfl
  case session =>
    rw [hstore]
    exact s.remembersChoice_chosen windowId e _
  case files =>
    rw [hfiles]
    exact hway
  case silent => exact hmessages

theorem records_selectBySteps [StackRoom] (hclass : windowClass ≠ []) {place : Place} :
    let e := s.nextEvent now windowClass title layoutId
    e.Storable → (s.appendBySteps refused files e).2 = .ok () →
      files.OnlyAppends (s.appendBySteps refused files e).1 s.path place
        (Log.appended (files.contentAt place) e) →
      s.Records refused files windowId windowClass e
        (s.selectBySteps refused files now windowId windowClass title layoutId) := by
  intro e hstorable hdone happends
  obtain ⟨hresult, hstore, hfiles, hmessages⟩ :=
    s.selectBySteps_spec refused files now windowId title layoutId (by simpa using hclass)
  rw [hdone] at hresult hstore hmessages
  constructor
  case named => exact hclass
  case done => exact hdone
  case same =>
    rw [hstore]
    exact Run.SameLog.refl s
  case events =>
    rw [hstore]
    rfl
  case index =>
    rw [hstore]
    rfl
  case session =>
    rw [hstore]
    exact s.remembersChoice_chosen windowId e _
  case files =>
    have hdecoded := Log.decoded_append (files.contentAt place) e
    rw [hstorable.decoded?] at hdecoded
    rw [hfiles]
    refine ⟨place, happends, ?_⟩
    rw [contentAt_of_lookup_file happends.found]
    exact ⟨List.prefix_append _ _, hdecoded⟩
  case published =>
    intro hshowable
    refine ⟨hresult.trans ((recorded_ok_iff windowId).mpr hshowable), hmessages.trans ?_⟩
    rw [announced, hshowable, Bool.and_true]

/-- Whatever became of the files since, and whatever the system refuses: a choice is ignored, or it
    is recorded in the log and in the store, or the store is without it, and never two of these at
    once. With nothing refused this is what recording the choice at once comes to. -/
theorem records_or_not [StackRoom] {path : Path} {threshold limit : Int} {onBus : Bool}
    (h : (Store.new path threshold limit onBus).Endures operations s)
    (hclock : ∀ o ∈ operations, o.HasFiniteClock) (refused : Refusals) (files : FileTree)
    (hnow : (Double.ofInt now).isFinite = true) (windowId : Int) (windowClass title : Text)
    (hlayout : layoutId.hasPair = false) :
    let o := s.selectBySteps refused files now windowId windowClass title layoutId
    let e : Event := ⟨s.events.getLast?.elim now fun last => max now last.time,
      hashText windowClass, hashText title, layoutId⟩
    (s.Ignores files windowClass o ∨ s.FailsToRecord refused files windowId windowClass e o ∨
        s.Records refused files windowId windowClass e o) ∧
      ¬ (s.Ignores files windowClass o ∧ s.FailsToRecord refused files windowId windowClass e o) ∧
      ¬ (s.Ignores files windowClass o ∧ s.Records refused files windowId windowClass e o) ∧
      ¬ (s.FailsToRecord refused files windowId windowClass e o ∧
        s.Records refused files windowId windowClass e o) ∧
      (refused = .none → o = s.select files now windowId windowClass title layoutId) := by
  intro o e
  have hevent : s.nextEvent now windowClass title layoutId = e := by
    rw [nextEvent, nextTime_eq]
  refine ⟨?_, ?_, ?_, ?_, ?_⟩
  · by_cases hclass : windowClass = []
    · subst hclass
      exact Or.inl (s.ignores_selectBySteps refused files now windowId title layoutId)
    · have htimes : s.HasFiniteTimes := h.hasFiniteTimes (by simp [HasFiniteTimes, new]) hclock
      -- the event can be read back, also where it has taken over the time of the one before it
      have hstorable := s.storable_nextEvent hnow hlayout htimes windowClass title
      rw [← hevent]
      refine Or.inr ?_
      cases s.appendBySteps_cases refused files hstorable.isShowable with
      | inl hrefused =>
        obtain ⟨reason, hfailed, hway⟩ := hrefused
        exact Or.inl (failsToRecord_selectBySteps hclass hfailed hway)
      | inr hwritten =>
        obtain ⟨hdone, place, happends⟩ := hwritten
        exact Or.inr (records_selectBySteps hclass hstorable hdone happends)
  · intro hboth
    exact hboth.2.named hboth.1.unnamed
  · intro hboth
    exact hboth.2.named hboth.1.unnamed
  · intro hboth
    exact hboth.1.not_done hboth.2.done
  · rintro rfl
    exact s.selectBySteps_none files now windowId windowClass title layoutId

/-- A store on a bus, after one choice. -/
def oneChoiceStore : Store :=
  ((Run.start (Store.new ⟨.workingDirectory, [text "log"]⟩ 9 2 true) (.empty ⟨.slash, []⟩)).steps
    [.select 20 1 (text "a") (text "b") (text "x")]).store

theorem becomes_oneChoiceStore :
    (Store.new ⟨.workingDirectory, [text "log"]⟩ 9 2 true).Becomes
      [.select 20 1 (text "a") (text "b") (text "x")] oneChoiceStore :=
  becomes_steps (Run.start (Store.new ⟨.workingDirectory, [text "log"]⟩ 9 2 true) _) _

/-- A disk on which nine bytes of an event still fit. -/
def nineBytesLeft : Refusals := { Refusals.none with appending := some 9 }

/-- The clock went back and the last line of the log was not ended: the event is the latest all the
    same, on a line of its own. Where a directory is in place of the log there is no event, and
    where the disk is full only a beginning of its line. -/
theorem records_or_not_oneChoiceStore :
    let e : Event := ⟨20, hashText (text "c"), hashText (text "t"), text "l"⟩
    let recorded := oneChoiceStore.select Run.smallFiles 5 2 (text "c") (text "t") (text "l")
    let blocked : FileTree := ⟨⟨.slash, []⟩, [([text "log"], .directory)]⟩
    let refused := oneChoiceStore.select blocked 5 2 (text "c") (text "t") (text "l")
    let torn := oneChoiceStore.selectBySteps nineBytesLeft Run.smallFiles 5 2 (text "c") (text "t")
      (text "l")
    (Double.ofInt 5).isFinite = true ∧ (text "l").hasPair = false ∧
      oneChoiceStore.Records .none Run.smallFiles 2 (text "c") e recorded ∧
      recorded.trace.messages = [.layoutRecorded e.layoutId e.classHash e.titleHash] ∧
      oneChoiceStore.FailsToRecord .none blocked 2 (text "c") e refused ∧ refused.files = blocked ∧
      oneChoiceStore.FailsToRecord nineBytesLeft Run.smallFiles 2 (text "c") e torn ∧
      torn.files.log? oneChoiceStore.path = some (Run.smallLog ++ newline :: e.bytes.take 8) := by
  intro e recorded blocked refused torn
  have hclock : ∀ o ∈ [Operation.select 20 1 (text "a") (text "b") (text "x")],
      o.HasFiniteClock := by
    decide +kernel
  have hnow : (Double.ofInt 5).isFinite = true := by decide +kernel
  have hlayout : (text "l").hasPair = false := by decide +kernel
  have hnamed : text "c" ≠ [] := by decide
  have htime : (oneChoiceStore.events.getLast?.elim 5 fun last => max 5 last.time) = 20 := by
    decide +kernel
  have hdone : (oneChoiceStore.appendBySteps .none Run.smallFiles e).2 = .ok () := by
    decide +kernel
  have hfailed : (oneChoiceStore.appendBySteps .none blocked e).2 ≠ .ok () := by decide +kernel
  have htorn : (oneChoiceStore.appendBySteps nineBytesLeft Run.smallFiles e).2 ≠ .ok () := by
    decide +kernel
  have hreached : blocked.follow (origin oneChoiceStore.path) oneChoiceStore.path.names ≠
      .unreachable := by
    decide +kernel
  have hbus : oneChoiceStore.onBus = true := by decide +kernel
  have hshowable : Numeral.isShowable 2 = true := by decide
  have hendures := becomes_oneChoiceStore.endures
  obtain ⟨hwritten, -, -, -, hsame⟩ := records_or_not hendures hclock .none Run.smallFiles hnow 2
    (text "c") (text "t") hlayout
  obtain ⟨hblocked, -, -, -, hsame'⟩ := records_or_not hendures hclock .none blocked hnow 2
    (text "c") (text "t") hlayout
  obtain ⟨hpartly, -⟩ := records_or_not hendures hclock nineBytesLeft Run.smallFiles hnow 2
    (text "c") (text "t") hlayout
  rw [htime, hsame rfl] at hwritten
  rw [htime, hsame' rfl] at hblocked
  rw [htime] at hpartly
  have hrecords := records_of_done hnamed hdone hwritten
  have hfails := failsToRecord_of_failed hnamed hfailed hblocked
  have hstops := failsToRecord_of_failed hnamed htorn hpartly
  have hfiles : refused.files = blocked := by
    rcases hfails.files with hway | ⟨happending, -⟩
    · exact hway.same hreached
    · exact absurd rfl happending
  have hpublished := (hrecords.published hshowable).2
  rw [if_pos hbus] at hpublished
  exact ⟨hnow, hlayout, hrecords, hpublished, hfails, hfiles, hstops, by decide +kernel⟩

/-- A store whose log cannot be written: its name is too long, in a directory that may be
    missing. -/
def unwritableStore : Store :=
  Store.new ⟨.workingDirectory, text "new" :: Run.longPath.names⟩ 9 2 true

/-- Two choices whose events cannot be appended. Of the one the directory that was made first is
    left, and of the other, on a full disk, the beginning of its line. -/
theorem failed_record_adds :
    let e := unwritableStore.nextEvent 5 (text "c") (text "t") (text "l")
    let o := unwritableStore.select (.empty ⟨.slash, []⟩) 5 1 (text "c") (text "t") (text "l")
    let later := oneChoiceStore.nextEvent 5 (text "c") (text "t") (text "l")
    let torn := oneChoiceStore.selectBySteps nineBytesLeft Run.smallFiles 5 2 (text "c") (text "t")
      (text "l")
    ((unwritableStore.appendToLog (.empty ⟨.slash, []⟩) e).2 = .error .system ∧
        o.store.events = [] ∧ o.trace.messages = [] ∧
        (FileTree.empty ⟨.slash, []⟩).node? [text "new"] = none ∧
        o.files.node? [text "new"] = some .directory) ∧
      torn.store.events = oneChoiceStore.events ∧ torn.trace.messages = [] ∧
      Run.smallFiles.log? oneChoiceStore.path = some Run.smallLog ∧
      torn.files.log? oneChoiceStore.path =
        some (Run.smallLog ++ newline :: later.bytes.take 8) := by
  decide +kernel

end Store

end WindowLayouts
