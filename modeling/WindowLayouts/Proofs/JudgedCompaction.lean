import WindowLayouts.CommandLine.Run
import WindowLayouts.Proofs.BadLines
import WindowLayouts.Proofs.Following

/- What a compaction judges. A compaction writes what the store holds and trusts that the store
   holds all there is. That is so from a load on that could take up the log: each event of the log
   is in the store then, or was left out because its layout is not known, and recording keeps it so.
   A load that gives up leaves an empty store beside a full log, and the next compaction destroys
   events that nobody looked at.

     `Run.Judges.steps`           what was judged stays judged
     `Run.judges_load`            a load that takes up the log judges it
     `Run.compaction_judges_iff`  when a compaction takes away only what was judged
     `Run.unjudged_compaction`    a log that a compaction empties -/
namespace WindowLayouts

/-- The events that the log at a path decodes to, each line taken alone. -/
def FileTree.recorded [StackRoom] (t : FileTree) (p : Path) : List Event :=
  Log.decoded ((t.log? p).getD [])

/-- Whether an event is among those of a store, as their lines hold them. -/
def Store.HasEvent (s : Store) (d : Event) : Prop := ∃ e ∈ s.events, e.stored = d

def Operation.isLoad : Operation → Bool
  | .load _ => true
  | _ => false

theorem Event.stored_of_decoded? [StackRoom] {e d : Event} (h : e.decoded? = some d) :
    e.stored = d := by
  cases hfinite : (Double.ofInt e.time).isFinite with
  | true =>
    rw [decoded?_eq hfinite] at h
    exact Option.some.inj h
  | false =>
    rw [decoded?_eq_none hfinite] at h
    cases h

theorem FileTree.IsLog.recorded [StackRoom] {t : FileTree} {p : Path} {content : Option Bytes}
    (h : t.IsLog p content) : t.recorded p = Log.decoded (content.getD []) := by
  rw [FileTree.recorded, h.now]

namespace Run

/-- Whether loading leaves an event of the log out because its layout is not known. -/
def Drops [StackRoom] (r : Run) (known : KnownLayouts) (d : Event) : Prop :=
  r.store.loadError? r.files known = none ∧ d ∈ r.files.recorded r.store.path ∧
    ∃ ids, known = .only ids ∧ ids.contains d.layoutId = false

/-- Whether an event that the log of a run holds is missing from it later. -/
def Loses [StackRoom] (r later : Run) (d : Event) : Prop :=
  d ∈ r.files.recorded r.store.path ∧ d ∉ later.files.recorded later.store.path

/-- Whether one of some operations is a compaction that succeeds. -/
def compacts [StackRoom] (r : Run) : List Operation → Bool
  | [] => false
  | o :: rest =>
    (o = .compact && (r.store.compact r.files).result) || (r.step o).compacts rest

/-! ## What was judged -/

/-- Each event of the log is in the store or is excused. -/
structure Judges [StackRoom] (excused : Event → Prop) (r : Run)
    (content : Option Bytes) : Prop where
  log : r.files.IsLog r.store.path content
  judged : ∀ d ∈ Log.decoded (content.getD []), r.store.HasEvent d ∨ excused d

variable {excused : Event → Prop} {r : Run} {known : KnownLayouts} {content : Option Bytes}

theorem Judges.after [StackRoom] {α : Type} {o : Outcome α}
    (hlog : o.files.IsLog o.store.path content)
    (hjudged : ∀ d ∈ Log.decoded (content.getD []), o.store.HasEvent d ∨ excused d) :
    (r.after o).Judges excused content :=
  ⟨hlog, hjudged⟩

theorem Judges.of_recorded [StackRoom] (h : r.Judges excused content) {d : Event}
    (hd : d ∈ r.files.recorded r.store.path) : r.store.HasEvent d ∨ excused d := by
  rw [h.log.recorded] at hd
  exact h.judged d hd

/-- The log after one more event was to be appended holds no more than the store. -/
theorem hasEvent_chosen [StackRoom] {s : Store} {d e : Event} {allowed : Except FileFailure Unit}
    (windowId : Int) (hold : ∀ d ∈ Log.decoded (content.getD []), s.HasEvent d ∨ excused d)
    (hd : d ∈ Log.decoded ((Log.grown content e allowed).getD [])) :
    (s.chosen windowId e (e.written allowed)).HasEvent d ∨ excused d := by
  rw [Log.decoded_grown] at hd
  cases hwritten : e.written allowed with
  | error reason =>
    rw [hwritten, Except.toOption, Option.bind_none, Option.toList_none, List.append_nil] at hd
    exact hold d hd
  | ok done =>
    rw [hwritten, Except.toOption, Option.bind_some] at hd
    rcases List.mem_append.mp hd with hd | hd
    · rcases hold d hd with ⟨old, hmem, hstored⟩ | hexcused
      · exact Or.inl ⟨old, List.mem_append_left _ hmem, hstored⟩
      · exact Or.inr hexcused
    · refine Or.inl ⟨e, List.mem_append_right _ (List.mem_singleton_self e), ?_⟩
      exact Event.stored_of_decoded? (Option.mem_toList.mp hd)

theorem Judges.select [StackRoom] (h : r.Judges excused content) (now windowId : Int)
    (windowClass title layoutId : Text) :
    ∃ after, (r.step (.select now windowId windowClass title layoutId)).Judges excused after := by
  rcases select_cases h.log now windowId windowClass title layoutId with
    ⟨hstore, hfiles⟩ | ⟨-, hstore, -, hlog⟩
  · refine ⟨content, ?_, ?_⟩
    · rw [hstore, hfiles]
      exact h.log
    · rw [hstore]
      exact h.judged
  · refine ⟨Log.grown content (r.store.nextEvent now windowClass title layoutId)
      (r.files.allows r.store.path), hlog, ?_⟩
    intro d hd
    rw [hstore]
    exact hasEvent_chosen windowId h.judged hd

/-- After a compaction the store holds the whole log. -/
theorem judges_compact [StackRoom] (h : (r.store.compact r.files).result = true) :
    ∃ after, (r.step .compact).Judges excused after := by
  rcases r.compact_cases with ⟨-, hstore, hlog⟩ | ⟨hrefused, -, -⟩
  · refine ⟨some (Log.ofEvents r.store.kept), hlog, ?_⟩
    intro d hd
    rw [Option.getD_some, Log.decoded_ofEvents] at hd
    obtain ⟨e, he, hdecoded⟩ := List.mem_filterMap.mp hd
    rw [hstore]
    exact Or.inl ⟨e, he, Event.stored_of_decoded? hdecoded⟩
  · rw [hrefused] at h
    cases h

theorem Judges.compact [StackRoom] (h : r.Judges excused content) :
    ∃ after, (r.step .compact).Judges excused after := by
  rcases r.compact_cases with ⟨hresult, -, -⟩ | ⟨-, hstore, hfiles⟩
  · exact judges_compact hresult
  · refine ⟨content, ?_, ?_⟩
    · rw [hstore, hfiles]
      exact h.log.madeAbove
    · rw [hstore]
      exact h.judged

theorem Judges.step [StackRoom] (h : r.Judges excused content) {o : Operation}
    (ho : o.isLoad = false) :
    ∃ after, (r.step o).Judges excused after := by
  cases o with
  | load known => cases ho
  | select now windowId windowClass title layoutId =>
    exact h.select now windowId windowClass title layoutId
  | forget windowId => exact ⟨content, h.log, h.judged⟩
  | compact => exact h.compact

/-- What was judged stays judged until the next load. -/
theorem Judges.steps [StackRoom] (h : r.Judges excused content) {operations : List Operation}
    (hloads : ∀ o ∈ operations, o.isLoad = false) :
    ∃ after, (r.steps operations).Judges excused after := by
  induction operations generalizing r content with
  | nil => exact ⟨content, h⟩
  | cons o operations ih =>
    obtain ⟨next, hnext⟩ := h.step (hloads o List.mem_cons_self)
    exact ih hnext fun o' ho' => hloads o' (List.mem_cons_of_mem o ho')

/-! ## Loading -/

/-- A store that takes up a log has each event of it, but those it drops. -/
theorem judges_taken [StackRoom] (hlog : r.files.IsLog r.store.path content)
    (hload : r.store.loadError? r.files known = none) :
    (start (r.store.taken known content) r.files).Judges (r.Drops known) content := by
  refine ⟨hlog, ?_⟩
  intro d hd
  cases hknows : known.knows d.layoutId with
  | true =>
    have hmem : d ∈ known.eventsOf content := by
      rw [KnownLayouts.eventsOf, List.mem_mergeSort, KnownLayouts.select_eq_filter]
      exact List.mem_filter.mpr ⟨hd, hknows⟩
    exact Or.inl ⟨d, hmem, (KnownLayouts.storable_of_mem_eventsOf hmem).stored_eq⟩
  | false =>
    rw [← hlog.recorded] at hd
    cases known with
    | only ids => exact Or.inr ⟨hload, hd, ids, rfl, hknows⟩
    | _ => cases hknows

/-- A load that could take up the log judges it. -/
theorem judges_load [StackRoom] (hlog : r.files.IsLog r.store.path content)
    (hload : r.store.loadError? r.files known = none) :
    ∃ after, (r.step (.load known)).Judges (r.Drops known) after := by
  cases content with
  | none =>
    have hspec := r.store.load_spec r.files known
    rw [hlog.now] at hspec
    obtain ⟨hstore, hfiles⟩ := Prod.mk.inj hspec
    refine ⟨none, ?_, nofun⟩
    show (r.store.load r.files known).files.IsLog (r.store.load r.files known).store.path none
    rw [hstore, hfiles]
    exact hlog
  | some bytes =>
    -- the load may compact, and then it does what a compaction does to what was taken up
    obtain ⟨hreadable, hknown⟩ := Store.taken?_of_loadError? hlog.now hload
    have htaken := judges_taken hlog hload
    rcases Store.load_cases hlog hreadable hknown with ⟨hstore, hfiles⟩ | ⟨-, hstore, hfiles⟩
    · refine ⟨some bytes, Judges.after ?_ ?_⟩
      · rw [hstore, hfiles]
        exact htaken.log
      · rw [hstore]
        exact htaken.judged
    · obtain ⟨after, hafter⟩ := htaken.compact
      refine ⟨after, Judges.after ?_ ?_⟩
      · rw [hstore, hfiles]
        exact hafter.log
      · rw [hstore]
        exact hafter.judged

/-- A load that gives up leaves a log of which nothing is judged. -/
theorem judges_load_error [StackRoom] {reason : LoadError}
    (hlog : r.files.IsLog r.store.path content)
    (hload : r.store.loadError? r.files known = some reason) :
    (r.step (.load known)).Judges (· ∈ Log.decoded (content.getD [])) content := by
  obtain ⟨hstore, hfiles⟩ := Store.load_of_loadError? hload
  apply Judges.after
  · rw [hstore, hfiles]
    exact hlog
  · exact fun d hd => Or.inr hd

/-! ## Where the log is -/

/-- Each operation leaves a log behind, with what it may hold. -/
theorem exists_isLog_step [StackRoom] (hlog : r.files.IsLog r.store.path content) (o : Operation) :
    ∃ after, (r.step o).files.IsLog (r.step o).store.path after := by
  cases hload : o.isLoad with
  | false =>
    have hall : r.Judges (fun _ => True) content := ⟨hlog, fun _ _ => Or.inr trivial⟩
    obtain ⟨after, hafter⟩ := hall.step hload
    exact ⟨after, hafter.log⟩
  | true =>
    cases o with
    | load known =>
      cases herror : r.store.loadError? r.files known with
      | none =>
        obtain ⟨after, hafter⟩ := judges_load hlog herror
        exact ⟨after, hafter.log⟩
      | some reason => exact ⟨content, (judges_load_error hlog herror).log⟩
    | _ => cases hload

theorem exists_isLog_steps [StackRoom] (hlog : r.files.IsLog r.store.path content)
    (operations : List Operation) :
    ∃ after, (r.steps operations).files.IsLog (r.steps operations).store.path after := by
  induction operations generalizing r content with
  | nil => exact ⟨content, hlog⟩
  | cons o operations ih =>
    obtain ⟨next, hnext⟩ := exists_isLog_step hlog o
    exact ih hnext

/-! ## Compactions since the last load -/

/-- From a compaction that succeeds on, the store holds the whole log. -/
theorem judges_of_compacts [StackRoom] (hlog : r.files.IsLog r.store.path content)
    {operations : List Operation} (hloads : ∀ o ∈ operations, o.isLoad = false)
    (h : r.compacts operations = true) :
    ∃ after, (r.steps operations).Judges excused after := by
  induction operations generalizing r content with
  | nil => cases h
  | cons o operations ih =>
    have hrest : ∀ o' ∈ operations, o'.isLoad = false :=
      fun o' ho' => hloads o' (List.mem_cons_of_mem o ho')
    rw [compacts, Bool.or_eq_true, Bool.and_eq_true, decide_eq_true_eq] at h
    rcases h with ⟨rfl, hresult⟩ | hlater
    · obtain ⟨next, hnext⟩ := judges_compact hresult
      exact hnext.steps hrest
    · obtain ⟨next, hnext⟩ := exists_isLog_step hlog o
      exact ih hnext hrest hlater

/-- Without a load or a compaction that succeeds, the log loses no event. -/
theorem recorded_step [StackRoom] (hlog : r.files.IsLog r.store.path content) {o : Operation}
    (hload : o.isLoad = false)
    (hcompact : (o = .compact && (r.store.compact r.files).result) = false) :
    ∃ after, (r.step o).files.IsLog (r.step o).store.path after ∧
      ∀ d ∈ Log.decoded (content.getD []), d ∈ Log.decoded (after.getD []) := by
  cases o with
  | load known => cases hload
  | select now windowId windowClass title layoutId =>
    rcases select_cases hlog now windowId windowClass title layoutId with
      ⟨hstore, hfiles⟩ | ⟨-, -, -, hgrown⟩
    · refine ⟨content, ?_, fun d hd => hd⟩
      rw [hstore, hfiles]
      exact hlog
    · refine ⟨_, hgrown, ?_⟩
      intro d hd
      rw [Log.decoded_grown]
      exact List.mem_append_left _ hd
  | forget windowId => exact ⟨content, hlog, fun d hd => hd⟩
  | compact =>
    rcases r.compact_cases with ⟨hresult, -, -⟩ | ⟨-, hstore, hfiles⟩
    · rw [hresult] at hcompact
      cases hcompact
    · refine ⟨content, ?_, fun d hd => hd⟩
      rw [hstore, hfiles]
      exact hlog.madeAbove

theorem recorded_steps [StackRoom] (hlog : r.files.IsLog r.store.path content)
    {operations : List Operation}
    (hloads : ∀ o ∈ operations, o.isLoad = false) (h : r.compacts operations = false) :
    ∃ after, (r.steps operations).files.IsLog (r.steps operations).store.path after ∧
      ∀ d ∈ Log.decoded (content.getD []), d ∈ Log.decoded (after.getD []) := by
  induction operations generalizing r content with
  | nil => exact ⟨content, hlog, fun d hd => hd⟩
  | cons o operations ih =>
    rw [compacts, Bool.or_eq_false_iff] at h
    obtain ⟨hfirst, hrest⟩ := h
    obtain ⟨next, hnext, hgrows⟩ := recorded_step hlog (hloads o List.mem_cons_self) hfirst
    obtain ⟨after, hafter, hgrows'⟩ :=
      ih hnext (fun o' ho' => hloads o' (List.mem_cons_of_mem o ho')) hrest
    exact ⟨after, hafter, fun d hd => hgrows' d (hgrows d hd)⟩

/-! ## What a compaction takes away -/

/-- What is in the log after a compaction is in the store. -/
theorem hasEvent_of_recorded_compact [StackRoom]
    (hresult : (r.store.compact r.files).result = true) {d : Event}
    (hd : d ∈ (r.step .compact).files.recorded (r.step .compact).store.path) :
    r.store.HasEvent d := by
  rcases r.compact_cases with ⟨-, -, hlog⟩ | ⟨hrefused, -, -⟩
  · rw [hlog.recorded, Option.getD_some, Log.decoded_ofEvents] at hd
    obtain ⟨e, he, hdecoded⟩ := List.mem_filterMap.mp hd
    exact ⟨e, Store.mem_events_of_mem_kept he, Event.stored_of_decoded? hdecoded⟩
  · rw [hrefused] at hresult
    cases hresult

/-- The compaction of a load takes away only what the store took up or dropped. -/
theorem load_judges [StackRoom] (hlog : r.files.IsLog r.store.path content) (known : KnownLayouts)
    {d : Event} (hd : r.Loses (r.step (.load known)) d) :
    (r.store.taken known (r.files.log? r.store.path)).HasEvent d ∨ r.Drops known d := by
  obtain ⟨hbefore, hafter⟩ := hd
  cases herror : r.store.loadError? r.files known with
  | none =>
    rw [hlog.recorded] at hbefore
    rw [hlog.now]
    exact (judges_taken hlog herror).judged d hbefore
  | some reason =>
    obtain ⟨hstore, hfiles⟩ := Store.load_of_loadError? herror
    have hpath : (r.store.load r.files known).store.path = r.store.path := by
      rw [hstore]
      rfl
    refine absurd ?_ hafter
    show d ∈ (r.store.load r.files known).files.recorded (r.store.load r.files known).store.path
    rw [hpath, hfiles]
    exact hbefore

section LastLoad

variable {after : List Operation} {last : Run}

/-- What the log holds after a load that could take it up, or after a compaction, was judged; and
    after a load that gave up it was if all that the log held has come into the store again. -/
theorem hasEvent_or_drops [StackRoom] (hlog : r.files.IsLog r.store.path content)
    (hafter : ∀ o ∈ after, o.isLoad = false) (hlast : last = (r.step (.load known)).steps after)
    (hcause : r.store.loadError? r.files known = none ∨
      (r.step (.load known)).compacts after = true ∨
        ∀ d ∈ r.files.recorded r.store.path, last.store.HasEvent d)
    {d : Event} (hd : d ∈ last.files.recorded last.store.path) :
    last.store.HasEvent d ∨ r.Drops known d := by
  cases herror : r.store.loadError? r.files known with
  | none =>
    obtain ⟨loaded, hloaded⟩ := judges_load hlog herror
    obtain ⟨now, hnow⟩ := hloaded.steps hafter
    rw [hlast] at hd ⊢
    exact hnow.of_recorded hd
  | some reason =>
    have hloaded := judges_load_error hlog herror
    rcases hcause with hnone | hcompacts | hagain
    · rw [herror] at hnone
      cases hnone
    · obtain ⟨now, hnow⟩ := judges_of_compacts hloaded.log hafter hcompacts
      rw [hlast] at hd ⊢
      exact hnow.of_recorded hd
    · -- the excuse of this run is that the event was in the log when the load gave up
      obtain ⟨now, hnow⟩ := hloaded.steps hafter
      rw [← hlast] at hnow
      rcases hnow.of_recorded hd with hhas | hold
      · exact Or.inl hhas
      · rw [← hlog.recorded] at hold
        exact Or.inl (hagain d hold)

/-- A load that gave up drops nothing, so after it only the store can speak for an event that was in
    the log all the time. -/
theorem hasEvent_of_loses [StackRoom] (hlog : r.files.IsLog r.store.path content)
    (hafter : ∀ o ∈ after, o.isLoad = false) (hlast : last = (r.step (.load known)).steps after)
    (hresult : (last.store.compact last.files).result = true)
    (hjudged : ∀ d, last.Loses (last.step .compact) d → last.store.HasEvent d ∨ r.Drops known d)
    {reason : LoadError} (herror : r.store.loadError? r.files known = some reason)
    (hcompacts : (r.step (.load known)).compacts after = false) {d : Event}
    (hd : d ∈ r.files.recorded r.store.path) : last.store.HasEvent d := by
  have hloaded := (judges_load_error hlog herror).log
  obtain ⟨now, hnow, hgrows⟩ := recorded_steps hloaded hafter hcompacts
  have hstill : d ∈ last.files.recorded last.store.path := by
    rw [hlast, hnow.recorded]
    rw [hlog.recorded] at hd
    exact hgrows d hd
  by_cases hkept : d ∈ (last.step .compact).files.recorded (last.step .compact).store.path
  · exact hasEvent_of_recorded_compact hresult hkept
  · rcases hjudged d ⟨hstill, hkept⟩ with hhas | ⟨hnone, -, -⟩
    · exact hhas
    · rw [herror] at hnone
      cases hnone

/-- When a compaction takes away only what was judged, told by the last load: it could take up the
    log, or a compaction succeeded since, or all that the log held has come into the store again. -/
theorem loses_judged_iff [StackRoom] (hlog : r.files.IsLog r.store.path content)
    (hafter : ∀ o ∈ after, o.isLoad = false) (hlast : last = (r.step (.load known)).steps after)
    (hresult : (last.store.compact last.files).result = true) :
    (∀ d, last.Loses (last.step .compact) d → last.store.HasEvent d ∨ r.Drops known d) ↔
      r.store.loadError? r.files known = none ∨ (r.step (.load known)).compacts after = true ∨
        ∀ d ∈ r.files.recorded r.store.path, last.store.HasEvent d := by
  constructor
  · intro hjudged
    cases herror : r.store.loadError? r.files known with
    | none => exact Or.inl rfl
    | some reason =>
      refine Or.inr ?_
      cases hcompacts : (r.step (.load known)).compacts after with
      | true => exact Or.inl rfl
      | false =>
        refine Or.inr ?_
        intro d hd
        exact hasEvent_of_loses hlog hafter hlast hresult hjudged herror hcompacts hd
  · rintro hcause d ⟨hd, -⟩
    exact hasEvent_or_drops hlog hafter hlast hcause hd

end LastLoad

end Run

/-- The command that compacts a log loads it and compacts. -/
theorem CommandLine.files_runCompact [StackRoom] {settings : Settings} {least : Nat}
    {files : FileTree}
    {ended : CommandLine.Finished} (hholds : files.holds settings.historyPath = .ok true)
    (h : CommandLine.runCompact settings least files = .ok ended) :
    let r := (Run.start (CommandLine.openStore settings) files).step (.load .all)
    ended.files = (r.step .compact).files ∧
      (ended.code = 0 ↔ (r.store.compact r.files).result = true) := by
  intro r
  have hr : r.store = ((CommandLine.openStore settings).load files .all).store ∧
      r.files = ((CommandLine.openStore settings).load files .all).files := ⟨rfl, rfl⟩
  have hstep : (r.step .compact).files = (r.store.compact r.files).files := rfl
  rw [hstep, hr.1, hr.2]
  simp only [CommandLine.runCompact, hholds, Except.mapError, bind, Except.bind] at h
  cases hloaded : ((CommandLine.openStore settings).load files .all).result with
  | error reason =>
    rw [hloaded] at h
    cases h
  | ok done =>
    rw [hloaded] at h
    cases hcompacted : (((CommandLine.openStore settings).load files .all).store.compact
        ((CommandLine.openStore settings).load files .all).files).result with
    | true =>
      rw [hcompacted] at h
      obtain rfl := Except.ok.inj h
      exact ⟨rfl, iff_of_true rfl rfl⟩
    | false =>
      rw [hcompacted] at h
      obtain rfl := Except.ok.inj h
      exact ⟨rfl, iff_of_false Nat.one_ne_zero Bool.false_ne_true⟩

namespace Run

/-- What compactions take away in a run, told by its last load. The compaction of the load itself
    takes away only what the store took up or dropped. A later one that succeeds does so exactly if
    the load could take up the log, or a compaction succeeded between them, or all that the log held
    at the load has come into the store again. The command that compacts a log is such a run. -/
theorem compaction_judges_iff [StackRoom] {s : Store} {files : FileTree} {content : Option Bytes}
    (hlog : files.IsLog s.path content) (before : List Operation) (known : KnownLayouts)
    {after : List Operation} (hafter : ∀ o ∈ after, o.isLoad = false) :
    let loading := (start s files).steps before
    let loaded := loading.step (.load known)
    let r := loaded.steps after
    (∀ d, loading.Loses loaded d →
      (loading.store.taken known (loading.files.log? loading.store.path)).HasEvent d ∨
        loading.Drops known d) ∧
    ((r.store.compact r.files).result = true →
      ((∀ d, r.Loses (r.step .compact) d → r.store.HasEvent d ∨ loading.Drops known d) ↔
        loading.store.loadError? loading.files known = none ∨ loaded.compacts after = true ∨
          ∀ d ∈ loading.files.recorded loading.store.path, r.store.HasEvent d)) ∧
    ∀ settings least ended, files.holds settings.historyPath = .ok true →
      CommandLine.runCompact settings least files = .ok ended →
      let r := (start (CommandLine.openStore settings) files).step (.load .all)
      ended.files = (r.step .compact).files ∧
        (ended.code = 0 ↔ (r.store.compact r.files).result = true) := by
  intro loading loaded r
  obtain ⟨now, hnow⟩ : ∃ now, loading.files.IsLog loading.store.path now :=
    exists_isLog_steps hlog before
  refine ⟨fun d hd => load_judges hnow known hd, ?_, ?_⟩
  · intro hresult
    exact loses_judged_iff hnow hafter rfl hresult
  · intro settings least ended hholds hended
    exact CommandLine.files_runCompact hholds hended

/-- The plain store at a log of one event. -/
def plainRun : Run := start Store.plainStore (Store.filesWith Store.goodEvent.bytes)

theorem isLog_plainRun : plainRun.files.IsLog plainRun.store.path (some Store.goodEvent.bytes) := by
  have hfound : plainRun.files.lookup plainRun.store.path ≠ .unreachable := by
    show (Store.filesWith _).lookup Store.plainStore.path ≠ .unreachable
    rw [Store.lookup_filesWith]
    exact nofun
  have hlog := FileTree.isLog_of_lookup hfound
  have hnow : plainRun.files.log? plainRun.store.path = some Store.goodEvent.bytes :=
    Store.log?_filesWith Store.goodEvent.bytes
  rw [hnow] at hlog
  exact hlog

theorem recorded_plainRun : plainRun.files.recorded plainRun.store.path = [Store.goodEvent] := by
  have hone : Log.ofEvents [Store.goodEvent] = Store.goodEvent.bytes := List.append_nil _
  rw [isLog_plainRun.recorded, Option.getD_some, ← hone,
    Log.decoded_ofEvents_of_storable Store.storable_goodEvent]

theorem compaction_judges_plainRun :
    let r := (plainRun.step (.load .all)).steps [.forget 1]
    (r.store.compact r.files).result = true ∧
      ∀ d, r.Loses (r.step .compact) d → r.store.HasEvent d ∨ plainRun.Drops .all d := by
  intro r
  have hresult : (r.store.compact r.files).result = true := by decide +kernel
  obtain ⟨-, hjudges, -⟩ := compaction_judges_iff isLog_plainRun [] .all
    (show ∀ o ∈ [Operation.forget 1], o.isLoad = false by decide)
  exact ⟨hresult, (hjudges hresult).mpr (Or.inl (by decide +kernel))⟩

/-- Nobody can tell which layouts are known. -/
def nobodyTells : KnownLayouts := .failed (text "layouts unavailable")

theorem step_load_nobodyTells :
    (plainRun.step (.load nobodyTells)).store = plainRun.store.reset ∧
      (plainRun.step (.load nobodyTells)).files = plainRun.files := by
  have hload := plainRun.store.load_spec plainRun.files nobodyTells
  rw [isLog_plainRun.now, KnownLayouts.taken?_of_error _ rfl] at hload
  exact Prod.mk.inj hload

/-- A log of one event, a load that learns of no layouts, and a compaction: the event is gone, and
    it was neither in the store nor dropped. -/
theorem unjudged_compaction :
    let r := plainRun.step (.load nobodyTells)
    (r.store.compact r.files).result = true ∧
      r.files.recorded r.store.path = [Store.goodEvent] ∧
      (r.step .compact).files.recorded (r.step .compact).store.path = [] ∧
      r.store.events = [] ∧ ¬ plainRun.Drops nobodyTells Store.goodEvent := by
  intro r
  obtain ⟨hstore, hfiles⟩ := step_load_nobodyTells
  have hresult : (r.store.compact r.files).result = true := by
    show ((plainRun.step _).store.compact (plainRun.step _).files).result = true
    rw [hstore, hfiles]
    decide +kernel
  have hevents : r.store.events = [] := congrArg Store.events hstore
  have hrecorded : r.files.recorded r.store.path = [Store.goodEvent] := by
    show (plainRun.step _).files.recorded (plainRun.step _).store.path = _
    rw [hstore, hfiles]
    exact recorded_plainRun
  refine ⟨hresult, hrecorded, ?_, hevents, ?_⟩
  · apply List.eq_nil_iff_forall_not_mem.mpr
    intro d hd
    obtain ⟨e, he, -⟩ := hasEvent_of_recorded_compact hresult hd
    rw [hevents] at he
    cases he
  · rintro ⟨-, -, ids, hids, -⟩
    cases hids

end Run

end WindowLayouts
