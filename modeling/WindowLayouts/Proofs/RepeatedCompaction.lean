import WindowLayouts.Proofs.Following

/- A compaction thins the events of a store and leaves nothing for a second one to do. The events
   that are kept stand in their order, with the last event of all and the last of each title key
   among them. The index made from them ranks the same layouts, under any limit, so that the same
   events are kept again; they are in order already, and what is written is what the log holds.

     `Index.thin_thin`             what is kept is kept again by the same index
     `Index.thin_rebuild_thin`     and by the index of what is kept
     `FileTree.write_again`        writing again what was written changes no file
     `Store.compaction_thins`      what holds of a compaction, and of a second one after it -/
namespace WindowLayouts

namespace Index

theorem any_titleKey_thin (ix : Index) (events : List Event) (key : Text) :
    ((ix.thin events).any fun l => l.titleKey = key) = events.any fun l => l.titleKey = key := by
  rw [Bool.eq_iff_iff, List.any_eq_true, List.any_eq_true]
  constructor
  · rintro ⟨l, hl, hkey⟩
    exact ⟨l, (ix.thin_sublist events).subset hl, hkey⟩
  · rintro ⟨l, hl, hkey⟩
    have hlast := ix.getLast?_filter_thin key events
    have hmem : l ∈ events.filter fun e => e.titleKey = key := List.mem_filter.mpr ⟨hl, hkey⟩
    obtain ⟨kept, hkept⟩ := List.exists_mem_of_ne_nil _
      (ne_nil_of_getLast?_eq hlast (List.ne_nil_of_mem hmem))
    exact ⟨kept, List.mem_filter.mp hkept⟩

/-- Whether an event is kept does not change when the events after it are thinned. -/
theorem keeps_thin (ix : Index) (later : List Event) (e : Event) :
    ix.keeps (ix.thin later) e = ix.keeps later e := by
  rw [keeps, keeps, any_titleKey_thin]

theorem thin_thin (ix : Index) (events : List Event) :
    ix.thin (ix.thin events) = ix.thin events := by
  induction events with
  | nil => rfl
  | cons e later ih =>
    rw [thin_cons]
    split
    · rename_i hkeeps
      rw [thin_cons, keeps_thin, if_pos hkeeps, ih]
    · exact ih

/-- Of an index, thinning uses only which layouts are ranked. -/
theorem thin_congr {ix ix' : Index}
    (h : ∀ classHash, ix.entries classHash = ix'.entries classHash) (events : List Event) :
    ix.thin events = ix'.thin events := by
  have hranks : ∀ e, ix.ranks e = ix'.ranks e := by
    intro e
    rw [ranks, ranks, retained, retained, h]
  induction events with
  | nil => rfl
  | cons e later ih => rw [thin_cons, thin_cons, keeps, keeps, hranks, ih]

/-- The index of what is kept ranks each class as before, under any limit. -/
theorem entries_thin (limit : Int) (events : List Event) (classHash : Text) :
    (rebuild limit ((rebuild limit events).thin events)).entries classHash =
      (rebuild limit events).entries classHash := by
  have hnatural : (rebuild limit events).thin events =
      (rebuild limit.toNat events).thin events := by
    apply thin_congr
    intro classHash
    rw [entries_rebuild_toNat, entries_rebuild]
  rw [entries_rebuild_toNat, entries_rebuild_toNat, hnatural, take_ranked_thin]

/-- The index of what is kept keeps all of it. -/
theorem thin_rebuild_thin (limit : Int) (events : List Event) :
    (rebuild limit ((rebuild limit events).thin events)).thin ((rebuild limit events).thin events) =
      (rebuild limit events).thin events := by
  rw [thin_congr (entries_thin limit events), thin_thin]

end Index

namespace FileTree

theorem put_put (t : FileTree) (place : Place) (node other : Node) :
    (t.put place node).put place other = t.put place other := by
  rw [put, put, put, Keyed.set_set]

/-- Writing again what was written changes no file. -/
theorem write_again [StackRoom] {t t' : FileTree} {p : Path} {content : Bytes}
    (hmade : (t.makeDirectories p.parent).2 = .ok ())
    (h : (t.madeAbove p).write p content = .ok t') :
    t'.madeAbove p = t' ∧ (t'.makeDirectories p.parent).2 = (t.makeDirectories p.parent).2 ∧
      t'.workingDirectory = (t.madeAbove p).workingDirectory ∧ t'.write p content = .ok t' := by
  rcases write_cases (t.madeAbove p) p with ⟨reason, herror⟩ | ⟨place, hfault, htakes, hok⟩
  · rw [herror] at h
    cases h
  · obtain rfl := Except.ok.inj ((hok content).symm.trans h)
    have hkeeps := keeps_put_of_lookup htakes content
    have hroom : (t.makeDirectories p.parent).2 ≠ .error .tooDeep := by
      rw [hmade]
      exact nofun
    refine ⟨madeAbove_of_keeps hroom hkeeps, ?_, rfl, ?_⟩
    · rw [makeDirectories_of_keeps_madeAbove hroom hkeeps]
    · unfold write
      rw [hfault, lookup_put htakes]
      dsimp only
      rw [put_put]

end FileTree

namespace Store

/-- A log that was replaced can be replaced by the same again, which changes no file. -/
theorem replaceLog_again [StackRoom] {s : Store} {files files' : FileTree} {content : Bytes}
    (h : s.replaceLog files content = (files', .ok ())) :
    s.replaceLog files' content = (files', .ok ()) := by
  rw [replaceLog_eq] at h
  split at h
  · cases h
  · rename_i done hmade
    split at h
    · cases h
    · rename_i hfault
      split at h
      · cases h
      · rename_i hshort
        split at h
        · cases h
        · rename_i replaced hwritten
          obtain rfl : replaced = files' := congrArg Prod.fst h
          obtain ⟨habove, hmade', hdirectory, hagain⟩ := FileTree.write_again hmade hwritten
          rw [replaceLog_eq, hmade', hmade, habove, s.temporaryPath_congr hdirectory]
          dsimp only
          rw [hfault]
          dsimp only
          rw [if_neg hshort, hagain]

variable {s : Store} {files : FileTree}

/-- A compaction works exactly if the log can be replaced, and the store follows then. -/
theorem compact_eq_true_iff [StackRoom] :
    (s.compact files).result = true ↔ ∃ files',
      s.replaceLog files (Log.ofEvents s.kept) = (files', .ok ()) ∧
      (s.compact files).store = s.withEvents s.kept ∧ (s.compact files).files = files' := by
  unfold compact compacted
  dsimp only
  rcases s.replaceLog files (Log.ofEvents s.kept) with ⟨files', reason | done⟩
  · simp
  · simp

/-- After a compaction the same events are kept again. -/
theorem Consistent.kept_withKept (h : s.Consistent) : (s.withEvents s.kept).kept = s.kept := by
  have hkept : s.kept = (Index.rebuild s.limit s.events).thin s.events := by
    rw [h.kept_eq_thin, h.index]
  have hagain : (s.withEvents s.kept).Consistent :=
    s.consistent_withEvents (Event.timeOrdered_mergeSort _)
  rw [hagain.kept_eq_thin]
  show (Index.rebuild s.limit s.kept).thin s.kept = s.kept
  rw [hkept, Index.thin_rebuild_thin]

theorem Consistent.events_compact [StackRoom] (h : s.Consistent)
    (hdone : (s.compact files).result = true) :
    (s.compact files).store.events = s.index.thin s.events := by
  obtain ⟨-, -, hstore, -⟩ := compact_eq_true_iff.mp hdone
  rw [hstore, ← h.kept_eq_thin]
  rfl

/-- A second compaction finds nothing to do. -/
theorem Consistent.compact_again [StackRoom] (h : s.Consistent)
    (hdone : (s.compact files).result = true) :
    let after := s.compact files
    let again := after.store.compact after.files
    again.result = true ∧ again.store = after.store ∧ again.files = after.files := by
  obtain ⟨files', hreplaced, hstore, hfiles⟩ := compact_eq_true_iff.mp hdone
  dsimp only
  rw [hstore, hfiles]
  have hagain : (s.withEvents s.kept).replaceLog files'
      (Log.ofEvents (s.withEvents s.kept).kept) = (files', .ok ()) := by
    rw [h.kept_withKept]
    exact replaceLog_again hreplaced
  unfold Store.compact compacted
  dsimp only
  rw [hagain]
  refine ⟨rfl, ?_, rfl⟩
  rw [h.kept_withKept]
  rfl

/-- What a compaction that works does to any store at work: the events that stay are some of the
    events in their order, with the last of all and the last of each title key; the log is just
    their lines; and compacting at once again works and changes neither the store nor any file. -/
theorem compaction_thins [StackRoom] {path : Path} {threshold limit : Int} {onBus : Bool}
    {operations : List Operation}
    (h : (Store.new path threshold limit onBus).Becomes operations s) (files : FileTree)
    (hdone : (s.compact files).result = true) :
    let after := s.compact files
    let again := after.store.compact after.files
    after.store.events.Sublist s.events ∧
      after.store.events.getLast? = s.events.getLast? ∧
      (∀ key, Event.last? (fun e => e.titleKey = key) after.store.events =
        Event.last? (fun e => e.titleKey = key) s.events) ∧
      after.files.log? path = some (Log.ofEvents after.store.events) ∧
      again.result = true ∧ again.store = after.store ∧ again.files = after.files := by
  intro after again
  have hs : s.Consistent := h.consistent (consistent_new path threshold limit onBus)
  have hpath : s.path = path := h.sameLog.1
  have hevents : after.store.events = s.index.thin s.events := hs.events_compact hdone
  refine ⟨?_, ?_, ?_, ?_, hs.compact_again hdone⟩
  · rw [hevents]
    exact s.index.thin_sublist s.events
  · rw [hevents, Index.getLast?_thin]
  · intro key
    rw [hevents, Event.last?, Event.last?, ← List.getLast?_filter, ← List.getLast?_filter,
      Index.getLast?_filter_thin]
  · rw [hevents, ← hs.kept_eq_thin, ← hpath]
    rcases s.compact_spec files with ⟨-, -, -, hlog⟩ | ⟨hrefused, -, -⟩
    · exact hlog.now
    · rw [hdone] at hrefused
      cases hrefused

/-- Three choices of one class, the last at the time of the one before, since the clock goes
    back. -/
def tiedChoices : List Operation :=
  [.select 20 1 (text "a") (text "b") (text "x"), .select 30 1 (text "a") (text "c") (text "y"),
   .select 10 1 (text "a") (text "b") (text "z")]

/-- A store that ranks a single layout. -/
def narrowStore : Store := Store.new ⟨.workingDirectory, [text "log"]⟩ 9 1 false

/-- This store and its log after these choices. -/
def tiedRun : Run := (Run.start narrowStore ⟨⟨.slash, []⟩, []⟩).steps tiedChoices

/-- The first choice is dropped, the other two stay, and then nothing changes any more. -/
theorem compaction_thins_tiedRun :
    let after := tiedRun.store.compact tiedRun.files
    after.result = true ∧ after.store.events.map (·.layoutId) = [text "y", text "z"] ∧
      after.files.log? narrowStore.path = some (Log.ofEvents after.store.events) ∧
      (after.store.compact after.files).store = after.store := by
  have hbecomes : narrowStore.Becomes tiedChoices tiedRun.store :=
    becomes_steps (Run.start narrowStore ⟨⟨.slash, []⟩, []⟩) tiedChoices
  have hdone : (tiedRun.store.compact tiedRun.files).result = true := by decide +kernel
  have hlayouts : ((tiedRun.store.compact tiedRun.files).store.events).map (·.layoutId) =
      [text "y", text "z"] := by
    rw [(hbecomes.consistent (consistent_new _ 9 1 false)).events_compact hdone]
    decide +kernel
  obtain ⟨-, -, -, hlog, -, hstore, -⟩ := compaction_thins hbecomes tiedRun.files hdone
  exact ⟨hdone, hlayouts, hlog, hstore⟩

end Store

end WindowLayouts
