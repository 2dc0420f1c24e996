import WindowLayouts.History.Run
import WindowLayouts.Proofs.Ranking
import WindowLayouts.Proofs.StoredLog
import WindowLayouts.Proofs.TimeOrder

/- What holds of every store, whatever its log held, whatever the clock does and whatever failed:
   its events are in the order of their times, and its index is the index of these events. Loading
   sorts, recording never goes back behind the last event, and compacting sorts and indexes anew; an
   operation that fails leaves events and index to each other as they were.

   From this the index can be told from the events alone. A class has the layouts that its events
   name, read from the last event to the first, each once and at its last event; a title key has the
   last event with that key.

     `Index.Ranks`              the entries of a class, told from the events
     `Index.ranks_rebuild`      the index of events in order holds just these
     `Store.Consistent`         the invariant
     `Store.Becomes`            stores after operations on files in any state
     `Store.store_consistent`   what holds of all of them -/
namespace WindowLayouts

namespace Event

/-- The last event that passes a test. -/
def last? (p : Event → Bool) (events : List Event) : Option Event := events.reverse.find? p

/-- The layouts of a class, each once, in the order in which they are met when the events are read
    from the last to the first. -/
def layoutsOf (classHash : Text) (events : List Event) : List Text :=
  ((events.reverse.filter fun e => e.classHash = classHash).map (·.layoutId)).eraseDups

end Event

namespace Index

/-! ## Rankings, told from the events -/

theorem newest_eq (classHash : Text) (events : List Event) :
    newest classHash events = events.reverse.filter fun e => e.classHash = classHash := by
  rw [newest, List.filter_reverse]

/-- A ranking begins with the latest event and goes on with the ranking of the other layouts, so
    what holds of rankings is shown by taking one layout away at a time. -/
theorem ranked_induction {motive : List Event → Prop} (nil : motive [])
    (cons : ∀ e earlier, motive (earlier.filter fun old => old.layoutId ≠ e.layoutId) →
      motive (e :: earlier)) : ∀ events, motive events
  | [] => nil
  | e :: earlier => cons e earlier (ranked_induction nil cons _)
termination_by events => events.length
decreasing_by
  have hle := List.length_filter_le (fun old : Event => decide (old.layoutId ≠ e.layoutId)) earlier
  simp only [List.length_cons]
  omega

/-- The layouts of a ranking are those of the events, each at its first place. -/
theorem map_layoutId_ranked (events : List Event) :
    (ranked events).map (·.layoutId) = (events.map (·.layoutId)).eraseDups := by
  induction events using ranked_induction with
  | nil => rfl
  | cons e earlier ih =>
    have hothers : (earlier.map (·.layoutId)).filter (fun id => !id == e.layoutId) =
        (earlier.filter fun old => old.layoutId ≠ e.layoutId).map (·.layoutId) := by
      rw [List.filter_map]
      congr 1
      apply List.filter_congr
      intro old _
      by_cases h : old.layoutId = e.layoutId <;> simp [h]
    rw [ranked_cons, List.map_cons, ih, List.map_cons, List.eraseDups_cons, hothers]
    rfl

theorem nodup_ranked (events : List Event) : ((ranked events).map (·.layoutId)).Nodup := by
  induction events using ranked_induction with
  | nil => exact List.nodup_nil
  | cons e earlier ih =>
    rw [ranked_cons, List.map_cons, List.nodup_cons]
    refine ⟨?_, ih⟩
    rw [map_layoutId_ranked, List.mem_eraseDups, List.mem_map]
    rintro ⟨old, hold, hsame⟩
    have hother := (List.mem_filter.mp hold).2
    simp only [decide_eq_true_eq] at hother
    exact hother hsame

/-- The entries of a ranking are those of some of the events, in their order. -/
theorem exists_sublist_ranked (events : List Event) :
    ∃ some : List Event, some.Sublist events ∧ ranked events = some.map Event.entry := by
  induction events with
  | nil => exact ⟨[], List.Sublist.refl [], rfl⟩
  | cons e earlier ih =>
    obtain ⟨chosen, hsub, hranked⟩ := ih
    refine ⟨e :: chosen.eraseP fun old => old.layoutId = e.layoutId, ?_, ?_⟩
    · exact (List.eraseP_sublist.trans hsub).cons_cons e
    · rw [ranked, promote, hranked, List.eraseP_map]
      rfl

/-- A layout is ranked with the first of its events. -/
theorem find?_of_mem_ranked {events : List Event} {entry : Entry} (h : entry ∈ ranked events) :
    (events.find? fun e => e.layoutId = entry.layoutId).map Event.entry = some entry := by
  induction events using ranked_induction with
  | nil => cases h
  | cons e earlier ih =>
    rw [ranked_cons, List.mem_cons] at h
    rcases h with rfl | h
    · simp [Event.entry]
    · have hlater := ih h
      obtain ⟨chosen, hsub, hranked⟩ :=
        exists_sublist_ranked (earlier.filter fun old => old.layoutId ≠ e.layoutId)
      rw [hranked] at h
      obtain ⟨old, hold, rfl⟩ := List.mem_map.mp h
      have hother : old.entry.layoutId ≠ e.layoutId :=
        of_decide_eq_true (List.mem_filter.mp (hsub.subset hold)).2
      -- the latest event is of another layout, and so is every event that was taken away with it
      have hsame : ∀ a : Event, (decide (a.layoutId ≠ e.layoutId) = true ∧
          decide (a.layoutId = old.entry.layoutId) = true) ↔ a.layoutId = old.entry.layoutId := by
        intro a
        simp only [decide_eq_true_eq]
        exact ⟨fun ha => ha.2, fun ha => ⟨ha ▸ hother, ha⟩⟩
      simp only [List.find?_filter, hsame] at hlater
      simpa only [List.find?_cons, decide_eq_false (Ne.symm hother)] using hlater

/-- The entries of a class under a limit, told from the events: the first layouts that are met from
    the last event on, each with the time of its last event. -/
structure Ranks (limit : Int) (events : List Event) (classHash : Text) (entries : List Entry) :
    Prop where
  layouts : entries.map (·.layoutId) = (Event.layoutsOf classHash events).take limit.toNat
  latest : ∀ entry ∈ entries,
    (Event.last? (fun e => e.classHash = classHash ∧ e.layoutId = entry.layoutId) events).map
      Event.entry = some entry
  length_le : (entries.length : Int) ≤ limit
  nodup : (entries.map (·.layoutId)).Nodup
  falling : entries.Pairwise fun newer older => older.lastUsed ≤ newer.lastUsed

theorem falling_ranked {events : List Event} (h : Event.TimeOrdered events) (classHash : Text) :
    (ranked (newest classHash events)).Pairwise fun newer older =>
      older.lastUsed ≤ newer.lastUsed := by
  obtain ⟨chosen, hsub, hranked⟩ := exists_sublist_ranked (newest classHash events)
  rw [newest_eq] at hsub
  rw [hranked, List.pairwise_map]
  exact (List.pairwise_reverse.mpr h).sublist (hsub.trans List.filter_sublist)

/-- The index of events in the order of their times ranks each class as its events tell. -/
theorem ranks_rebuild {limit : Int} (hlimit : 1 ≤ limit) {events : List Event}
    (h : Event.TimeOrdered events) (classHash : Text) :
    Ranks limit events classHash ((rebuild limit events).entries classHash) := by
  obtain ⟨n, -, rfl⟩ := exists_limit hlimit
  have hsub : ((ranked (newest classHash events)).take n).Sublist
      (ranked (newest classHash events)) := List.take_sublist n _
  rw [entries_rebuild]
  constructor
  case layouts =>
    rw [List.map_take, map_layoutId_ranked, newest_eq]
    rfl
  case latest =>
    intro entry hentry
    have hfound := find?_of_mem_ranked (hsub.subset hentry)
    rw [newest_eq, List.find?_filter] at hfound
    simpa [Event.last?] using hfound
  case length_le =>
    have hlength := List.length_take_le n (ranked (newest classHash events))
    omega
  case nodup => exact (nodup_ranked _).sublist (hsub.map _)
  case falling => exact (falling_ranked h classHash).sublist hsub

end Index

namespace KnownLayouts

theorem select_subset (known : KnownLayouts) (events : List Event) :
    known.select events ⊆ events := by
  cases known with
  | only ids => exact List.filter_sublist.subset
  | _ => exact List.Subset.refl events

/-- What is taken up of a log are events that it decodes to, in order. -/
theorem of_taken? [StackRoom] {known : KnownLayouts} {content : Option Bytes} {events : List Event}
    (h : known.taken? content = some events) :
    Event.TimeOrdered events ∧ ∀ e ∈ events, e.Storable := by
  cases content with
  | none => cases h
  | some bytes =>
    rw [taken?] at h
    split at h
    · obtain rfl := Option.some.inj h
      refine ⟨Event.timeOrdered_mergeSort _, ?_⟩
      intro e he
      exact Log.storable_of_mem_decoded (known.select_subset _ (List.mem_mergeSort.mp he))
    · cases h

end KnownLayouts

namespace Store

/-! ## What holds of every store -/

/-- Events in the order of their times, and the index of just these events. -/
structure Consistent (s : Store) : Prop where
  ordered : Event.TimeOrdered s.events
  index : s.index = Index.rebuild s.limit s.events

variable {s : Store}

theorem consistent_withEvents (s : Store) {events : List Event} (h : Event.TimeOrdered events) :
    (s.withEvents events).Consistent := ⟨h, rfl⟩

/-- The next event is never before another one. -/
theorem Consistent.le_nextTime (h : s.Consistent) (now : Int) {old : Event}
    (hold : old ∈ s.events) : old.time ≤ s.nextTime now := by
  unfold nextTime
  cases hlast : s.events.getLast? with
  | none =>
    rw [List.getLast?_eq_none_iff.mp hlast] at hold
    exact nomatch hold
  | some last =>
    have hle := h.ordered.le_getLast hlast old hold
    dsimp only
    split
    · exact hle
    · omega

theorem Consistent.chosen (h : s.Consistent) (windowId : Int) {e : Event}
    (hlatest : ∀ old ∈ s.events, old.time ≤ e.time) (allowed : Except FileFailure Unit) :
    (s.chosen windowId e allowed).Consistent := by
  cases allowed with
  | error reason => exact ⟨h.ordered, h.index⟩
  | ok done =>
    refine ⟨h.ordered.append hlatest, ?_⟩
    show s.index.record s.limit e = Index.rebuild s.limit (s.events ++ [e])
    rw [Index.rebuild_append, h.index]

/-- Recording a choice, by whether its event could be appended. -/
theorem store_select [StackRoom] (s : Store) (files : FileTree) (now windowId : Int)
    (windowClass title layoutId : Text) :
    (s.select files now windowId windowClass title layoutId).store =
      if windowClass.isEmpty then s
      else s.chosen windowId (s.nextEvent now windowClass title layoutId)
        (s.appendToLog files (s.nextEvent now windowClass title layoutId)).2 := by
  split
  · rename_i hclass
    exact (s.select_of_isEmpty files now windowId title layoutId hclass).1
  · rename_i hclass
    exact (s.select_of_named files now windowId title layoutId (by simpa using hclass)).2.1

/-- Loading takes up some events of the log in order, perhaps none, and may then compact them. -/
theorem store_load [StackRoom] (s : Store) (files : FileTree) (known : KnownLayouts) :
    ∃ events, Event.TimeOrdered events ∧ (∀ e ∈ events, e.Storable) ∧
      ((s.load files known).store = s.reset.withEvents events ∨
        (s.load files known).store = ((s.reset.withEvents events).compact files).store) := by
  have hload := s.load_spec files known
  cases htaken : known.taken? (files.log? s.path) with
  | none =>
    rw [htaken] at hload
    exact ⟨[], List.Pairwise.nil, by simp, Or.inl (Prod.mk.inj hload).1⟩
  | some events =>
    obtain ⟨hordered, hstorable⟩ := KnownLayouts.of_taken? htaken
    rw [htaken] at hload
    have hstore : (s.load files known).store = (s.takeUp files events).1 := congrArg Prod.fst hload
    refine ⟨events, hordered, hstorable, ?_⟩
    rw [hstore]
    unfold takeUp
    dsimp only
    split
    · exact Or.inr rfl
    · exact Or.inl rfl

theorem Consistent.compact [StackRoom] (h : s.Consistent) (files : FileTree) :
    (s.compact files).store.Consistent := by
  rw [store_compact]
  split
  · exact s.consistent_withEvents (Event.timeOrdered_mergeSort _)
  · exact h

end Store

namespace Run

variable {r : Run}

theorem consistent_step [StackRoom] (h : r.store.Consistent) (o : Operation) :
    (r.step o).store.Consistent := by
  cases o with
  | load known =>
    obtain ⟨events, hordered, -, hstore | hstore⟩ := r.store.store_load r.files known
    · show (r.store.load r.files known).store.Consistent
      rw [hstore]
      exact r.store.reset.consistent_withEvents hordered
    · show (r.store.load r.files known).store.Consistent
      rw [hstore]
      exact (r.store.reset.consistent_withEvents hordered).compact r.files
  | select now windowId windowClass title layoutId =>
    show (r.store.select r.files now windowId windowClass title layoutId).store.Consistent
    rw [Store.store_select]
    split
    · exact h
    · exact h.chosen windowId (fun old => h.le_nextTime now) _
  | forget windowId => exact ⟨h.ordered, h.index⟩
  | compact => exact h.compact r.files

end Run

namespace Store

/-! ## Stores at work -/

/-- A store that another becomes by operations, one after the other. The files are not the store's
    alone, so each operation may find them in any state, and one that worked may fail the next
    time. -/
inductive Becomes [StackRoom] (s : Store) : List Operation → Store → Prop where
  | start : Becomes s [] s
  | step {operations : List Operation} {t : Store} (h : Becomes s operations t) (files : FileTree)
      (o : Operation) : Becomes s (operations ++ [o]) ((Run.start t files).step o).store

/-- A run is one way in which a store becomes another. -/
theorem becomes_steps [StackRoom] (r : Run) (operations : List Operation) :
    r.store.Becomes operations (r.steps operations).store := by
  induction operations using List.reverseRecOn with
  | nil => exact .start
  | append_singleton operations o ih =>
    have hstep := ih.step (r.steps operations).files o
    rw [Run.steps_append]
    cases o <;> exact hstep

variable {s t : Store} {operations : List Operation}

theorem Becomes.consistent [StackRoom] (h : s.Becomes operations t) (hs : s.Consistent) :
    t.Consistent := by
  induction h with
  | start => exact hs
  | step h files o ih => exact Run.consistent_step ih o

theorem Becomes.sameLog [StackRoom] (h : s.Becomes operations t) : Run.SameLog s t := by
  induction h with
  | start => exact Run.SameLog.refl s
  | @step operations t h files o ih => exact ih.trans (Run.sameLog_step (Run.start t files) o)

theorem consistent_new (path : Path) (threshold limit : Int) (onBus : Bool) :
    (Store.new path threshold limit onBus).Consistent := ⟨List.Pairwise.nil, rfl⟩

/-- Every store at work has its events in order, its index is the index of these events, the entries
    of each class are what the events of that class tell, and the entry of each title key is that of
    the last event with the key. -/
theorem store_consistent [StackRoom] {path : Path} {threshold limit : Int} {onBus : Bool}
    (h : (Store.new path threshold limit onBus).Becomes operations s) (hlimit : 1 ≤ limit) :
    Event.TimeOrdered s.events ∧
      s.index = Index.rebuild limit s.events ∧
      (∀ classHash, Index.Ranks limit s.events classHash (s.index.entries classHash)) ∧
      ∀ key, Keyed.get? key s.index.titles =
        (Event.last? (fun e => e.titleKey = key) s.events).map Event.entry := by
  have hs : s.Consistent := h.consistent (consistent_new path threshold limit onBus)
  have hlim : s.limit = limit := h.sameLog.2.2.1
  have hindex : s.index = Index.rebuild limit s.events := hlim ▸ hs.index
  refine ⟨hs.ordered, hindex, ?_, ?_⟩
  · intro classHash
    rw [hindex]
    exact Index.ranks_rebuild hlimit hs.ordered classHash
  · intro key
    rw [hindex, Index.get?_titles_rebuild, List.getLast?_filter]
    rfl

/-- A layout that loses its rank and wins it back, while the clock goes back. -/
def backAndForth : List Operation :=
  [.load .all, .select 20 1 (text "a") (text "b") (text "x"),
   .select 30 1 (text "a") (text "b") (text "y"), .select 10 2 (text "a") (text "c") (text "z"),
   .select 40 2 (text "a") (text "b") (text "x"), .forget 2]

/-- A store that ranks two layouts, after this. -/
def backAndForthStore : Store :=
  ((Run.start (Store.new ⟨.workingDirectory, [text "log"]⟩ 9 2 false) ⟨⟨.slash, []⟩, []⟩).steps
    backAndForth).store

theorem becomes_backAndForthStore :
    (Store.new ⟨.workingDirectory, [text "log"]⟩ 9 2 false).Becomes backAndForth
      backAndForthStore :=
  becomes_steps (Run.start (Store.new ⟨.workingDirectory, [text "log"]⟩ 9 2 false) _) backAndForth

theorem store_consistent_backAndForth :
    (1 : Int) ≤ 2 ∧ Event.TimeOrdered backAndForthStore.events ∧
      Index.Ranks 2 backAndForthStore.events (hashText (text "a"))
        (backAndForthStore.index.entries (hashText (text "a"))) ∧
      backAndForthStore.index.entries (hashText (text "a")) =
        [⟨text "x", 40⟩, ⟨text "z", 30⟩] := by
  obtain ⟨hordered, -, hranks, -⟩ := store_consistent becomes_backAndForthStore (by decide)
  exact ⟨by decide, hordered, hranks _, by decide +kernel⟩

end Store

end WindowLayouts
