import WindowLayouts.Layout.Catalog
import WindowLayouts.Proofs.Answers
import WindowLayouts.Proofs.Following

/- What is suggested is known. A load leaves out the events of layouts that the catalog does not
   have, and nothing but a choice brings a layout into the store: indexing, compacting and looking
   up only pass on what the events hold, and the session is empty until a window chooses. So after a
   load every answer is a layout that the catalog finds.

     `Catalog.find?_iff`              the catalog finds just the layouts whose ids it lists
     `Index.exists_of_mem_entries`    an entry of a class is that of one of the events
     `Store.Knows`                    the invariant: whatever the store holds is known
     `Catalog.suggestions_known`      what holds of all answers after a load -/
namespace WindowLayouts

/-! ## Finding by id -/

namespace Catalog

/-- Whether the catalog finds a layout by an id, and the layout is of this id. -/
def Finds (c : Catalog) (id : Text) : Prop := ∃ l, c.find? id = some l ∧ l.id = id

theorem layoutIds_eq (groups : List LayoutGroup) :
    layoutIds groups = (groups.flatMap (·.layouts)).map (·.id) := by
  rw [layoutIds, List.map_flatMap]

theorem mem_ids {c : Catalog} {id : Text} :
    id ∈ c.ids ↔ ∃ l ∈ c.groups.flatMap (·.layouts), l.id = id := by
  rw [ids, List.mem_eraseDups, layoutIds_eq, List.mem_map]

/-- The first layout with an id has this id. -/
theorem id_of_find? {c : Catalog} {id : Text} {l : Layout} (h : c.find? id = some l) :
    l.id = id := by
  simpa using List.find?_some h

theorem find?_iff (c : Catalog) (id : Text) : (∃ l, c.find? id = some l) ↔ id ∈ c.ids := by
  rw [mem_ids, ← Option.isSome_iff_exists, find?, List.find?_isSome]
  simp only [decide_eq_true_eq]

theorem finds_iff (c : Catalog) (id : Text) : c.Finds id ↔ id ∈ c.ids := by
  rw [← find?_iff]
  constructor
  · rintro ⟨l, hl, -⟩
    exact ⟨l, hl⟩
  · rintro ⟨l, hl⟩
    exact ⟨l, hl, id_of_find? hl⟩

end Catalog

/-! ## Where the layouts of an index come from -/

namespace Index

/-- An entry of a class is that of one of the events, under any limit. -/
theorem exists_of_mem_entries {limit : Int} {events : List Event} {classHash : Text} {entry : Entry}
    (h : entry ∈ (rebuild limit events).entries classHash) : ∃ e ∈ events, e.entry = entry := by
  rw [entries_rebuild_toNat] at h
  obtain ⟨chosen, hsub, hranked⟩ := exists_sublist_ranked (newest classHash events)
  have hmem := List.mem_of_mem_take h
  rw [hranked] at hmem
  obtain ⟨e, he, hentry⟩ := List.mem_map.mp hmem
  have hnewest := hsub.subset he
  rw [newest_eq] at hnewest
  exact ⟨e, List.mem_reverse.mp (List.filter_sublist.subset hnewest), hentry⟩

/-- The entry of a title key is that of one of the events. -/
theorem exists_of_get?_titles {limit : Int} {events : List Event} {key : Text} {entry : Entry}
    (h : Keyed.get? key (rebuild limit events).titles = some entry) :
    ∃ e ∈ events, e.entry = entry := by
  rw [get?_titles_rebuild] at h
  obtain ⟨e, he, hentry⟩ := Option.map_eq_some_iff.mp h
  exact ⟨e, List.filter_sublist.subset (List.mem_of_getLast? he), hentry⟩

end Index

/-! ## Stores that hold only known layouts -/

/-- Whether an operation brings no layout into a store but those that are known: it loads with what
    is known, or is no choice. Nothing is recorded for a window without a class. -/
def Operation.Recalls (known : KnownLayouts) : Operation → Prop
  | .load asked => asked = known
  | .select _ _ windowClass _ _ => windowClass.isEmpty = true
  | _ => True

namespace Store

/-- Whatever a store holds is known: the layouts of its events, from which its index is made. No
    window has a choice of the session. -/
structure Knows (s : Store) (known : KnownLayouts) : Prop where
  events : ∀ e ∈ s.events, known.knows e.layoutId = true
  index : s.index = Index.rebuild s.limit s.events
  session : s.session = []

variable {s : Store} {known : KnownLayouts}

theorem knows_reset (s : Store) (known : KnownLayouts) : s.reset.Knows known :=
  ⟨fun _ he => (nomatch he), rfl, rfl⟩

theorem Knows.compact [StackRoom] (h : s.Knows known) (files : FileTree) :
    (s.compact files).store.Knows known := by
  rw [store_compact]
  split
  · exact ⟨fun e he => h.events e (mem_events_of_mem_kept he), rfl, h.session⟩
  · exact h

theorem knows_takeUp [StackRoom] (s : Store) (files : FileTree) {events : List Event}
    (h : ∀ e ∈ events, known.knows e.layoutId = true) : (s.takeUp files events).1.Knows known := by
  have htaken : (s.reset.withEvents events).Knows known := ⟨h, rfl, rfl⟩
  unfold takeUp
  dsimp only
  split
  · exact htaken.compact files
  · exact htaken

theorem knows_of_taken? [StackRoom] {content : Option Bytes} {events : List Event}
    (h : known.taken? content = some events) : ∀ e ∈ events, known.knows e.layoutId = true := by
  intro e he
  unfold KnownLayouts.taken? at h
  split at h
  · cases h
  · split at h
    · rw [← Option.some.inj h, List.mem_mergeSort, KnownLayouts.select_eq_filter] at he
      exact (List.mem_filter.mp he).2
    · cases h

/-- Whatever the log holds, loading takes up what is known. -/
theorem knows_load [StackRoom] (s : Store) (files : FileTree) (known : KnownLayouts) :
    (s.load files known).store.Knows known := by
  have hload := congrArg Prod.fst (s.load_spec files known)
  rw [show (s.load files known).store = _ from hload]
  split
  · exact s.knows_reset known
  · rename_i events htaken
    exact s.knows_takeUp files (knows_of_taken? htaken)

end Store

theorem Run.knows_step [StackRoom] {r : Run} {known : KnownLayouts} (h : r.store.Knows known)
    {o : Operation} (ho : o.Recalls known) : (r.step o).store.Knows known := by
  cases o with
  | load asked =>
    obtain rfl : asked = known := ho
    exact r.store.knows_load r.files asked
  | select now windowId windowClass title layoutId =>
    have hstore := (r.store.select_of_isEmpty r.files now windowId title layoutId ho).1
    show (r.store.select r.files now windowId windowClass title layoutId).store.Knows known
    rw [hstore]
    exact h
  | forget windowId =>
    refine ⟨h.events, h.index, ?_⟩
    show Keyed.erase windowId r.store.session = []
    rw [h.session]
    rfl
  | compact => exact h.compact r.files

namespace Store

variable {s t : Store} {known : KnownLayouts}

theorem Becomes.knows [StackRoom] {operations : List Operation} (h : s.Becomes operations t)
    (hs : s.Knows known) (hall : ∀ o ∈ operations, o.Recalls known) : t.Knows known := by
  induction h with
  | start => exact hs
  | @step operations t h files o ih =>
    have hbefore := ih fun other hother => hall other (List.mem_append_left [o] hother)
    exact Run.knows_step hbefore (hall o (List.mem_append_right operations List.mem_cons_self))

/-! ## Answers -/

/-- Without a choice of the session an answer comes from the index. -/
theorem mem_of_lookup {windowId : Int} {windowClass title id : Text} (hsession : s.session = [])
    (h : (s.lookup windowId windowClass title).1 = .ok (some id)) :
    s.index.lookupTitle (hashText windowClass) (hashText title) = some id ∨
      s.index.lookupClass (hashText windowClass) = some id := by
  unfold lookup at h
  rw [hsession] at h
  dsimp only [Keyed.get?] at h
  split at h
  · cases h
  · split at h
    · rename_i found hfound
      exact Or.inl (hfound.trans (Except.ok.inj h))
    · split at h
      · rename_i found hfound
        exact Or.inr (hfound.trans (Except.ok.inj h))
      · cases h

theorem Knows.recent (h : s.Knows known) {windowClass id : Text} (hid : id ∈ s.recent windowClass) :
    known.knows id = true := by
  unfold Store.recent at hid
  split at hid
  · cases hid
  · rw [Index.retained, h.index] at hid
    obtain ⟨entry, hentry, rfl⟩ := List.mem_map.mp hid
    obtain ⟨e, he, rfl⟩ := Index.exists_of_mem_entries hentry
    exact h.events e he

theorem Knows.lookup (h : s.Knows known) {windowId : Int} {windowClass title id : Text}
    (hid : (s.lookup windowId windowClass title).1 = .ok (some id)) : known.knows id = true := by
  rcases mem_of_lookup h.session hid with htitle | hclass
  · rw [Index.lookupTitle, h.index] at htitle
    obtain ⟨entry, hentry, rfl⟩ := Option.map_eq_some_iff.mp htitle
    obtain ⟨e, he, rfl⟩ := Index.exists_of_get?_titles hentry
    exact h.events e he
  · rw [Index.lookupClass, h.index] at hclass
    obtain ⟨entry, hentry, rfl⟩ := Option.map_eq_some_iff.mp hclass
    obtain ⟨e, he, rfl⟩ := Index.exists_of_mem_entries (List.mem_of_head? hentry)
    exact h.events e he

end Store

namespace Catalog

/-- After a load that asked a catalog for the known layouts, until a window chooses: every event and
    every answer is of a layout that the catalog finds. A catalog finds a layout by just the ids
    that it lists. -/
theorem suggestions_known [StackRoom] (c : Catalog) (s : Store) (files : FileTree) {t : Store}
    {operations : List Operation} (h : (s.load files (.only c.ids)).store.Becomes operations t)
    (hall : ∀ o ∈ operations, o.Recalls (.only c.ids)) :
    (∀ e ∈ t.events, c.Finds e.layoutId) ∧
      (∀ windowId windowClass title id,
        (t.lookup windowId windowClass title).1 = .ok (some id) → c.Finds id) ∧
      (∀ windowClass, ∀ id ∈ t.recent windowClass, c.Finds id) ∧
      ∀ id, (∃ l, c.find? id = some l) ↔ id ∈ c.ids := by
  have hknows : t.Knows (.only c.ids) := h.knows (s.knows_load files _) hall
  have hfinds : ∀ id, (KnownLayouts.only c.ids).knows id = true → c.Finds id := by
    intro id hid
    exact (c.finds_iff id).mpr (List.contains_iff_mem.mp hid)
  refine ⟨?_, ?_, ?_, c.find?_iff⟩
  · intro e he
    exact hfinds _ (hknows.events e he)
  · intro windowId windowClass title id hid
    exact hfinds id (hknows.lookup hid)
  · intro windowClass id hid
    exact hfinds id (hknows.recent hid)

/-- A catalog that has one layout, on the second of two monitors. -/
def oneLayout : Catalog :=
  (ofList [(text "0", []), (text "1", [])]).setGroups (text "1")
    [⟨text "halves", [⟨text "left", text "Left", [], [], [], [], none⟩]⟩]

/-- A log in which a window chose this layout first, and later one that is gone. -/
def leftThenGone : FileTree :=
  ⟨⟨.slash, []⟩, [([text "log"], .file (Log.ofEvents
    [⟨9, hashText (text "a"), hashText (text "b"), text "left"⟩,
     ⟨12, hashText (text "a"), hashText (text "b"), text "gone"⟩]))]⟩

def recalling : List Operation := [.compact, .forget 3]

/-- The store of this log, with a limit below zero. -/
def recallingStore : Store :=
  ((Run.start ((Store.new ⟨.workingDirectory, [text "log"]⟩ 0 (-1) true).load leftThenGone
    (.only oneLayout.ids)).store leftThenGone).steps recalling).store

theorem suggestions_known_leftThenGone :
    (∀ o ∈ recalling, o.Recalls (.only oneLayout.ids)) ∧
      (recallingStore.lookup 3 (text "a") (text "b")).1 = .ok (some (text "left")) ∧
      oneLayout.Finds (text "left") := by
  have hrecalls : ∀ o ∈ recalling, o.Recalls (.only oneLayout.ids) := by
    simp [recalling, Operation.Recalls]
  have hanswer : (recallingStore.lookup 3 (text "a") (text "b")).1 = .ok (some (text "left")) := by
    decide +kernel
  obtain ⟨-, hlookup, -⟩ := oneLayout.suggestions_known
    (Store.new ⟨.workingDirectory, [text "log"]⟩ 0 (-1) true) leftThenGone
    (Store.becomes_steps (Run.start _ leftThenGone) recalling) hrecalls
  exact ⟨hrecalls, hanswer, hlookup 3 _ _ _ hanswer⟩

end Catalog

end WindowLayouts
