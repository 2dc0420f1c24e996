import WindowLayouts.Proofs.Restart

/- Compaction cannot be seen. Two runs do the same operations on the same log; one of them also
   compacts, before, between or after them, where the system lets it and where it does not, or loads
   under another threshold. The two hold different events and write different logs, but they answer
   alike at every point. What carries this is that both follow their own logs, and that what they
   answer with and the time of the last event are the same.

     `Store.Alike`              two stores that answer alike
     `Run.Reaches`              runs with compactions among their operations
     `Run.Reaches.alike`        compactions leave runs alike
     `Run.compaction_unseen`    from the first load on, nothing tells the runs apart -/
namespace WindowLayouts

namespace Store

/-- Two stores of one log that answer alike. -/
structure Alike (s s' : Store) : Prop where
  path : s'.path = s.path
  limit : s'.limit = s.limit
  index : Index.Same s.index s'.index
  last : s.events.getLast? = s'.events.getLast?
  session : s.session = s'.session

variable {s s' : Store}

theorem Alike.symm (h : s.Alike s') : s'.Alike s :=
  ⟨h.path.symm, h.limit.symm, h.index.symm, h.last.symm, h.session.symm⟩

theorem Alike.trans {s'' : Store} (h : s.Alike s') (h' : s'.Alike s'') : s.Alike s'' :=
  ⟨h'.path.trans h.path, h'.limit.trans h.limit, h.index.trans h'.index, h.last.trans h'.last,
    h.session.trans h'.session⟩

theorem Alike.nextEvent (h : s.Alike s') (now : Int) (windowClass title layoutId : Text) :
    s.nextEvent now windowClass title layoutId = s'.nextEvent now windowClass title layoutId := by
  unfold Store.nextEvent Store.nextTime
  rw [h.last]

theorem Alike.chosen (h : s.Alike s') (windowId : Int) (e : Event)
    (allowed : Except FileFailure Unit) :
    (s.chosen windowId e allowed).Alike (s'.chosen windowId e allowed) := by
  have hsession : Keyed.set windowId e.layoutId s.session =
      Keyed.set windowId e.layoutId s'.session := by rw [h.session]
  cases allowed with
  | ok done =>
    refine ⟨h.path, h.limit, ?_, ?_, hsession⟩
    · show Index.Same (s.index.record s.limit e) (s'.index.record s'.limit e)
      rw [h.limit]
      exact h.index.record s.limit e
    · show (s.events ++ [e]).getLast? = (s'.events ++ [e]).getLast?
      rw [List.getLast?_concat, List.getLast?_concat]
  | error reason => exact ⟨h.path, h.limit, h.index, h.last, hsession⟩

theorem Alike.forget (h : s.Alike s') (windowId : Int) :
    (s.forget windowId).Alike (s'.forget windowId) := by
  refine ⟨h.path, h.limit, h.index, h.last, ?_⟩
  show Keyed.erase windowId s.session = Keyed.erase windowId s'.session
  rw [h.session]

/-- A store that compacts stays what it was to those who ask. -/
theorem Follows.alike_compact [StackRoom] {known : KnownLayouts} {content : Option Bytes}
    (h : s.Follows known content) (hlimit : 1 ≤ s.limit) (files : FileTree) :
    s.Alike (s.compact files).store := by
  obtain ⟨path, -, limit, -⟩ := Run.sameLog_compact s files
  exact ⟨path, limit, (h.same_compact hlimit files).symm, (h.getLast?_compact files).symm,
    (s.session_compact files).symm⟩

/-- Stores that load logs whose events answer alike are alike. -/
theorem alike_load [StackRoom] {files files' : FileTree} {known : KnownLayouts}
    {content content' : Option Bytes}
    (hpath : s'.path = s.path) (hsame : s'.limit = s.limit) (hlimit : 1 ≤ s.limit)
    (hlog : files.IsLog s.path content) (hlog' : files'.IsLog s'.path content')
    (hreadable : Log.isReadable (content.getD []) = true)
    (hreadable' : Log.isReadable (content'.getD []) = true) (hknown : known.error? = none)
    (hindex : Index.Same (Index.rebuild s.limit (known.eventsOf content))
      (Index.rebuild s'.limit (known.eventsOf content')))
    (hlast : (known.eventsOf content).getLast? = (known.eventsOf content').getLast?) :
    (s.load files known).store.Alike (s'.load files' known).store := by
  obtain ⟨path, -, limit, -⟩ := Run.sameLog_load s files known
  obtain ⟨path', -, limit', -⟩ := Run.sameLog_load s' files' known
  obtain ⟨hix, hev, hse⟩ := load_answers hlog hreadable hknown hlimit
  obtain ⟨hix', hev', hse'⟩ := load_answers hlog' hreadable' hknown (hsame ▸ hlimit)
  refine ⟨?_, ?_, ?_, ?_, ?_⟩
  · rw [path', path, hpath]
  · rw [limit', limit, hsame]
  · exact (hix.trans hindex).trans hix'.symm
  · rw [hev, hev', hlast]
  · rw [hse, hse']

end Store

namespace Run

/-! ## Compactions among operations -/

/-- Runs that do operations in order, with compactions among them. A compaction may be refused by
    the system, which then leaves the log alone and has at most made the directories above it. -/
inductive Reaches [StackRoom] : Run → List Operation → Run → Prop
  | done (r : Run) : Reaches r [] r
  | step {r r' : Run} {o : Operation} {operations : List Operation}
      (h : Reaches (r.step o) operations r') : Reaches r (o :: operations) r'
  | compact {r r' : Run} {operations : List Operation}
      (h : Reaches (r.step .compact) operations r') : Reaches r operations r'
  | refused {r r' : Run} {operations : List Operation} (made : FileTree) (said : Trace)
      (hmade : made = r.files ∨ made = r.files.madeAbove r.store.path)
      (h : Reaches ⟨r.store, made, r.trace ++ said⟩ operations r') : Reaches r operations r'

/-- Two runs on one log whose stores answer alike, and whom the system treats alike. -/
structure Alike [StackRoom] (r r' : Run) : Prop where
  store : r.store.Alike r'.store
  allows : r.files.allows r.store.path = r'.files.allows r'.store.path

variable {r r' : Run} {known : KnownLayouts} {content content' : Option Bytes}

theorem Alike.symm [StackRoom] (h : Alike r r') : Alike r' r := ⟨h.store.symm, h.allows.symm⟩

theorem Alike.after [StackRoom] {α β : Type} {o : Outcome α} {o' : Outcome β}
    (hstore : o.store.Alike o'.store)
    (hallows : o.files.allows o.store.path = o'.files.allows o'.store.path) :
    Alike (r.after o) (r'.after o') :=
  ⟨hstore, hallows⟩

/-- One run compacts and the other does not. -/
theorem Alike.compact [StackRoom] (h : Alike r r') (hr : r'.Follows known content')
    (hlimit : 1 ≤ r'.store.limit) : Alike r (r'.step .compact) := by
  have hcompact := hr.store.alike_compact hlimit r'.files
  refine ⟨h.store.trans hcompact, ?_⟩
  show _ = (r'.store.compact r'.files).files.allows (r'.store.compact r'.files).store.path
  rw [hcompact.path, Store.allows_compact]
  exact h.allows

theorem Alike.refused [StackRoom] (h : Alike r r') {made : FileTree}
    (hmade : made = r'.files ∨ made = r'.files.madeAbove r'.store.path) (said : Trace) :
    Alike r ⟨r'.store, made, r'.trace ++ said⟩ := by
  refine ⟨h.store, ?_⟩
  rcases hmade with rfl | rfl
  · exact h.allows
  · rw [FileTree.allows_madeAbove]
    exact h.allows

theorem Follows.refused [StackRoom] (h : r.Follows known content) {made : FileTree}
    (hmade : made = r.files ∨ made = r.files.madeAbove r.store.path) (said : Trace) :
    Follows ⟨r.store, made, r.trace ++ said⟩ known content := by
  refine ⟨?_, h.store⟩
  rcases hmade with rfl | rfl
  · exact h.log
  · exact h.log.madeAbove

/-! ## The same operation in both runs -/

theorem Alike.load [StackRoom] (h : Alike r r') (hr : r.Follows known content)
    (hr' : r'.Follows known content') (hknown : known.error? = none) (hlimit : 1 ≤ r.store.limit) :
    Alike (r.step (.load known)) (r'.step (.load known)) := by
  obtain ⟨path, -, -, -⟩ := sameLog_load r.store r.files known
  obtain ⟨path', -, -, -⟩ := sameLog_load r'.store r'.files known
  apply Alike.after
  · apply Store.alike_load h.store.path h.store.limit hlimit hr.log hr'.log hr.store.readable
      hr'.store.readable hknown
    · rw [← hr.store.events, ← hr'.store.events, ← hr.store.index, ← hr'.store.index]
      exact h.store.index
    · rw [← hr.store.events, ← hr'.store.events]
      exact h.store.last
  · rw [path, path', Store.allows_load, Store.allows_load]
    exact h.allows

theorem Alike.select [StackRoom] (h : Alike r r') (hr : r.Follows known content)
    (hr' : r'.Follows known content') (now windowId : Int) (windowClass title layoutId : Text) :
    Alike (r.step (.select now windowId windowClass title layoutId))
      (r'.step (.select now windowId windowClass title layoutId)) := by
  cases hclass : windowClass.isEmpty with
  | true =>
    obtain ⟨hstore, hfiles, -⟩ :=
      r.store.select_of_isEmpty r.files now windowId title layoutId hclass
    obtain ⟨hstore', hfiles', -⟩ :=
      r'.store.select_of_isEmpty r'.files now windowId title layoutId hclass
    apply Alike.after
    · rw [hstore, hstore']
      exact h.store
    · rw [hstore, hstore', hfiles, hfiles']
      exact h.allows
  | false =>
    obtain ⟨hstore, -, hallows, -⟩ := Store.select_spec hr.log now windowId title layoutId hclass
    obtain ⟨hstore', -, hallows', -⟩ := Store.select_spec hr'.log now windowId title layoutId hclass
    apply Alike.after
    · rw [hstore, hstore', ← h.store.nextEvent, ← h.allows]
      exact h.store.chosen windowId _ _
    · rw [hstore, hstore', Store.path_chosen, Store.path_chosen, hallows, hallows']
      exact h.allows

theorem Alike.step [StackRoom] (h : Alike r r') (hr : r.Follows known content)
    (hr' : r'.Follows known content') (hknown : known.error? = none) (hlimit : 1 ≤ r.store.limit)
    {o : Operation} (ho : o.IsOrdinary known) : Alike (r.step o) (r'.step o) := by
  cases o with
  | load asked =>
    obtain rfl : asked = known := ho
    exact h.load hr hr' hknown hlimit
  | select now windowId windowClass title layoutId =>
    exact h.select hr hr' now windowId windowClass title layoutId
  | forget windowId => exact ⟨h.store.forget windowId, h.allows⟩
  | compact =>
    have hlimit' : 1 ≤ r'.store.limit := by
      rw [h.store.limit]
      exact hlimit
    exact ((h.compact hr' hlimit').symm.compact hr hlimit).symm

/-! ## Runs -/

/-- Compactions among the operations leave two runs alike. -/
theorem Reaches.alike [StackRoom] {operations : List Operation} {start' reached : Run}
    (hreaches : Reaches start' operations reached) {r : Run} {content content' : Option Bytes}
    (h : Alike r start') (hr : r.Follows known content) (hr' : start'.Follows known content')
    (hknown : known.error? = none) (hlimit : 1 ≤ r.store.limit)
    (hordinary : ∀ o ∈ operations, o.IsOrdinary known) :
    Alike (r.steps operations) reached ∧ (∃ after, (r.steps operations).Follows known after) ∧
      ∃ after', reached.Follows known after' := by
  -- the invariant is that the runs are alike and each follows its own log; while the second run
  -- compacts, the first stands still
  induction hreaches generalizing r content content' with
  | done r' => exact ⟨h, ⟨content, hr⟩, ⟨content', hr'⟩⟩
  | @step r' reached o operations hrest ih =>
    have ho := hordinary o List.mem_cons_self
    obtain ⟨next, hnext⟩ := hr.step hknown ho
    obtain ⟨next', hnext'⟩ := hr'.step hknown ho
    obtain ⟨-, -, limit, -⟩ := sameLog_step r o
    exact ih (h.step hr hr' hknown hlimit ho) hnext hnext' (limit ▸ hlimit)
      fun o' ho' => hordinary o' (List.mem_cons_of_mem o ho')
  | @compact r' reached operations hrest ih =>
    have hlimit' : 1 ≤ r'.store.limit := by
      rw [h.store.limit]
      exact hlimit
    obtain ⟨next', hnext'⟩ := hr'.compact
    exact ih (h.compact hr' hlimit') hr hnext' hlimit hordinary
  | @refused r' reached operations made said hmade hrest ih =>
    exact ih (h.refused hmade said) hr (hr'.refused hmade said) hlimit hordinary

theorem Alike.result_select [StackRoom] (h : Alike r r') (hr : r.Follows known content)
    (hr' : r'.Follows known content') (now windowId : Int) (windowClass title layoutId : Text) :
    (r.store.select r.files now windowId windowClass title layoutId).result =
      (r'.store.select r'.files now windowId windowClass title layoutId).result := by
  cases hclass : windowClass.isEmpty with
  | true =>
    rw [(r.store.select_of_isEmpty r.files now windowId title layoutId hclass).2.2,
      (r'.store.select_of_isEmpty r'.files now windowId title layoutId hclass).2.2]
  | false =>
    rw [(Store.select_spec hr.log now windowId title layoutId hclass).2.1,
      (Store.select_spec hr'.log now windowId title layoutId hclass).2.1, h.allows,
      h.store.nextEvent]

/-- A run answers as one with more compactions, or under another threshold: the indexes and the
    sessions are the same, the next event would be the same and be recorded alike, and so is every
    answer. -/
theorem compaction_unseen [StackRoom] {s s' : Store} {files : FileTree} {known : KnownLayouts}
    {content : Option Bytes} {operations : List Operation} {r' : Run}
    (hlog : files.IsLog s.path content) (hlimit : 1 ≤ s.limit)
    (hload : s.loadError? files known = none) (hknown : known.error? = none)
    (hordinary : ∀ o ∈ operations, o.IsOrdinary known)
    (hpath : s'.path = s.path) (hsame : s'.limit = s.limit)
    (hreaches : Reaches ((start s' files).step (.load known)) operations r') :
    let r := (start s files).steps (.load known :: operations)
    Index.Same r.store.index r'.store.index ∧ r.store.session = r'.store.session ∧
      r.store.events.getLast? = r'.store.events.getLast? ∧
      (∀ now windowClass title layoutId, r.store.nextEvent now windowClass title layoutId =
        r'.store.nextEvent now windowClass title layoutId) ∧
      (∀ now windowId windowClass title layoutId,
        (r.store.select r.files now windowId windowClass title layoutId).result =
          (r'.store.select r'.files now windowId windowClass title layoutId).result) ∧
      (∀ windowId windowClass title, r.store.lookup windowId windowClass title =
        r'.store.lookup windowId windowClass title) ∧
      ∀ windowClass, r.store.recent windowClass = r'.store.recent windowClass := by
  intro r
  have hreadable := Store.isReadable_of_loadError? hlog hload
  have hlog' : files.IsLog s'.path content := by
    rw [hpath]
    exact hlog
  obtain ⟨loaded, hloaded⟩ := follows_load (r := start s files) hlog hreadable hknown
  obtain ⟨loaded', hloaded'⟩ := follows_load (r := start s' files) hlog' hreadable hknown
  obtain ⟨path, -, limit, -⟩ := sameLog_load s files known
  obtain ⟨path', -, -, -⟩ := sameLog_load s' files known
  have hfirst : Alike ((start s files).step (.load known))
      ((start s' files).step (.load known)) := by
    apply Alike.after
    · apply Store.alike_load hpath hsame hlimit hlog hlog' hreadable hreadable hknown
      · rw [hsame]
        exact Index.Same.refl _
      · rfl
    · show (s.load files known).files.allows (s.load files known).store.path =
        (s'.load files known).files.allows (s'.load files known).store.path
      rw [path, path', Store.allows_load, Store.allows_load, hpath]
  obtain ⟨hlast, ⟨after, hr⟩, ⟨after', hr'⟩⟩ :=
    hreaches.alike hfirst hloaded hloaded' hknown (limit ▸ hlimit) hordinary
  refine ⟨hlast.store.index, hlast.store.session, hlast.store.last, hlast.store.nextEvent,
    hlast.result_select hr hr', ?_, ?_⟩
  · intro windowId windowClass title
    exact Store.lookup_congr hlast.store.index (by rw [hlast.store.session]) windowClass title
  · exact Store.recent_congr hlast.store.index

/-- The small store at work under a threshold that compacts at once, with compactions around the
    choices. -/
def compactingRun : Run :=
  (start (smallStore 0) smallFiles).steps (.load .all :: .compact :: (twoChoices ++ [.compact]))

theorem compaction_unseen_smallRun :
    Index.Same smallRun.store.index compactingRun.store.index ∧
      smallRun.store.lookup 1 (text "a") (text "b") =
        compactingRun.store.lookup 1 (text "a") (text "b") := by
  have hreaches : Reaches ((start (smallStore 0) smallFiles).step (.load .all)) twoChoices
      compactingRun :=
    .compact (.step (.step (.step (.step (.compact (.done _))))))
  obtain ⟨hindex, -, -, -, -, hlookup, -⟩ :=
    compaction_unseen (isLog_smallFiles 9) (by decide) (by decide +kernel) rfl
      (show ∀ o ∈ twoChoices, o.IsOrdinary .all by decide +kernel)
      (show (smallStore 0).path = (smallStore 9).path from rfl) rfl hreaches
  exact ⟨hindex, hlookup 1 _ _⟩

end Run

end WindowLayouts
