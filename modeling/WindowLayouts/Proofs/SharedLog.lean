import Mathlib.Logic.Function.Basic
import WindowLayouts.Proofs.Restart

/- Several stores at one log. Each knows only the events that it loaded or recorded itself, and its
   clock is its own, yet no call takes away what another one wrote: as long as nobody compacts, the
   log decodes to what it held at first and then to what was recorded, in the order of the calls. A
   store never records an event before one of its own, so that its events stay in their order when
   all of them are sorted by time.

     `Store.advances_step`         what one call does to its store and to the log
     `SharedLog.Holds.steps`       the invariant of all stores, over any interleaving
     `SharedLog.no_update_lost`    what a load gives after it -/
namespace WindowLayouts

/-! ## One call -/

namespace Store

/-- The event that an operation records: that of a choice, if it could be appended to the log. -/
def recorded? [StackRoom] (s : Store) (files : FileTree) : Operation → Option Event
  | .select now _ windowClass title layoutId =>
    if windowClass.isEmpty then none
    else
      let e := s.nextEvent now windowClass title layoutId
      match (s.appendToLog files e).2 with
      | .ok () => some e
      | .error _ => none
  | _ => none

/-- A load of some events that neither prunes nor compacts. -/
structure Spares (s : Store) (known : KnownLayouts) (events : List Event) : Prop where
  told : known.error? = none
  knows : ∀ e ∈ events, known.knows e.layoutId = true
  few : (events.length : Int) ≤ s.threshold

/-- An operation that leaves the events of a log where they are. What it records can be stored. -/
def Adds (s : Store) (events : List Event) : Operation → Prop
  | .load known => s.Spares known events
  | .select now _ windowClass _ layoutId =>
    windowClass.isEmpty = true ∨
      (Double.ofInt now).isFinite = true ∧ layoutId.hasPair = false
  | .forget _ => True
  | .compact => False

variable {s : Store} {files : FileTree} {known : KnownLayouts} {content : Option Bytes}

theorem Spares.eventsOf [StackRoom] (h : s.Spares known (Log.decoded (content.getD []))) :
    known.eventsOf content = (Log.decoded (content.getD [])).mergeSort Event.notAfter := by
  rw [KnownLayouts.eventsOf, KnownLayouts.select_eq_filter, List.filter_eq_self.mpr h.knows]

theorem Spares.load [StackRoom] (h : s.Spares known (Log.decoded (content.getD [])))
    (hlog : files.IsLog s.path content) (hreadable : Log.isReadable (content.getD []) = true) :
    (s.load files known).store.events =
        (Log.decoded (content.getD [])).mergeSort Event.notAfter ∧
      (s.load files known).files = files := by
  rcases load_cases hlog hreadable h.told with ⟨hstore, hfiles⟩ | ⟨hlong, -, -⟩
  · rw [hstore]
    exact ⟨h.eventsOf, hfiles⟩
  · have hfew := h.few
    rw [h.eventsOf, List.length_mergeSort] at hlong
    omega

/-- Where a call leaves its store and the log: the log decodes to what it did before and to what was
    recorded, if anything was. The store has that event at the end of its events too, or it has all
    events of the log. -/
structure Advances [StackRoom] (s : Store) (content : Option Bytes) (recorded : Option Event)
    (r : Run) (content' : Option Bytes) : Prop where
  log : r.files.IsLog s.path content'
  readable : Log.isReadable (content'.getD []) = true
  grows : content.getD [] <+: content'.getD []
  decoded : Log.decoded (content'.getD []) = Log.decoded (content.getD []) ++ recorded.toList
  storable : ∀ e ∈ recorded, e.Storable
  latest : ∀ e ∈ recorded, ∀ old ∈ s.events, old.time ≤ e.time
  events : r.store.events = s.events ++ recorded.toList ∨
    recorded = none ∧
      r.store.events = (Log.decoded (content'.getD [])).mergeSort Event.notAfter

/-- A call that records nothing and leaves the log alone. -/
theorem advances_none [StackRoom] {r : Run} (hlog : r.files.IsLog s.path content)
    (hreadable : Log.isReadable (content.getD []) = true)
    (hevents : r.store.events = s.events ∨
      r.store.events = (Log.decoded (content.getD [])).mergeSort Event.notAfter) :
    s.Advances content none r content := by
  refine ⟨hlog, hreadable, List.prefix_rfl, by simp, by simp, by simp, ?_⟩
  rcases hevents with hevents | hevents
  · exact Or.inl (by simp [hevents])
  · exact Or.inr ⟨rfl, hevents⟩

theorem advances_select [StackRoom] (hconsistent : s.Consistent)
    (hfinite : ∀ e ∈ s.events, (Double.ofInt e.time).isFinite = true)
    (hlog : files.IsLog s.path content) (hreadable : Log.isReadable (content.getD []) = true)
    {now windowId : Int} {windowClass title layoutId : Text}
    (hadds : s.Adds (Log.decoded (content.getD []))
      (.select now windowId windowClass title layoutId)) :
    ∃ content', s.Advances content
      (s.recorded? files (.select now windowId windowClass title layoutId))
      ((Run.start s files).step (.select now windowId windowClass title layoutId)) content' := by
  rw [recorded?]
  cases hclass : windowClass.isEmpty with
  | true =>
    obtain ⟨hstore, hfiles, -⟩ := s.select_of_isEmpty files now windowId title layoutId hclass
    have hafter : (s.select files now windowId windowClass title layoutId).files.IsLog s.path
        content := hfiles.symm ▸ hlog
    exact ⟨content, advances_none hafter hreadable (Or.inl (congrArg Store.events hstore))⟩
  | false =>
    obtain ⟨hnow, hlayout⟩ := hadds.resolve_left (by simp [hclass])
    obtain ⟨hstore, -, -, his⟩ := select_spec hlog now windowId title layoutId hclass
    obtain ⟨files', happend, -, -⟩ :=
      appendToLog_spec hlog (s.nextEvent now windowClass title layoutId)
    have hstorable := s.storable_nextEvent hnow hlayout hfinite windowClass title
    rw [Event.written_of_isShowable hstorable.isShowable] at hstore happend
    simp only [Bool.false_eq_true, if_false, happend]
    cases hallows : files.allows s.path with
    | error reason =>
      rw [hallows] at hstore his
      have hevents := congrArg Store.events hstore
      exact ⟨content, advances_none his hreadable (Or.inl hevents)⟩
    | ok done =>
      rw [hallows] at hstore his
      rw [Log.grown_of_isShowable hstorable.isShowable] at his
      refine ⟨_, his, Log.isReadable_append hreadable hstorable, List.prefix_append _ _, ?_, ?_,
        ?_, Or.inl (congrArg Store.events hstore)⟩
      · show Log.decoded (Log.append _ _) = _
        rw [Log.decoded_append, hstorable.decoded?]
      · rintro e ⟨rfl⟩
        exact hstorable
      · rintro e ⟨rfl⟩ old hold
        exact hconsistent.le_nextTime now hold

theorem advances_step [StackRoom] (hconsistent : s.Consistent)
    (hfinite : ∀ e ∈ s.events, (Double.ofInt e.time).isFinite = true)
    (hlog : files.IsLog s.path content) (hreadable : Log.isReadable (content.getD []) = true)
    {o : Operation} (hadds : s.Adds (Log.decoded (content.getD [])) o) :
    ∃ content', s.Advances content (s.recorded? files o) ((Run.start s files).step o) content' := by
  cases o with
  | load known =>
    obtain ⟨hevents, hfiles⟩ := Spares.load hadds hlog hreadable
    exact ⟨content, advances_none (show (s.load _ _).files.IsLog _ _ from hfiles.symm ▸ hlog)
      hreadable (Or.inr hevents)⟩
  | select now windowId windowClass title layoutId =>
    exact advances_select hconsistent hfinite hlog hreadable hadds
  | forget windowId => exact ⟨content, advances_none hlog hreadable (Or.inl rfl)⟩
  | compact => exact hadds.elim

/-! ## What a store remembers -/

/-- A store of a log where it recorded some events: these are in order, and the store has an event
    that is not before any of them. -/
structure Remembers (s : Store) (path : Path) (own : List Event) : Prop where
  path : s.path = path
  consistent : s.Consistent
  finite : ∀ e ∈ s.events, (Double.ofInt e.time).isFinite = true
  ordered : Event.TimeOrdered own
  latest : ∀ e ∈ own, ∃ later ∈ s.events, e.time ≤ later.time

theorem remembers_new (path : Path) (threshold limit : Int) (onBus : Bool) :
    (Store.new path threshold limit onBus).Remembers path [] :=
  ⟨rfl, consistent_new path threshold limit onBus, nofun, List.Pairwise.nil, nofun⟩

theorem Remembers.advance [StackRoom] {path : Path} {own : List Event} {recorded : Option Event}
    {r : Run} {content' : Option Bytes} (h : s.Remembers path own)
    (hadvance : s.Advances content recorded r content') (hpath : r.store.path = s.path)
    (hconsistent : r.store.Consistent) (hown : ∀ e ∈ own, e ∈ Log.decoded (content.getD [])) :
    r.store.Remembers path (own ++ recorded.toList) := by
  refine ⟨hpath.trans h.path, hconsistent, ?_, ?_, ?_⟩
  · intro e he
    rcases hadvance.events with hevents | ⟨-, hevents⟩
    · rw [hevents, List.mem_append, Option.mem_toList] at he
      rcases he with he | he
      · exact h.finite e he
      · exact (hadvance.storable e he).time
    · rw [hevents, List.mem_mergeSort] at he
      exact (Log.storable_of_mem_decoded he).time
  · cases recorded with
    | none => simpa using h.ordered
    | some e =>
      refine h.ordered.append ?_
      intro old hold
      obtain ⟨later, hlater, hle⟩ := h.latest old hold
      exact Int.le_trans hle (hadvance.latest e rfl later hlater)
  · intro e he
    rcases hadvance.events with hevents | ⟨hnone, hevents⟩
    · rw [hevents]
      rw [List.mem_append] at he
      rcases he with he | he
      · obtain ⟨later, hlater, hle⟩ := h.latest e he
        exact ⟨later, List.mem_append_left _ hlater, hle⟩
      · exact ⟨e, List.mem_append_right _ he, Int.le_refl _⟩
    · -- everything that was recorded is in the log, and so in the store
      subst hnone
      have hlogged : e ∈ Log.decoded (content'.getD []) := by
        rw [hadvance.decoded]
        exact List.mem_append_left _ (hown e (by simpa using he))
      rw [hevents]
      exact ⟨e, List.mem_mergeSort.mpr hlogged, Int.le_refl _⟩

end Store

/-! ## All stores -/

/-- Stores that work on the same files, and what they recorded: each event with the store that
    recorded it, in the order of the calls. -/
structure SharedLog (ι : Type) where
  stores : ι → Store
  files : FileTree
  recorded : List (ι × Event)

namespace SharedLog

variable {ι : Type} [DecidableEq ι]

/-- One call of one store. -/
def step [StackRoom] (w : SharedLog ι) (call : ι × Operation) : SharedLog ι :=
  let r := (Run.start (w.stores call.1) w.files).step call.2
  ⟨Function.update w.stores call.1 r.store, r.files,
    w.recorded ++ ((w.stores call.1).recorded? w.files call.2).toList.map fun e => (call.1, e)⟩

/-- Calls of the stores, in any order. -/
def steps [StackRoom] (w : SharedLog ι) (calls : List (ι × Operation)) : SharedLog ι :=
  calls.foldl step w

/-- All events that were recorded. -/
def events (w : SharedLog ι) : List Event := w.recorded.map (·.2)

/-- The events that one store recorded. -/
def own (w : SharedLog ι) (i : ι) : List Event :=
  (w.recorded.filter fun r => r.1 = i).map (·.2)

/-- Calls of which none prunes or compacts the log at a path, whatever it holds by then. -/
def OnlyAdds [StackRoom] (w : SharedLog ι) (path : Path) : List (ι × Operation) → Prop
  | [] => True
  | call :: rest =>
    (w.stores call.1).Adds (Log.decoded ((w.files.log? path).getD [])) call.2 ∧
      (w.step call).OnlyAdds path rest

theorem own_sublist_events (w : SharedLog ι) (i : ι) : (w.own i).Sublist w.events :=
  List.filter_sublist.map _

theorem events_step [StackRoom] (w : SharedLog ι) (call : ι × Operation) :
    (w.step call).events =
      w.events ++ ((w.stores call.1).recorded? w.files call.2).toList := by
  simp [events, step, Function.comp_def]

theorem own_step_self [StackRoom] (w : SharedLog ι) (i : ι) (o : Operation) :
    (w.step (i, o)).own i = w.own i ++ ((w.stores i).recorded? w.files o).toList := by
  simp [own, step, Function.comp_def, List.filter_map]

theorem own_step_of_ne [StackRoom] (w : SharedLog ι) {i j : ι} (h : i ≠ j) (o : Operation) :
    (w.step (i, o)).own j = w.own j := by
  simp [own, step, Function.comp_def, List.filter_map, h]

/-! ## Every interleaving -/

/-- The stores of a log, which held something before their calls: it grew by what was recorded, in
    the order of the calls, and each store remembers its own. -/
structure Holds [StackRoom] (w : SharedLog ι) (path : Path)
    (before content : Option Bytes) : Prop where
  log : w.files.IsLog path content
  readable : Log.isReadable (content.getD []) = true
  grows : before.getD [] <+: content.getD []
  decoded : Log.decoded (content.getD []) = Log.decoded (before.getD []) ++ w.events
  stores : ∀ i, (w.stores i).Remembers path (w.own i)

variable {w : SharedLog ι} {path : Path} {before content : Option Bytes}

theorem holds_start [StackRoom] (hlog : w.files.IsLog path content)
    (hreadable : Log.isReadable (content.getD []) = true) (hnew : w.recorded = [])
    (hstores : ∀ i, (w.stores i).Remembers path []) : w.Holds path content content := by
  refine ⟨hlog, hreadable, List.prefix_rfl, ?_, ?_⟩
  · simp [events, hnew]
  · intro i
    simpa [own, hnew] using hstores i

theorem Holds.step [StackRoom] (h : w.Holds path before content) {call : ι × Operation}
    (hadds : (w.stores call.1).Adds (Log.decoded (content.getD [])) call.2) :
    ∃ content', (w.step call).Holds path before content' := by
  obtain ⟨i, o⟩ := call
  have hi := h.stores i
  have hlog : w.files.IsLog (w.stores i).path content := hi.path.symm ▸ h.log
  obtain ⟨content', hadvance⟩ :=
    Store.advances_step hi.consistent hi.finite hlog h.readable hadds
  have hfirst : (w.step (i, o)).files.IsLog path content' := hi.path ▸ hadvance.log
  refine ⟨content', hfirst, hadvance.readable, h.grows.trans hadvance.grows, ?_, ?_⟩
  · rw [hadvance.decoded, h.decoded, events_step, List.append_assoc]
  · intro j
    by_cases hj : i = j
    · subst hj
      have hown : ∀ e ∈ w.own i, e ∈ Log.decoded (content.getD []) := by
        intro e he
        rw [h.decoded]
        exact List.mem_append_right _ ((w.own_sublist_events i).subset he)
      have hstore : (w.step (i, o)).stores i = ((Run.start (w.stores i) w.files).step o).store :=
        Function.update_self _ _ _
      rw [hstore, own_step_self]
      exact hi.advance hadvance (Run.sameLog_step (Run.start (w.stores i) w.files) o).1
        (Run.consistent_step hi.consistent o) hown
    · have hstore : (w.step (i, o)).stores j = w.stores j :=
        Function.update_of_ne (Ne.symm hj) _ _
      rw [hstore, w.own_step_of_ne hj]
      exact h.stores j

theorem Holds.steps [StackRoom] (h : w.Holds path before content) {calls : List (ι × Operation)}
    (hcalls : w.OnlyAdds path calls) :
    ∃ content', (w.steps calls).Holds path before content' := by
  induction calls generalizing w content with
  | nil => exact ⟨content, h⟩
  | cons call rest ih =>
    obtain ⟨hadds, hrest⟩ := hcalls
    rw [h.log.now] at hadds
    obtain ⟨between, hstep⟩ := h.step hadds
    exact ih hstep hrest

/-- Calls that ask for no known layouts only add, as long as there are fewer events and calls
    together than the thresholds. -/
theorem Holds.onlyAdds [StackRoom] (h : w.Holds path before content) {calls : List (ι × Operation)}
    (hcalls : ∀ call ∈ calls, call.2.IsOrdinary .all ∧ call.2 ≠ .compact)
    (hfew : ∀ i, ((Log.decoded (content.getD [])).length + calls.length : Int) ≤
      (w.stores i).threshold) : w.OnlyAdds path calls := by
  induction calls generalizing w content with
  | nil => trivial
  | cons call rest ih =>
    obtain ⟨hordinary, hcompact⟩ := hcalls call List.mem_cons_self
    rw [List.length_cons] at hfew
    have hadds : (w.stores call.1).Adds (Log.decoded (content.getD [])) call.2 := by
      obtain ⟨i, o⟩ := call
      cases o with
      | load known =>
        refine ⟨congrArg KnownLayouts.error? hordinary, ?_, ?_⟩
        · intro e _
          rw [show known = .all from hordinary]
          rfl
        · have hi := hfew i
          dsimp only
          omega
      | select now windowId windowClass title layoutId =>
        exact hordinary.imp_right fun hchoice => ⟨hchoice.1, hchoice.2.1⟩
      | forget windowId => trivial
      | compact => exact absurd rfl hcompact
    obtain ⟨between, hstep⟩ := h.step hadds
    refine ⟨h.log.now.symm ▸ hadds, ih hstep ?_ ?_⟩
    · exact fun c hc => hcalls c (List.mem_cons_of_mem call hc)
    intro i
    have hlength : (Log.decoded (between.getD [])).length ≤
        (Log.decoded (content.getD [])).length + 1 := by
      rw [hstep.decoded, h.decoded, events_step, ← List.append_assoc, List.length_append]
      exact Nat.add_le_add_left Option.length_toList_le _
    have hthreshold : ((w.step call).stores i).threshold = (w.stores i).threshold := by
      by_cases hi : call.1 = i
      · subst hi
        show (Function.update w.stores call.1 _ call.1).threshold = _
        rw [Function.update_self]
        exact (Run.sameLog_step (Run.start (w.stores call.1) w.files) call.2).2.1
      · show (Function.update w.stores call.1 _ i).threshold = _
        rw [Function.update_of_ne (Ne.symm hi)]
    have hi := hfew i
    rw [hthreshold]
    omega

/-- However the calls of some stores alternate, a load gives the events that the log held at first
    and then all that were recorded, sorted by time. -/
theorem no_update_lost [StackRoom] {last : Store} {known : KnownLayouts} {content : Option Bytes}
    {calls : List (ι × Operation)} (hlog : w.files.IsLog last.path content)
    (hload : last.loadError? w.files .all = none) (hnew : w.recorded = [])
    (hstores : ∀ i, (w.stores i).Remembers last.path []) (hcalls : w.OnlyAdds last.path calls)
    (hlast : last.Spares known (Log.decoded (content.getD []) ++ (w.steps calls).events)) :
    let w' := w.steps calls
    let loaded := (last.load w'.files known).store.events
    loaded = (Log.decoded (content.getD []) ++ w'.events).mergeSort Event.notAfter ∧
      (∀ i, (w'.own i).Sublist loaded) ∧
      ∃ content', w'.files.log? last.path = content' ∧ content.getD [] <+: content'.getD [] ∧
        Log.decoded (content'.getD []) = Log.decoded (content.getD []) ++ w'.events := by
  intro w' loaded
  have hreadable := Store.isReadable_of_loadError? hlog hload
  obtain ⟨content', h⟩ := (holds_start hlog hreadable hnew hstores).steps hcalls
  rw [← h.decoded] at hlast
  have hloaded :
      loaded = (Log.decoded (content.getD []) ++ w'.events).mergeSort Event.notAfter := by
    rw [← h.decoded]
    exact (hlast.load h.log h.readable).1
  refine ⟨hloaded, ?_, content', h.log.now, h.grows, h.decoded⟩
  intro i
  have hown : (w'.own i).Sublist (Log.decoded (content.getD []) ++ w'.events) :=
    (w'.own_sublist_events i).trans (List.sublist_append_right _ _)
  rw [hloaded]
  exact List.sublist_mergeSort Event.notAfter_trans Event.notAfter_total
    (Event.timeOrdered_iff.mp (h.stores i).ordered) hown

/-- Two new stores at the small log. -/
def twoStores : SharedLog Bool := ⟨fun _ => Run.smallStore 9, Run.smallFiles, []⟩

/-- Both record under clocks that go back, and only one of them loads the log first. -/
def alternating : List (Bool × Operation) :=
  [(true, .load .all), (false, .select 5 1 (text "a") (text "b") (text "x")),
   (true, .select 3 1 (text "a") (text "b") (text "y")),
   (false, .select 4 2 (text "a") (text "c") (text "z")), (false, .load .all)]

theorem no_update_lost_alternating :
    ((Run.smallStore 9).load (twoStores.steps alternating).files .all).store.events =
        (Log.decoded Run.smallLog ++ (twoStores.steps alternating).events).mergeSort
          Event.notAfter ∧
      (twoStores.steps alternating).events.map (·.time) = [5, 9, 5] := by
  have hlog : twoStores.files.IsLog (Run.smallStore 9).path (some Run.smallLog) :=
    Run.isLog_smallFiles 9
  have hload : (Run.smallStore 9).loadError? twoStores.files .all = none := by decide +kernel
  have hstores : ∀ i, (twoStores.stores i).Remembers (Run.smallStore 9).path [] :=
    fun _ => Store.remembers_new _ 9 2 false
  have hone : (Log.decoded Run.smallLog).length = 1 := by decide +kernel
  have hstart := holds_start hlog (Store.isReadable_of_loadError? hlog hload) rfl hstores
  have hcalls : twoStores.OnlyAdds (Run.smallStore 9).path alternating := by
    apply hstart.onlyAdds
    · decide +kernel
    · intro i
      rw [Option.getD_some, hone]
      show ((1 : Nat) : Int) + (5 : Nat) ≤ 9
      decide
  have htimes : (twoStores.steps alternating).events.map (·.time) = [5, 9, 5] := by
    decide +kernel
  have hthree : (twoStores.steps alternating).events.length = 3 := by
    simpa using congrArg List.length htimes
  have hlast : (Run.smallStore 9).Spares .all
      (Log.decoded ((some Run.smallLog).getD []) ++ (twoStores.steps alternating).events) := by
    refine ⟨rfl, fun _ _ => rfl, ?_⟩
    rw [Option.getD_some, List.length_append, hone, hthree]
    decide
  exact ⟨(no_update_lost hlog hload rfl hstores hcalls hlast).1, htimes⟩

end SharedLog

end WindowLayouts
