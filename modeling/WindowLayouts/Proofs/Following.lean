import WindowLayouts.Proofs.Consistency
import WindowLayouts.Proofs.Thinning

/- A store follows its log: its events are those that loading the log anew would give, in the same
   order, and its index is the index of these events. Loading begins this, and recording, forgetting
   and compacting keep it, whatever the clock does: an event is never recorded before the last one,
   so that it goes to the end in the store as it does in the log.

     `Store.Follows`            the invariant
     `Run.follows_load`         loading a log that can be read begins it
     `Run.Follows.steps`        a run keeps it -/
namespace WindowLayouts

namespace KnownLayouts

/-- Whether a layout counts as known. -/
def knows : KnownLayouts → Text → Bool
  | .only ids, layoutId => ids.contains layoutId
  | _, _ => true

theorem select_eq_filter (known : KnownLayouts) (events : List Event) :
    known.select events = events.filter fun e => known.knows e.layoutId := by
  cases known with
  | only ids => rfl
  | _ => exact (List.filter_eq_self.mpr fun _ _ => rfl).symm

theorem select_append (known : KnownLayouts) (events : List Event) {e : Event}
    (h : known.knows e.layoutId = true) :
    known.select (events ++ [e]) = known.select events ++ [e] := by
  have hone : [e].filter (fun e => known.knows e.layoutId) = [e] := List.filter_cons_of_pos h
  rw [select_eq_filter, select_eq_filter, List.filter_append, hone]

/-- The events that a log gives when it is loaded. -/
def eventsOf [StackRoom] (known : KnownLayouts) (content : Option Bytes) : List Event :=
  (known.select (Log.decoded (content.getD []))).mergeSort Event.notAfter

theorem eventsOf_none [StackRoom] (known : KnownLayouts) : known.eventsOf none = [] := by
  have hdecoded : Log.decoded [] = [] := rfl
  rw [eventsOf, Option.getD_none, hdecoded, select_eq_filter]
  exact List.mergeSort_nil

theorem mem_eventsOf [StackRoom] {known : KnownLayouts} {content : Option Bytes} {e : Event}
    (h : e ∈ known.eventsOf content) :
    e ∈ Log.decoded (content.getD []) ∧ known.knows e.layoutId = true := by
  rw [eventsOf, List.mem_mergeSort, select_eq_filter] at h
  exact List.mem_filter.mp h

theorem storable_of_mem_eventsOf [StackRoom] {known : KnownLayouts} {content : Option Bytes}
    {e : Event} (h : e ∈ known.eventsOf content) : e.Storable :=
  Log.storable_of_mem_decoded (mem_eventsOf h).1

end KnownLayouts

/-- The operations of an ordinary run: loads ask for the same layouts each time, and what is
    recorded can be stored and is known. Nothing is recorded for a window without a class. -/
def Operation.IsOrdinary (known : KnownLayouts) : Operation → Prop
  | .load asked => asked = known
  | .select now _ windowClass _ layoutId =>
    windowClass.isEmpty = true ∨
      (Double.ofInt now).isFinite = true ∧ layoutId.hasPair = false ∧ known.knows layoutId = true
  | _ => True

instance (known : KnownLayouts) (o : Operation) : Decidable (o.IsOrdinary known) :=
  match o with
  | .load asked => inferInstanceAs (Decidable (asked = known))
  | .select now _ windowClass _ layoutId =>
    inferInstanceAs (Decidable (windowClass.isEmpty = true ∨
      (Double.ofInt now).isFinite = true ∧ layoutId.hasPair = false ∧
        known.knows layoutId = true))
  | .forget _ => isTrue trivial
  | .compact => isTrue trivial

namespace Store

/-! ## What a store follows -/

/-- The store holds what loading a log of some content would give. -/
structure Follows [StackRoom] (s : Store) (known : KnownLayouts)
    (content : Option Bytes) : Prop where
  readable : Log.isReadable (content.getD []) = true
  events : s.events = known.eventsOf content
  index : s.index = Index.rebuild s.limit s.events

variable {s : Store} {known : KnownLayouts} {content : Option Bytes}

theorem Follows.timeOrdered [StackRoom] (h : s.Follows known content) :
    Event.TimeOrdered s.events := by
  rw [h.events]
  exact Event.timeOrdered_mergeSort _

theorem Follows.storable [StackRoom] (h : s.Follows known content) {e : Event} (he : e ∈ s.events) :
    e.Storable := by
  rw [h.events] at he
  exact KnownLayouts.storable_of_mem_eventsOf he

theorem Follows.knows [StackRoom] (h : s.Follows known content) {e : Event} (he : e ∈ s.events) :
    known.knows e.layoutId = true := by
  rw [h.events] at he
  exact (KnownLayouts.mem_eventsOf he).2

/-- The session is no part of what follows the log. -/
theorem Follows.withSession [StackRoom] (h : s.Follows known content)
    (session : List (Int × Text)) :
    { s with session := session }.Follows known content :=
  ⟨h.readable, h.events, h.index⟩

/-! ## Recording -/

theorem Follows.consistent [StackRoom] (h : s.Follows known content) : s.Consistent :=
  ⟨h.timeOrdered, h.index⟩

theorem Follows.le_nextTime [StackRoom] (h : s.Follows known content) (now : Int) {old : Event}
    (hold : old ∈ s.events) : old.time ≤ s.nextTime now :=
  h.consistent.le_nextTime now hold

/-- The time of the next event is that of the clock, or of an event that the store has. -/
theorem forall_nextTime (s : Store) {P : Int → Prop} {now : Int} (hnow : P now)
    (hevents : ∀ e ∈ s.events, P e.time) : P (s.nextTime now) := by
  unfold nextTime
  cases hlast : s.events.getLast? with
  | none => exact hnow
  | some last =>
    have hlast := hevents last (List.mem_of_getLast? hlast)
    dsimp only
    split
    · exact hlast
    · exact hnow

theorem isFinite_nextTime (s : Store) {now : Int} (hnow : (Double.ofInt now).isFinite = true)
    (hevents : ∀ e ∈ s.events, (Double.ofInt e.time).isFinite = true) :
    (Double.ofInt (s.nextTime now)).isFinite = true :=
  s.forall_nextTime (P := fun time => (Double.ofInt time).isFinite = true) hnow hevents

theorem storable_nextEvent (s : Store) {now : Int} {layoutId : Text}
    (hnow : (Double.ofInt now).isFinite = true) (hlayout : layoutId.hasPair = false)
    (hevents : ∀ e ∈ s.events, (Double.ofInt e.time).isFinite = true) (windowClass title : Text) :
    (s.nextEvent now windowClass title layoutId).Storable :=
  ⟨s.isFinite_nextTime hnow hevents, Event.hasPair_hashText windowClass,
    Event.hasPair_hashText title, hlayout⟩

theorem Follows.storable_nextEvent [StackRoom] (h : s.Follows known content) {now : Int}
    {layoutId : Text}
    (hnow : (Double.ofInt now).isFinite = true) (hlayout : layoutId.hasPair = false)
    (windowClass title : Text) : (s.nextEvent now windowClass title layoutId).Storable :=
  s.storable_nextEvent hnow hlayout (fun _ he => (h.storable he).time) windowClass title

/-- An event that is not before the last one is the last in the store and in the log. -/
theorem Follows.withEvent [StackRoom] (h : s.Follows known content) {e : Event}
    (hstorable : e.Storable)
    (hknows : known.knows e.layoutId = true) (hlatest : ∀ old ∈ s.events, old.time ≤ e.time) :
    (s.withEvent e).Follows known (some (Log.append (content.getD []) e)) := by
  refine ⟨Log.isReadable_append h.readable hstorable, ?_, ?_⟩
  · have hselected : ∀ old ∈ known.select (Log.decoded (content.getD [])), old.time ≤ e.time := by
      intro old hold
      apply hlatest
      rw [h.events, KnownLayouts.eventsOf, List.mem_mergeSort]
      exact hold
    show s.events ++ [e] = _
    rw [KnownLayouts.eventsOf, Option.getD_some, Log.decoded_append, hstorable.decoded?,
      Option.toList_some, KnownLayouts.select_append _ _ hknows, Event.mergeSort_append hselected,
      h.events, KnownLayouts.eventsOf]
  · show s.index.record s.limit e = Index.rebuild s.limit (s.events ++ [e])
    rw [Index.rebuild_append, h.index]

theorem Follows.chosen [StackRoom] (h : s.Follows known content) {e : Event}
    (hstorable : e.Storable)
    (hknows : known.knows e.layoutId = true) (hlatest : ∀ old ∈ s.events, old.time ≤ e.time)
    (windowId : Int) (allowed : Except FileFailure Unit) :
    (s.chosen windowId e allowed).Follows known (Log.grown content e allowed) := by
  cases allowed with
  | ok done =>
    rw [Log.grown_of_isShowable hstorable.isShowable]
    exact (h.withSession _).withEvent hstorable hknows hlatest
  | error reason => exact h.withSession _

/-! ## Compacting -/

/-- What is kept of events in order is in order already. -/
theorem Consistent.kept_eq_thin (h : s.Consistent) : s.kept = s.index.thin s.events :=
  Event.mergeSort_eq (h.ordered.sublist (s.index.thin_sublist s.events))

theorem Follows.kept_eq_thin [StackRoom] (h : s.Follows known content) :
    s.kept = s.index.thin s.events :=
  h.consistent.kept_eq_thin

theorem mem_events_of_mem_kept {e : Event} (he : e ∈ s.kept) : e ∈ s.events :=
  (s.index.thin_sublist s.events).subset (List.mem_mergeSort.mp he)

/-- What is kept is what the new log gives. -/
theorem Follows.withKept [StackRoom] (h : s.Follows known content) :
    (s.withEvents s.kept).Follows known (some (Log.ofEvents s.kept)) := by
  have hstorable : ∀ e ∈ s.kept, e.Storable := fun e he => h.storable (mem_events_of_mem_kept he)
  have hknows : s.kept.filter (fun e => known.knows e.layoutId) = s.kept :=
    List.filter_eq_self.mpr fun e he => h.knows (mem_events_of_mem_kept he)
  refine ⟨Log.isReadable_ofEvents hstorable, ?_, rfl⟩
  show s.kept = _
  rw [KnownLayouts.eventsOf, Option.getD_some, Log.decoded_ofEvents_of_storable hstorable,
    KnownLayouts.select_eq_filter, hknows]
  exact (Event.mergeSort_eq (Event.timeOrdered_mergeSort _)).symm

/-! ## Loading -/

/-- A store that took up what a log gives. -/
def taken [StackRoom] (s : Store) (known : KnownLayouts) (content : Option Bytes) : Store :=
  s.reset.withEvents (known.eventsOf content)

theorem follows_taken [StackRoom] (s : Store) (known : KnownLayouts)
    (hreadable : Log.isReadable (content.getD []) = true) :
    (s.taken known content).Follows known content :=
  ⟨hreadable, rfl, rfl⟩

/-- Loading takes up what the log gives, and may then compact. -/
theorem load_cases [StackRoom] {files : FileTree} (hlog : files.IsLog s.path content)
    (hreadable : Log.isReadable (content.getD []) = true) (hknown : known.error? = none) :
    ((s.load files known).store = s.taken known content ∧ (s.load files known).files = files) ∨
    (s.threshold < (known.eventsOf content).length ∧
      (s.load files known).store = ((s.taken known content).compact files).store ∧
      (s.load files known).files = ((s.taken known content).compact files).files) := by
  have hload := s.load_spec files known
  rw [hlog.now] at hload
  cases content with
  | none =>
    obtain ⟨hstore, hfiles⟩ := Prod.mk.inj hload
    refine Or.inl ⟨?_, hfiles⟩
    rw [hstore, taken, KnownLayouts.eventsOf_none]
    rfl
  | some bytes =>
    rw [Option.getD_some] at hreadable
    rw [KnownLayouts.taken?_of_readable hreadable hknown] at hload
    unfold takeUp at hload
    dsimp only at hload
    split at hload
    · rename_i hlong
      obtain ⟨hstore, hfiles⟩ := Prod.mk.inj hload
      exact Or.inr ⟨hlong, hstore, hfiles⟩
    · obtain ⟨hstore, hfiles⟩ := Prod.mk.inj hload
      exact Or.inl ⟨hstore, hfiles⟩

end Store

namespace Run

/-! ## Runs -/

/-- The store of a run follows its log, and the log is where it belongs. -/
structure Follows [StackRoom] (r : Run) (known : KnownLayouts) (content : Option Bytes) : Prop where
  log : r.files.IsLog r.store.path content
  store : r.store.Follows known content

variable {r : Run} {known : KnownLayouts} {content : Option Bytes}

/-- What recording does in a run: nothing for a window without a class, and else what the system
    and the event allow. -/
theorem select_cases [StackRoom] (hlog : r.files.IsLog r.store.path content) (now windowId : Int)
    (windowClass title layoutId : Text) :
    let r' := r.step (.select now windowId windowClass title layoutId)
    let e := r.store.nextEvent now windowClass title layoutId
    (r'.store = r.store ∧ r'.files = r.files) ∨
      (windowClass.isEmpty = false ∧
        r'.store = r.store.chosen windowId e (e.written (r.files.allows r.store.path)) ∧
        r'.files.allows r'.store.path = r.files.allows r.store.path ∧
        r'.files.IsLog r'.store.path (Log.grown content e (r.files.allows r.store.path))) := by
  intro r' e
  cases hclass : windowClass.isEmpty with
  | true =>
    obtain ⟨hstore, hfiles, -⟩ :=
      r.store.select_of_isEmpty r.files now windowId title layoutId hclass
    exact Or.inl ⟨hstore, hfiles⟩
  | false =>
    obtain ⟨hstore, -, hallows, his⟩ := Store.select_spec hlog now windowId title layoutId hclass
    have hpath : r'.store.path = r.store.path := by
      show (r.store.select r.files now windowId windowClass title layoutId).store.path = _
      rw [hstore, Store.path_chosen]
    rw [hpath]
    exact Or.inr ⟨rfl, hstore, hallows, his⟩

/-- What a compaction does in a run: all of it, or nothing that shows in the log. -/
theorem compact_cases [StackRoom] (r : Run) :
    ((r.store.compact r.files).result = true ∧
      (r.step .compact).store = r.store.withEvents r.store.kept ∧
      (r.step .compact).files.IsLog (r.step .compact).store.path
        (some (Log.ofEvents r.store.kept))) ∨
    ((r.store.compact r.files).result = false ∧ (r.step .compact).store = r.store ∧
      (r.step .compact).files = r.files.madeAbove r.store.path) := by
  rcases r.store.compact_spec r.files with ⟨hresult, hstore, -, hlog⟩ | hrefused
  · have hpath : (r.step .compact).store.path = r.store.path := by
      show (r.store.compact r.files).store.path = _
      rw [hstore]
      rfl
    rw [hpath]
    exact Or.inl ⟨hresult, hstore, hlog⟩
  · exact Or.inr hrefused

theorem Follows.compact [StackRoom] (h : r.Follows known content) :
    ∃ after, (r.step .compact).Follows known after := by
  rcases r.compact_cases with ⟨-, hstore, hlog⟩ | ⟨-, hstore, hfiles⟩
  · refine ⟨some (Log.ofEvents r.store.kept), hlog, ?_⟩
    rw [hstore]
    exact h.store.withKept
  · refine ⟨content, ?_, ?_⟩
    · rw [hstore, hfiles]
      exact h.log.madeAbove
    · rw [hstore]
      exact h.store

theorem Follows.after [StackRoom] {α : Type} {o : Outcome α}
    (hlog : o.files.IsLog o.store.path content)
    (hstore : o.store.Follows known content) : (r.after o).Follows known content :=
  ⟨hlog, hstore⟩

/-- Loading a log that can be read begins to follow it. -/
theorem follows_load [StackRoom] (hlog : r.files.IsLog r.store.path content)
    (hreadable : Log.isReadable (content.getD []) = true) (hknown : known.error? = none) :
    ∃ after, (r.step (.load known)).Follows known after := by
  have htaken : (start (r.store.taken known content) r.files).Follows known content :=
    ⟨hlog, r.store.follows_taken known hreadable⟩
  rcases Store.load_cases hlog hreadable hknown with ⟨hstore, hfiles⟩ | ⟨-, hstore, hfiles⟩
  · refine ⟨content, Follows.after ?_ ?_⟩
    · rw [hstore, hfiles]
      exact htaken.log
    · rw [hstore]
      exact htaken.store
  · obtain ⟨after, hafter⟩ := htaken.compact
    refine ⟨after, Follows.after ?_ ?_⟩
    · rw [hstore, hfiles]
      exact hafter.log
    · rw [hstore]
      exact hafter.store

theorem Follows.select [StackRoom] (h : r.Follows known content) {now windowId : Int}
    {windowClass title layoutId : Text}
    (ho : (Operation.select now windowId windowClass title layoutId).IsOrdinary known) :
    ∃ after, (r.step (.select now windowId windowClass title layoutId)).Follows known after := by
  rcases select_cases h.log now windowId windowClass title layoutId with
    ⟨hstore, hfiles⟩ | ⟨hclass, hstore, -, hlog⟩
  · refine ⟨content, ?_, ?_⟩
    · rw [hstore, hfiles]
      exact h.log
    · rw [hstore]
      exact h.store
  · obtain ⟨hnow, hlayout, hknows⟩ := ho.resolve_left (Bool.eq_false_iff.mp hclass)
    refine ⟨Log.grown content (r.store.nextEvent now windowClass title layoutId)
      (r.files.allows r.store.path), hlog, ?_⟩
    have hstorable := h.store.storable_nextEvent hnow hlayout windowClass title
    rw [hstore, Event.written_of_isShowable hstorable.isShowable]
    exact h.store.chosen hstorable hknows (fun old => h.store.le_nextTime now) windowId
      (r.files.allows r.store.path)

theorem Follows.step [StackRoom] (h : r.Follows known content) (hknown : known.error? = none)
    {o : Operation} (ho : o.IsOrdinary known) : ∃ after, (r.step o).Follows known after := by
  cases o with
  | load asked =>
    obtain rfl : asked = known := ho
    exact follows_load h.log h.store.readable hknown
  | select now windowId windowClass title layoutId => exact h.select ho
  | forget windowId => exact ⟨content, h.log, h.store.withSession _⟩
  | compact => exact h.compact

/-- A run keeps following its log. -/
theorem Follows.steps [StackRoom] (h : r.Follows known content) (hknown : known.error? = none)
    {operations : List Operation} (hall : ∀ o ∈ operations, o.IsOrdinary known) :
    ∃ after, (r.steps operations).Follows known after := by
  induction operations generalizing r content with
  | nil => exact ⟨content, h⟩
  | cons o operations ih =>
    obtain ⟨between, hstep⟩ := h.step hknown (hall o List.mem_cons_self)
    exact ih hstep fun o' ho' => hall o' (List.mem_cons_of_mem o ho')

end Run

end WindowLayouts
