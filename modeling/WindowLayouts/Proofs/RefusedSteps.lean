import Mathlib.Data.Fintype.EquivFin
import WindowLayouts.History.Steps
import WindowLayouts.Proofs.FailedCompaction

/- Operations of which the system refuses a step. Where it refuses none, taking the steps one by one
   comes to what the operation does at once. Where it refuses some, a load takes up all events of
   the log or none, and a compaction keeps the events or leaves them.

     `Store.appendBySteps_none`    without refusals the steps do what appending does
     `Store.loadBySteps_none`      and what loading does
     `Run.stepBySteps_none`        and any operation
     `Run.stepBySteps_preserves`   what an operation does to the store, for any invariant of it
     `Store.Endures`               stores after operations of which any step may be refused
     `Store.Becomes.endures`       operations that are not refused are among them
     `Store.Endures.hasShowableTimes`    the events of a store at work can be written again -/
namespace WindowLayouts

namespace FileTree

/-! ## Names that are free -/

/-- Some name is free in whatever directory a path leads to. -/
theorem exists_isFree (t : FileTree) (p : Path) : ∃ name, t.IsFree p name := by
  let used := t.nodes.filterMap fun node => node.1.getLast?
  obtain ⟨name, hunused⟩ := Infinite.exists_notMem_finset used.toFinset
  refine ⟨name, fun d _ => ?_⟩
  rw [List.mem_toFinset] at hunused
  cases hnode : t.node? (d ++ [name]) with
  | none => rfl
  | some node =>
    have hlast : (d ++ [name]).getLast? = some name := List.getLast?_concat
    exact absurd (List.mem_filterMap.mpr ⟨_, Keyed.mem_of_get? hnode, hlast⟩) hunused

theorem tells_none (t : FileTree) (p : Path) : t.tells .none p = t.holds p := rfl

theorem makeDirectoriesUpTo_ok [StackRoom] {t made : FileTree} {p : Path} {limit : Option Nat}
    (h : t.makeDirectoriesUpTo p limit = (made, .ok ())) :
    t.makeDirectories p = (made, .ok ()) := by
  cases limit with
  | none => exact h
  | some n =>
    unfold makeDirectoriesUpTo at h
    dsimp only at h
    split at h
    · cases h
    · split at h
      · cases h
      · split at h <;> cases h

end FileTree

namespace Store

open FileTree

variable {s t : Store} {files : FileTree}

/-! ## Nothing refused -/

/-- Where the log can be written, a look at its end tells of what it holds. Else it may fail, as
    writing does. -/
theorem looksMidLine_none (s : Store) (files : FileTree) :
    s.looksMidLine .none files = .ok (Log.endsMidLine ((files.read? s.path).getD [])) ∨
      ∃ reason, (∀ content, files.write s.path content = .error reason) ∧
        (s.looksMidLine .none files = .error reason ∨
          ∃ midLine, s.looksMidLine .none files = .ok midLine) := by
  unfold looksMidLine
  rw [tells_none, holds, read?]
  cases hfault : s.path.fault? with
  | some fault =>
    refine Or.inr ⟨.name fault, fun content => ?_, Or.inr ⟨false, rfl⟩⟩
    rw [write, hfault]
  | none =>
    cases hfound : files.lookup s.path with
    | file place content => exact Or.inl rfl
    | absent place => exact Or.inl rfl
    | directory | refused =>
      refine Or.inr ⟨.system, fun content => ?_, Or.inl rfl⟩
      simp only [write, hfault, hfound]
    | blocked | unreachable =>
      -- nothing is there to look at, and nothing can be written either
      refine Or.inr ⟨.system, fun content => ?_, Or.inr ⟨false, rfl⟩⟩
      simp only [write, hfault, hfound]

theorem writeMore_none (s : Store) (files : FileTree) (line : Except FileFailure Bytes) :
    s.writeMore .none files line =
      match files.write s.path ((files.read? s.path).getD [] ++ line.toOption.getD []) with
      | .ok written => (written, line.map fun _ => ())
      | .error reason => (files, .error reason) := by
  unfold writeMore
  simp only [Refusals.none, Option.getD_none, List.take_length, Option.isSome_none]
  cases files.write s.path ((files.read? s.path).getD [] ++ line.toOption.getD []) <;>
    cases line <;> rfl

/-- Without refusals the steps come to what appending comes to. -/
theorem appendBySteps_none [StackRoom] (s : Store) (files : FileTree) (e : Event) :
    s.appendBySteps .none files e = s.appendToLog files e := by
  have hmakes : files.makeDirectoriesUpTo s.path.parent Refusals.none.directories =
      files.makeDirectories s.path.parent := rfl
  unfold appendBySteps appendToLog
  rw [hmakes]
  rcases files.makeDirectories s.path.parent with ⟨made, reason | done⟩
  · rfl
  · dsimp only
    rcases s.looksMidLine_none made with hlooks | ⟨reason, hwrite, hlooks | ⟨midLine, hlooks⟩⟩
    · rw [hlooks]
      exact s.writeMore_none made _
    · rw [hlooks, hwrite]
    · rw [hlooks]
      dsimp only
      rw [writeMore_none, hwrite, hwrite]

theorem selectBySteps_none [StackRoom] (s : Store) (files : FileTree) (now windowId : Int)
    (windowClass title layoutId : Text) :
    s.selectBySteps .none files now windowId windowClass title layoutId =
      s.select files now windowId windowClass title layoutId := by
  unfold selectBySteps select
  simp only [appendBySteps_none]

theorem readEventsBySteps_none [StackRoom] (s : Store) (files : FileTree) (known : KnownLayouts) :
    s.readEventsBySteps .none files known = s.readEvents files known := by
  unfold readEventsBySteps
  split
  · rename_i hreading
    cases hreading
  · rfl

theorem compactBySteps_none [StackRoom] {name : Text}
    (hfree : (files.madeAbove s.path).IsFree s.path.parent name) :
    s.compactBySteps .none name files = s.compact files :=
  congrArg (s.compacted s.kept) (replaceBySteps_none hfree (Log.ofEvents s.kept))

/-- Without refusals, and with a name that is free, the steps come to what loading comes to. -/
theorem loadBySteps_none [StackRoom] {name : Text}
    (hfree : (files.madeAbove s.path).IsFree s.path.parent name) (known : KnownLayouts) :
    s.loadBySteps .none name files known = s.load files known := by
  unfold loadBySteps load loadLog
  rw [tells_none, readEventsBySteps_none]
  refine congrArg (s.loadIfThere files (files.holds s.path)) ?_
  rcases s.readEvents files known with ⟨said, reason | read⟩
  · rfl
  · unfold takeRead compactIfLong
    dsimp only
    split
    · have hsteps : (s.commit files known read).store.compactBySteps .none name files =
          (s.commit files known read).store.compact files :=
        compactBySteps_none hfree
      rw [show (s.commit files known read).files = files from rfl, hsteps]
    · rfl

end Store

/-- Without refusals, and with a name that is free, the steps come to the operation. -/
theorem Run.stepBySteps_none [StackRoom] {r : Run} {name : Text}
    (hfree : (r.files.madeAbove r.store.path).IsFree r.store.path.parent name) (o : Operation) :
    r.stepBySteps .none name o = r.step o := by
  cases o with
  | load known => exact congrArg r.after (Store.loadBySteps_none hfree known)
  | select now windowId windowClass title layoutId =>
    exact congrArg r.after (r.store.selectBySteps_none _ _ _ _ _ _)
  | forget windowId => rfl
  | compact => exact congrArg r.after (Store.compactBySteps_none hfree)

namespace Store

open FileTree

variable {s t : Store} {files : FileTree} {known : KnownLayouts}

/-! ## What steps leave of the store -/

/-- A compaction keeps the events that it chose, or leaves the store alone. -/
theorem store_compactBySteps [StackRoom] (s : Store) (refused : Refusals) (name : Text)
    (files : FileTree) :
    (s.compactBySteps refused name files).store = s ∨
      (s.compactBySteps refused name files).store = s.withEvents s.kept := by
  unfold compactBySteps compacted
  dsimp only
  split
  · exact Or.inl rfl
  · exact Or.inr rfl

/-- Recording a choice, by whether its event could be appended. -/
theorem selectBySteps_spec [StackRoom] (s : Store) (refused : Refusals) (files : FileTree)
    (now windowId : Int) {windowClass : Text} (title layoutId : Text)
    (hclass : windowClass.isEmpty = false) :
    let o := s.selectBySteps refused files now windowId windowClass title layoutId
    let e := s.nextEvent now windowClass title layoutId
    o.result = recorded windowId (s.appendBySteps refused files e).2 ∧
      o.store = s.chosen windowId e (s.appendBySteps refused files e).2 ∧
      o.files = (s.appendBySteps refused files e).1 ∧
      o.trace.messages = s.announced windowId e (s.appendBySteps refused files e).2 := by
  intro o e
  have ho : o = s.afterAppend windowId e (hashTrace windowClass ++ hashTrace title)
      (s.appendBySteps refused files e) := if_neg (by simp [hclass])
  rw [ho]
  exact s.afterAppend_spec windowId e (by simp [Trace.messages_append]) _

/-- Only an event that can be written is appended. -/
theorem isShowable_of_appendBySteps [StackRoom] {refused : Refusals} {e : Event}
    (h : (s.appendBySteps refused files e).2 = .ok ()) : Numeral.isShowable e.time = true := by
  by_contra hlong
  have hline : ∀ midLine, e.lineAfter midLine = .error (.unshowable .tooLong) :=
    fun midLine => if_neg hlong
  unfold appendBySteps at h
  split at h
  · cases h
  · split at h
    · cases h
    · rw [hline, writeMore] at h
      split at h
      · cases h
      · split at h <;> cases h

/-- A log that is not read in part is read as it is at once. -/
theorem readEvents_of_readEventsBySteps [StackRoom] {refused : Refusals} {events : List Event}
    (h : (s.readEventsBySteps refused files known).2 = .ok events) :
    (s.readEvents files known).2 = .ok events := by
  unfold readEventsBySteps at h
  split at h
  · dsimp only at h
    split at h <;> cases h
  · exact h

/-- Events that were read are ones that a log can keep, and it was there. -/
theorem storable_of_readEvents [StackRoom] {events : List Event}
    (h : (s.readEvents files known).2 = .ok events) :
    (∀ e ∈ events, e.Storable) ∧ ∃ content, files.read? s.path = some content := by
  cases hread : files.read? s.path with
  | none =>
    unfold readEvents at h
    rw [hread] at h
    cases h
  | some content =>
    rw [readEvents_of_read? hread known] at h
    cases hreadable : Log.isReadable content with
    | false =>
      obtain ⟨reason, hreason⟩ := Log.read_events_error hreadable
      rw [hreason] at h
      cases h
    | true =>
      rw [Log.read_events hreadable] at h
      cases herror : known.error? with
      | some error =>
        rw [herror] at h
        cases h
      | none =>
        rw [herror] at h
        obtain rfl := Except.ok.inj h
        exact ⟨fun e he => Log.storable_of_mem_decoded he, content, rfl⟩

/-- Whatever is refused, a load takes up events that were all read, perhaps none, and may then
    compact them. It has some only from a log that is there. -/
theorem store_loadBySteps [StackRoom] (s : Store) (refused : Refusals) (name : Text)
    (files : FileTree) (known : KnownLayouts) :
    ∃ events, (∀ e ∈ events, e.Storable) ∧
      (events ≠ [] → ∃ content, files.log? s.path = some content) ∧
      let loaded := (s.loadBySteps refused name files known).store
      loaded = s.reset.withEvents events ∨
        loaded = ((s.reset.withEvents events).compactBySteps refused name files).store := by
  have hnone : ∀ e ∈ ([] : List Event), e.Storable := List.forall_mem_nil _
  unfold loadBySteps loadIfThere
  cases htold : files.tells refused s.path with
  | error reason => exact ⟨[], hnone, by simp, Or.inl rfl⟩
  | ok there =>
    cases there with
    | false => exact ⟨[], hnone, by simp, Or.inl rfl⟩
    | true =>
      dsimp only
      rcases hread : s.readEventsBySteps refused files known with ⟨said, reason | read⟩
      · exact ⟨[], hnone, by simp, Or.inl rfl⟩
      · have hevents := readEvents_of_readEventsBySteps (congrArg Prod.snd hread)
        obtain ⟨hstorable, content, hcontent⟩ := storable_of_readEvents hevents
        have hlog : files.log? s.path = some content := by
          rw [log?, if_neg _, hcontent]
          intro hfault
          have hheld : files.tells refused s.path = .ok false := by
            obtain ⟨fault, hfault⟩ := Option.isSome_iff_exists.mp hfault
            simp [tells, holds, hfault]
          rw [htold] at hheld
          cases hheld
        refine ⟨(known.select read).mergeSort Event.notAfter, ?_, fun _ => ⟨content, hlog⟩, ?_⟩
        · intro e he
          exact hstorable e (known.select_subset _ (List.mem_mergeSort.mp he))
        · unfold takeRead compactIfLong
          dsimp only
          split
          · exact Or.inr rfl
          · exact Or.inl rfl

end Store

namespace Run

/-- What holds of a store holds after one operation, whatever is refused, if it holds of a store
    that took up the events of its log or remembers a choice, with its event if that could be
    appended, and if neither forgetting a window nor thinning the events takes it away. -/
theorem stepBySteps_preserves [StackRoom] {P : Store → Prop} {r : Run} {refused : Refusals}
    {o : Operation} (name : Text) (hbefore : P r.store)
    (hloaded : ∀ events, (∀ e ∈ events, e.Storable) →
      (events ≠ [] → ∃ content, r.files.log? r.store.path = some content) →
        P (r.store.reset.withEvents events))
    (hchosen : ∀ now windowId windowClass title layoutId,
      o = .select now windowId windowClass title layoutId →
        let e := r.store.nextEvent now windowClass title layoutId
        P (r.store.chosen windowId e (r.store.appendBySteps refused r.files e).2))
    (hforgotten : ∀ windowId, P (r.store.forget windowId))
    (hthinned : ∀ s, P s → P (s.withEvents s.kept)) :
    P (r.stepBySteps refused name o).store := by
  have hcompacted : ∀ s files, P s → P (s.compactBySteps refused name files).store := by
    intro s files hs
    rcases s.store_compactBySteps refused name files with hstore | hstore
    · rw [hstore]
      exact hs
    · rw [hstore]
      exact hthinned s hs
  cases o with
  | load known =>
    obtain ⟨events, hstorable, hlog, hstore⟩ :=
      r.store.store_loadBySteps refused name r.files known
    show P (r.store.loadBySteps refused name r.files known).store
    rcases hstore with hstore | hstore
    · rw [hstore]
      exact hloaded events hstorable hlog
    · rw [hstore]
      exact hcompacted _ _ (hloaded events hstorable hlog)
  | select now windowId windowClass title layoutId =>
    show P (r.store.selectBySteps refused r.files now windowId windowClass title layoutId).store
    cases hclass : windowClass.isEmpty with
    | true =>
      rw [Store.selectBySteps, if_pos hclass]
      exact hbefore
    | false =>
      obtain ⟨-, hstore, -, -⟩ :=
        r.store.selectBySteps_spec refused r.files now windowId title layoutId hclass
      rw [hstore]
      exact hchosen now windowId windowClass title layoutId rfl
  | forget windowId => exact hforgotten windowId
  | compact => exact hcompacted r.store r.files hbefore

theorem sameLog_stepBySteps [StackRoom] (r : Run) (refused : Refusals) (name : Text)
    (o : Operation) : SameLog r.store (r.stepBySteps refused name o).store := by
  apply stepBySteps_preserves name (SameLog.refl r.store)
  case hloaded => exact fun events _ _ => ⟨rfl, rfl, rfl, rfl⟩
  case hchosen =>
    intro now windowId windowClass title layoutId _ e
    cases (r.store.appendBySteps refused r.files e).2 <;> exact ⟨rfl, rfl, rfl, rfl⟩
  case hforgotten => exact fun windowId => ⟨rfl, rfl, rfl, rfl⟩
  case hthinned => exact fun s hs => hs.trans ⟨rfl, rfl, rfl, rfl⟩

end Run

namespace Store

/-! ## Times that can be written -/

/-- What holds of all events of a store holds of them after a choice, if it holds of an event that
    was appended. -/
theorem forall_mem_chosen {s : Store} {P : Event → Prop} (h : ∀ e ∈ s.events, P e) (windowId : Int)
    {e : Event} {allowed : Except FileFailure Unit} (he : allowed = .ok () → P e) :
    ∀ old ∈ (s.chosen windowId e allowed).events, P old := by
  cases allowed with
  | error reason => exact h
  | ok done =>
    intro old hold
    have hmem : old ∈ s.events ++ [e] := hold
    cases List.mem_append.mp hmem with
    | inl hbefore => exact h old hbefore
    | inr hlast =>
      rw [List.mem_singleton.mp hlast]
      exact he rfl

/-- The times of all events can be shown, so that the events can be written again. -/
def HasShowableTimes (s : Store) : Prop := ∀ e ∈ s.events, Numeral.isShowable e.time = true

theorem hasShowableTimes_stepBySteps [StackRoom] {r : Run} (h : r.store.HasShowableTimes)
    (refused : Refusals) (name : Text) (o : Operation) :
    (r.stepBySteps refused name o).store.HasShowableTimes := by
  apply Run.stepBySteps_preserves name h
  case hloaded => exact fun events hstorable _ e he => (hstorable e he).isShowable
  case hchosen =>
    intro now windowId windowClass title layoutId _ e
    exact forall_mem_chosen h windowId isShowable_of_appendBySteps
  case hforgotten => exact fun windowId => h
  case hthinned => exact fun s hs e he => hs e (mem_events_of_mem_kept he)

/-! ## Stores that endure refusals -/

/-- A store that another becomes by operations, of which the system may refuse any step. Each may
    find the files in any state. -/
inductive Endures [StackRoom] (s : Store) : List Operation → Store → Prop where
  | start : Endures s [] s
  | step {operations : List Operation} {t : Store} (h : Endures s operations t) (files : FileTree)
      (refused : Refusals) (name : Text) (o : Operation) :
      Endures s (operations ++ [o]) ((Run.start t files).stepBySteps refused name o).store

variable {s t : Store} {operations : List Operation}

/-- What a store becomes without refusals is among what it becomes with them. -/
theorem Becomes.endures [StackRoom] (h : s.Becomes operations t) : s.Endures operations t := by
  induction h with
  | start => exact .start
  | @step operations t h files o ih =>
    obtain ⟨name, hfree⟩ := (files.madeAbove t.path).exists_isFree t.path.parent
    have hstep := ih.step files .none name o
    rw [Run.stepBySteps_none hfree] at hstep
    exact hstep

theorem Endures.hasShowableTimes [StackRoom] (h : s.Endures operations t)
    (hs : s.HasShowableTimes) : t.HasShowableTimes := by
  induction h with
  | start => exact hs
  | @step operations t h files refused name o ih =>
    exact hasShowableTimes_stepBySteps (r := Run.start t files) ih refused name o

end Store

end WindowLayouts
