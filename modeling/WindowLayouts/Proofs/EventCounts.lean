import WindowLayouts.Proofs.AtomicRecording

/- The messages of a store tell how many events it has. An observer who hears nothing else keeps a
   number: what a load tells, one more for each event that is recorded, and what a compaction tells
   to be left. After every operation this is the number of events in the store, whatever failed on
   the way and whatever the system refused. It holds because a message is sent when the events
   changed, and after they did; an operation that fails says nothing and changes no event.

   There are two exceptions. A load of which the system refuses to say whether there is a log says
   nothing either, and leaves an empty store; but where the path is to blame, no store at it ever
   had an event. And an event for a window whose number cannot be shown stays in the store
   unreported.

     `Message.countFrom`          the number that an observer arrives at
     `Message.Agree`              messages that are right about that number
     `Message.Leads`              messages that are right and lead from one number to another
     `Store.messages_loadBySteps` what a load says
     `Store.Hushes`               operations that change the events unheard
     `Store.leads_iff`            there are no others
     `Store.Speaks`               what a store says in a run
     `Store.messages_mirror`      the number is right after any run that was heard
     `Store.changes_unheard`      a load and a choice that are not heard of -/
namespace WindowLayouts

/-! ## The number that is told -/

namespace Message

/-- How many events there are after a message, for an observer who knows how many there were. -/
def count (events : Nat) : Message → Nat
  | .historyLoaded loaded => loaded
  | .layoutRecorded .. => events + 1
  | .historyCompacted _ after => after
  | _ => events

def countFrom (events : Nat) (messages : List Message) : Nat := messages.foldl count events

/-- Whether a message is right about how many events there were. Only a compaction tells, and it
    must not leave more than that. -/
def AgreesWith (events : Nat) : Message → Prop
  | .historyCompacted before after => before = events ∧ after ≤ before
  | _ => True

/-- Whether each message is right about the number that the ones before it lead to. -/
def Agree (events : Nat) : List Message → Prop
  | [] => True
  | m :: rest => m.AgreesWith events ∧ Agree (m.count events) rest

variable {events : Nat} {first second : List Message}

theorem countFrom_append (events : Nat) (first second : List Message) :
    countFrom events (first ++ second) = countFrom (countFrom events first) second :=
  List.foldl_append

theorem agree_append :
    Agree events (first ++ second) ↔
      Agree events first ∧ Agree (countFrom events first) second := by
  induction first generalizing events with
  | nil => simp [Agree, countFrom]
  | cons m first ih =>
    rw [List.cons_append, Agree, Agree, ih, and_assoc]
    rfl

/-- Messages that are right, and lead from one number of events to another. -/
structure Leads (before : Nat) (said : List Message) (after : Nat) : Prop where
  agree : Agree before said
  count : countFrom before said = after

theorem Leads.refl (events : Nat) : Leads events [] events := ⟨trivial, rfl⟩

theorem Leads.append {between after : Nat} (h : Leads events first between)
    (h' : Leads between second after) : Leads events (first ++ second) after := by
  constructor
  · rw [agree_append, h.count]
    exact ⟨h.agree, h'.agree⟩
  · rw [countFrom_append, h.count, h'.count]

/-- In messages that are right, a compaction tells the number so far and leaves no more. -/
theorem Agree.compacted {before after : Nat} {earlier later : List Message}
    (h : Agree events (earlier ++ .historyCompacted before after :: later)) :
    before = countFrom events earlier ∧ after ≤ before :=
  (agree_append.mp h).2.1

end Message

/-! ## What operations say -/

theorem Log.messages_readLines [StackRoom] (number : Nat) (lines : List Bytes) :
    (readLines number lines).trace.messages = [] := by
  induction lines generalizing number with
  | nil => rfl
  | cons raw rest ih =>
    unfold readLines
    split
    · exact ih (number + 1)
    · exact ih (number + 1)
    · exact ih (number + 1)
    · rfl

namespace Store

variable {s : Store}

theorem messages_readEvents [StackRoom] (s : Store) (files : FileTree) (known : KnownLayouts) :
    (s.readEvents files known).1.messages = [] := by
  unfold readEvents
  split
  · rfl
  · exact Log.messages_readLines 1 _

theorem messages_readEventsBySteps [StackRoom] (s : Store) (refused : Refusals) (files : FileTree)
    (known : KnownLayouts) : (s.readEventsBySteps refused files known).1.messages = [] := by
  unfold readEventsBySteps
  split
  · exact Log.messages_readLines 1 _
  · exact s.messages_readEvents files known

theorem messages_prunedTrace (read selected : List Event) :
    (prunedTrace read selected).messages = [] := by
  unfold prunedTrace
  dsimp only
  split <;> rfl

theorem length_kept_le (s : Store) : s.kept.length ≤ s.events.length := by
  rw [kept, List.length_mergeSort]
  exact (Index.thin_sublist s.index s.events).length_le

/-- A compaction says how many events there were and how many are left, or nothing if it failed. -/
theorem messages_compacted (s : Store) (kept : List Event)
    (replaced : FileTree × Except FileFailure Unit) :
    let o := s.compacted kept replaced
    (o.result = false ∧ o.trace.messages = [] ∧ o.store = s) ∨
      (o.result = true ∧
        o.trace.messages = (s.publish (.historyCompacted s.events.length kept.length)).messages ∧
        o.store = s.withEvents kept) := by
  obtain ⟨left, reason | done⟩ := replaced
  · exact Or.inl ⟨rfl, rfl, rfl⟩
  · refine Or.inr ⟨rfl, ?_, rfl⟩
    simp only [compacted, Trace.messages_append, Trace.messages_storeRecord, List.nil_append]

theorem messages_compactBySteps [StackRoom] (hbus : s.onBus = true) (refused : Refusals)
    (name : Text) (files : FileTree) :
    let o := s.compactBySteps refused name files
    (o.trace.messages = [] ∧ o.store = s) ∨
      (o.trace.messages = [.historyCompacted s.events.length s.kept.length] ∧
        o.store = s.withEvents s.kept) := by
  rcases s.messages_compacted s.kept
      (s.replaceBySteps refused name files (Log.ofEvents s.kept)) with
    ⟨-, hsaid, hstore⟩ | ⟨-, hsaid, hstore⟩
  · exact Or.inl ⟨hsaid, hstore⟩
  · rw [messages_publish, if_pos hbus] at hsaid
    exact Or.inr ⟨hsaid, hstore⟩

/-- What a load says that leaves a number of events: how many it took up, and then at most that it
    compacted them. -/
inductive TellsLoad : List Message → Nat → Prop where
  | loaded (taken : Nat) : TellsLoad [.historyLoaded taken] taken
  | compacted {taken left : Nat} (h : left ≤ taken) :
    TellsLoad [.historyLoaded taken, .historyCompacted taken left] left

theorem tellsLoad_compactIfLong [StackRoom] {α : Type} (refused : Refusals) (name : Text)
    {o : Outcome α} (hbus : o.store.onBus = true)
    (h : o.trace.messages = [.historyLoaded o.store.events.length]) :
    let after := compactIfLong (fun s files => s.compactBySteps refused name files) o
    TellsLoad after.trace.messages after.store.events.length := by
  unfold compactIfLong
  split
  · dsimp only
    rw [Trace.messages_append, h]
    rcases messages_compactBySteps hbus refused name o.files with
      ⟨hsaid, hstore⟩ | ⟨hsaid, hstore⟩
    · rw [hsaid, hstore]
      exact .loaded _
    · rw [hsaid, hstore]
      exact .compacted o.store.length_kept_le
  · dsimp only
    rw [h]
    exact .loaded _

/-- A load says what it took up, unless the system refuses to say whether there is a log. -/
theorem messages_loadBySteps [StackRoom] (hbus : s.onBus = true) (refused : Refusals) (name : Text)
    (files : FileTree) (known : KnownLayouts) :
    let loaded := s.loadBySteps refused name files known
    (∃ reason, loaded.result = .error reason ∧ files.tells refused s.path = .error reason ∧
        loaded.trace.messages = [] ∧ loaded.store = s.reset) ∨
      (loaded.result = .ok () ∧ (∃ there, files.tells refused s.path = .ok there) ∧
        TellsLoad loaded.trace.messages loaded.store.events.length) := by
  have hnothing : ∀ said : Trace, said.messages = [] →
      (s.loadedNothing files said).trace.messages = [.historyLoaded 0] := by
    intro said hsaid
    rw [loadedNothing, Trace.messages_append, hsaid, messages_publish, if_pos hbus]
    rfl
  unfold loadBySteps loadIfThere
  cases files.tells refused s.path with
  | error reason => exact Or.inl ⟨reason, rfl, rfl, rfl, rfl⟩
  | ok there =>
    refine Or.inr ?_
    cases there with
    | false =>
      refine ⟨rfl, ⟨false, rfl⟩, ?_⟩
      dsimp only
      rw [hnothing _ rfl]
      exact .loaded 0
    | true =>
      refine ⟨s.result_takeRead _ _ _ _, ⟨true, rfl⟩, ?_⟩
      have hread := s.messages_readEventsBySteps refused files known
      rcases hreading : s.readEventsBySteps refused files known with ⟨said, reason | events⟩ <;>
        rw [hreading] at hread
      · dsimp only [takeRead]
        rw [hnothing _ (by rw [Trace.messages_append, hread]; rfl)]
        exact .loaded 0
      · apply tellsLoad_compactIfLong refused name hbus
        dsimp only [commit] at hread ⊢
        simp only [Trace.messages_append, hread, messages_prunedTrace,
          Trace.messages_storeRecord, List.nil_append, messages_publish, if_pos hbus]
        rfl

end Store

/-! ## Paths of stores that have events -/

namespace FileTree

theorem short_of_takes {t : FileTree} {d place : Place} {names : List Text}
    (h : takes place (t.follow d names)) : ∀ n ∈ names, ¬ isNameTooLong n = true := by
  have hdots : ¬ isNameTooLong (text "..") = true := by decide
  fun_induction follow t d names with
  | case1 d => exact List.forall_mem_nil _
  | case2 d rest ih => exact List.forall_mem_cons.mpr ⟨hdots, ih h⟩
  | case4 d name hname hlong place' rest hnode ih => exact List.forall_mem_cons.mpr ⟨hlong, ih h⟩
  | case5 d name hname hlong => exact List.forall_mem_cons.mpr ⟨hlong, List.forall_mem_nil _⟩
  | case7 d name hname hlong => exact List.forall_mem_cons.mpr ⟨hlong, List.forall_mem_nil _⟩
  | _ => exact h.elim

/-- A path that leads to a file, or to a place for one, is one that the system takes. -/
theorem isAccepted_of_takes {t : FileTree} {p : Path} {place : Place} (hfault : p.fault? = none)
    (h : takes place (t.lookup p)) : p.IsAccepted := by
  have hlong : ¬ p.isTooLong = true := isTooLong_of_lookup fun hrefused => by
    rw [hrefused] at h
    exact h
  rw [lookup, if_neg hlong] at h
  exact ⟨hfault, hlong, short_of_takes h⟩

theorem isAccepted_of_log? {t : FileTree} {p : Path} {content : Bytes}
    (h : t.log? p = some content) : p.IsAccepted := by
  obtain ⟨place, hfault, -, -, htakes, -⟩ := log_cases h
  exact isAccepted_of_takes hfault htakes

end FileTree

namespace Store

variable {s t : Store} {operations : List Operation} {said : List Message}

/-- Only at a path that the system takes does a store have events. -/
def HasPlace (s : Store) : Prop := s.events = [] ∨ s.path.IsAccepted

theorem HasPlace.of_subset (h : s.HasPlace) (hpath : t.path = s.path)
    (hevents : t.events ⊆ s.events) : t.HasPlace := by
  rcases h with hnone | haccepted
  · rw [hnone] at hevents
    exact Or.inl (List.subset_nil.mp hevents)
  · rw [HasPlace, hpath]
    exact Or.inr haccepted

/-- An event that was appended went to a path that the system takes. -/
theorem isAccepted_of_appendBySteps [StackRoom] {refused : Refusals} {files : FileTree} {e : Event}
    (h : (s.appendBySteps refused files e).2 = .ok ()) : s.path.IsAccepted := by
  unfold appendBySteps at h
  split at h
  · cases h
  · split at h
    · cases h
    · rename_i made _ _ midLine _
      rcases s.writeMore_cases refused made (e.lineAfter midLine) with
        ⟨reason, hwrite⟩ | ⟨place, hfault, htakes, -⟩
      · rw [hwrite] at h
        cases h
      · exact FileTree.isAccepted_of_takes hfault htakes

theorem hasPlace_stepBySteps [StackRoom] {r : Run} (h : r.store.HasPlace) (refused : Refusals)
    (name : Text) (o : Operation) : (r.stepBySteps refused name o).store.HasPlace := by
  -- only a load and a recorded choice bring events, and both found the path taken
  apply Run.stepBySteps_preserves name h
  case hloaded =>
    intro events _ hlog
    by_cases hnone : events = []
    · exact Or.inl hnone
    · obtain ⟨content, hcontent⟩ := hlog hnone
      exact Or.inr (FileTree.isAccepted_of_log? hcontent)
  case hchosen =>
    intro now windowId windowClass title layoutId _ e
    cases happend : (r.store.appendBySteps refused r.files e).2 with
    | ok done => exact Or.inr (isAccepted_of_appendBySteps happend)
    | error reason => exact h
  case hforgotten => exact fun windowId => h
  case hthinned => exact fun s hs => hs.of_subset rfl fun e he => mem_events_of_mem_kept he

/-! ## What operations lead to -/

/-- An operation changes the events, and nothing is heard of it: a load of which the system refuses
    to tell whether the log is there leaves no events, and an event that was appended for a window
    whose number cannot be shown is not reported. -/
def Hushes [StackRoom] (s : Store) (refused : Refusals) (files : FileTree) : Operation → Prop
  | .load _ => refused.telling = true ∧ s.path.fault? = none ∧ s.events ≠ []
  | .select now windowId windowClass title layoutId =>
    windowClass.isEmpty = false ∧
      (s.appendBySteps refused files (s.nextEvent now windowClass title layoutId)).2 = .ok () ∧
      Numeral.isShowable windowId = false
  | _ => False

theorem tells_error_iff (refused : Refusals) (files : FileTree) (path : Path) :
    (∃ reason, files.tells refused path = .error reason) ↔
      path.fault? = none ∧ (refused.telling = true ∨ files.lookup path = .refused) := by
  unfold FileTree.tells
  cases htelling : refused.telling with
  | false => simpa using FileTree.holds_error_iff files path
  | true =>
    cases hfault : path.fault? with
    | none => simp
    | some fault => simp [FileTree.holds, hfault]

theorem leads_loadBySteps_iff [StackRoom] (hbus : s.onBus = true) (h : s.HasPlace)
    (refused : Refusals) (name : Text) (files : FileTree) (known : KnownLayouts) :
    let loaded := s.loadBySteps refused name files known
    Message.Leads s.events.length loaded.trace.messages loaded.store.events.length ↔
      ¬ s.Hushes refused files (.load known) := by
  intro loaded
  have htells := tells_error_iff refused files s.path
  rcases s.messages_loadBySteps hbus refused name files known with
    ⟨reason, -, htold, hsaid, hstore⟩ | ⟨-, ⟨there, htold⟩, hload⟩
  · obtain ⟨hfault, hrefused⟩ := htells.mp ⟨reason, htold⟩
    rw [show loaded.trace.messages = [] from hsaid, show loaded.store = s.reset from hstore]
    by_cases hnone : s.events = []
    · rw [hnone]
      exact iff_of_true (.refl 0) fun hhushes => hhushes.2.2 hnone
    · -- there are events, so the path is not to blame
      have htelling : refused.telling = true := hrefused.resolve_right
        (FileTree.lookup_ne_refused (h.resolve_left hnone) files)
      refine iff_of_false ?_ fun hheard => hheard ⟨htelling, hfault, hnone⟩
      intro hleads
      exact hnone (List.length_eq_zero_iff.mp hleads.count)
  · refine iff_of_true ?_ ?_
    · generalize loaded.trace.messages = said, loaded.store.events.length = left at hload
      cases hload with
      | loaded => exact ⟨⟨trivial, trivial⟩, rfl⟩
      | compacted hle => exact ⟨⟨trivial, ⟨rfl, hle⟩, trivial⟩, rfl⟩
    · rintro ⟨htelling, hfault, -⟩
      obtain ⟨reason, herror⟩ := htells.mpr ⟨hfault, Or.inl htelling⟩
      rw [htold] at herror
      cases herror

theorem leads_selectBySteps_iff [StackRoom] (hbus : s.onBus = true) (refused : Refusals)
    (files : FileTree) (now windowId : Int) (windowClass title layoutId : Text) :
    let o := s.selectBySteps refused files now windowId windowClass title layoutId
    Message.Leads s.events.length o.trace.messages o.store.events.length ↔
      ¬ s.Hushes refused files (.select now windowId windowClass title layoutId) := by
  intro o
  rw [Hushes]
  cases hclass : windowClass.isEmpty with
  | true =>
    have hsilent := s.ignores_selectBySteps refused files now windowId title layoutId
    obtain rfl := List.isEmpty_iff.mp hclass
    rw [show o.trace.messages = [] from hsilent.silent, show o.store = s from hsilent.store]
    exact iff_of_true (.refl _) fun hhushes => nomatch hhushes.1
  | false =>
    obtain ⟨-, hstore, -, hsaid⟩ :=
      s.selectBySteps_spec refused files now windowId title layoutId hclass
    rw [show o.trace.messages = _ from hsaid, show o.store = _ from hstore]
    cases happend : (s.appendBySteps refused files
        (s.nextEvent now windowClass title layoutId)).2 with
    | error reason => exact iff_of_true (.refl _) fun hhushes => nomatch hhushes.2.1
    | ok done =>
      have hlonger : (s.chosen windowId (s.nextEvent now windowClass title layoutId)
          (.ok done)).events.length = s.events.length + 1 := List.length_append
      rw [hlonger, announced, hbus, Bool.true_and]
      cases Numeral.isShowable windowId with
      | true => exact iff_of_true ⟨⟨trivial, trivial⟩, rfl⟩ fun hhushes => nomatch hhushes.2.2
      | false =>
        refine iff_of_false ?_ fun hheard => hheard ⟨rfl, rfl, rfl⟩
        intro hleads
        have hsame : s.events.length = s.events.length + 1 := hleads.count
        omega

theorem leads_compactBySteps [StackRoom] (hbus : s.onBus = true) (refused : Refusals) (name : Text)
    (files : FileTree) :
    Message.Leads s.events.length (s.compactBySteps refused name files).trace.messages
      (s.compactBySteps refused name files).store.events.length := by
  rcases messages_compactBySteps hbus refused name files with ⟨hsaid, hstore⟩ | ⟨hsaid, hstore⟩
  · rw [hsaid, hstore]
    exact .refl _
  · rw [hsaid, hstore]
    exact ⟨⟨⟨rfl, s.length_kept_le⟩, trivial⟩, rfl⟩

/-- What one operation says is right about the events before it, and leads to those after it,
    exactly unless it changes them unheard. -/
theorem leads_iff [StackRoom] (hbus : s.onBus = true) (h : s.HasPlace) (refused : Refusals)
    (name : Text) (files : FileTree) (o : Operation) :
    let after := (Run.start s files).stepBySteps refused name o
    Message.Leads s.events.length after.trace.messages after.store.events.length ↔
      ¬ s.Hushes refused files o := by
  cases o with
  | load known => exact leads_loadBySteps_iff hbus h refused name files known
  | select now windowId windowClass title layoutId =>
    exact leads_selectBySteps_iff hbus refused files now windowId windowClass title layoutId
  | forget windowId => exact iff_of_true (.refl _) id
  | compact => exact iff_of_true (leads_compactBySteps hbus refused name files) id

/-! ## Runs -/

/-- What a store says on its bus while it becomes another by operations, one after the other, none
    of which changes the events unheard. The files are not the store's alone, so each operation may
    find them in any state, and the system may refuse any step of it. -/
inductive Speaks [StackRoom] (s : Store) : List Operation → List Message → Store → Prop where
  | start : Speaks s [] [] s
  | step {operations : List Operation} {said : List Message} {t : Store}
    (h : Speaks s operations said t) (files : FileTree) (refused : Refusals) (name : Text)
    (o : Operation) (hheard : ¬ t.Hushes refused files o) :
    Speaks s (operations ++ [o])
      (said ++ ((Run.start t files).stepBySteps refused name o).trace.messages)
      ((Run.start t files).stepBySteps refused name o).store

/-- Only for a window whose number cannot be shown is anything unheard that is not refused. -/
theorem not_hushes_none [StackRoom] (s : Store) (files : FileTree) {o : Operation}
    (ho : o.IsShowable) : ¬ s.Hushes .none files o := by
  cases o with
  | load known => exact fun hhushes => nomatch hhushes.1
  | select now windowId windowClass title layoutId =>
    intro hhushes
    have hlong := hhushes.2.2
    rw [ho.2] at hlong
    cases hlong
  | _ => exact id

/-- A run is one way in which a store speaks. -/
theorem speaks_steps [StackRoom] (s : Store) (files : FileTree) {operations : List Operation}
    (hshowable : ∀ o ∈ operations, o.IsShowable) :
    let r := (Run.start s files).steps operations
    s.Speaks operations r.trace.messages r.store := by
  induction operations using List.reverseRecOn with
  | nil => exact .start
  | append_singleton operations o ih =>
    let r := (Run.start s files).steps operations
    have ho := hshowable o (List.mem_append_right _ List.mem_cons_self)
    have hbefore := ih fun o' ho' => hshowable o' (List.mem_append_left _ ho')
    obtain ⟨name, hfree⟩ := (r.files.madeAbove r.store.path).exists_isFree r.store.path.parent
    have hstep := hbefore.step r.files .none name o (r.store.not_hushes_none r.files ho)
    have hsteps : (Run.start r.store r.files).stepBySteps .none name o =
        (Run.start r.store r.files).step o :=
      Run.stepBySteps_none (r := Run.start r.store r.files) hfree o
    rw [hsteps] at hstep
    dsimp only
    rw [Run.steps_append, Run.steps_cons, Run.steps_nil, Run.trace_step, Trace.messages_append]
    cases o <;> exact hstep

theorem Speaks.sameLog [StackRoom] (h : s.Speaks operations said t) : Run.SameLog s t := by
  induction h with
  | start => exact Run.SameLog.refl s
  | @step operations said t h files refused name o hheard ih =>
    exact ih.trans (Run.sameLog_stepBySteps (Run.start t files) refused name o)

/-- An observer who knows how many events a store has knows it after any run. -/
theorem Speaks.leads [StackRoom] (h : s.Speaks operations said t) (hbus : s.onBus = true)
    (hs : s.HasPlace) : t.HasPlace ∧ Message.Leads s.events.length said t.events.length := by
  induction h with
  | start => exact ⟨hs, .refl _⟩
  | @step operations said t h files refused name o hheard ih =>
    obtain ⟨hplace, hleads⟩ := ih
    have hsame := h.sameLog.2.2.2.trans hbus
    exact ⟨hasPlace_stepBySteps (r := Run.start t files) hplace refused name o,
      hleads.append ((leads_iff hsame hplace refused name files o).mpr hheard)⟩

/-- After any run of a new store on a bus in which no events changed unheard, the number that its
    messages lead to is that of its events, and each compaction told the number before it and left
    no more. The next operation keeps this exactly unless it changes the events unheard. A load that
    comes to its end sends its one message about what it took up, and only compactions after that;
    one that the system does not let look at the log is not heard of. -/
theorem messages_mirror [StackRoom] {path : Path} {threshold limit : Int}
    (h : (Store.new path threshold limit true).Speaks operations said s) :
    Message.countFrom 0 said = s.events.length ∧
      (∀ earlier before after later,
        said = earlier ++ .historyCompacted before after :: later →
          before = Message.countFrom 0 earlier ∧ after ≤ before) ∧
      ∀ refused name files,
        (∀ o, let after := (Run.start s files).stepBySteps refused name o
          Message.Leads s.events.length after.trace.messages after.store.events.length ↔
            ¬ s.Hushes refused files o) ∧
        ∀ known, let loaded := s.loadBySteps refused name files known
          (loaded.result = .ok () → ∃ events compactions,
            loaded.trace.messages = .historyLoaded events :: compactions ∧
              ∀ m ∈ compactions, ∃ before after, m = .historyCompacted before after) ∧
          ((∃ reason, loaded.result = .error reason) → loaded.trace.messages = []) ∧
          (loaded.result = .ok () ↔
            ¬ (path.fault? = none ∧ (refused.telling = true ∨ files.lookup path = .refused))) := by
  have hbus : s.onBus = true := h.sameLog.2.2.2
  have hpath : s.path = path := h.sameLog.1
  obtain ⟨hplace, hagree, hcount⟩ := h.leads rfl (Or.inl rfl)
  refine ⟨hcount, ?_, fun refused name files => ⟨?_, ?_⟩⟩
  · rintro earlier before after later rfl
    exact hagree.compacted
  · exact fun o => leads_iff hbus hplace refused name files o
  · intro known loaded
    have htells := tells_error_iff refused files s.path
    rw [← hpath, ← htells]
    rcases s.messages_loadBySteps hbus refused name files known with
      ⟨reason, herror, htold, hsilent, -⟩ | ⟨hok, ⟨there, htold⟩, hload⟩
    · have herror' : loaded.result = .error reason := herror
      rw [herror', htold]
      refine ⟨nofun, fun _ => hsilent, ?_⟩
      exact iff_of_false nofun fun hnone => hnone ⟨reason, rfl⟩
    · have hok' : loaded.result = .ok () := hok
      rw [hok', htold]
      refine ⟨fun _ => ?_, ?_, ?_⟩
      · generalize (s.loadBySteps refused name files known).trace.messages = told,
          (s.loadBySteps refused name files known).store.events.length = left at hload
        cases hload with
        | loaded => exact ⟨_, [], rfl, fun m hm => nomatch hm⟩
        | @compacted taken left hle =>
          refine ⟨taken, [.historyCompacted taken left], rfl, ?_⟩
          intro m hm
          exact ⟨taken, left, List.mem_singleton.mp hm⟩
      · rintro ⟨other, hother⟩
        cases hother
      · exact iff_of_true rfl fun ⟨other, hother⟩ => nomatch hother

theorem messages_step_compact [StackRoom] (r : Run) : (r.step .compact).trace.messages =
    r.trace.messages ++ (r.store.compact r.files).trace.messages := by
  rw [Run.trace_step, Trace.messages_append]
  rfl

/-- A load and three choices of one class. -/
def toldOperations : List Operation :=
  [.load .all, .select 20 1 (text "a") (text "b") (text "x"),
   .select 30 1 (text "a") (text "c") (text "y"), .select 10 1 (text "a") (text "b") (text "z")]

/-- They are made by a new store on a bus that ranks a single layout and has no log. -/
def toldRun : Run :=
  (Run.start (Store.new ⟨.workingDirectory, [text "log"]⟩ 9 1 true) ⟨⟨.slash, []⟩, []⟩).steps
    toldOperations

/-- A compaction then drops the first choice, and the messages lead to the two that stay. -/
theorem messages_mirror_toldRun :
    (toldRun.step .compact).trace.messages =
      [.historyLoaded 0,
       .layoutRecorded (text "x") (hashText (text "a")) (hashText (text "b")),
       .layoutRecorded (text "y") (hashText (text "a")) (hashText (text "c")),
       .layoutRecorded (text "z") (hashText (text "a")) (hashText (text "b")),
       .historyCompacted 3 2] ∧ (toldRun.step .compact).store.events.length = 2 := by
  have hdone : (toldRun.store.compact toldRun.files).result = true := by decide +kernel
  have hkept : toldRun.store.kept.length = 2 := by
    rw [kept, List.length_mergeSort]
    decide +kernel
  have hcompacted : (toldRun.store.compact toldRun.files).trace.messages =
      [.historyCompacted 3 2] := by
    rcases toldRun.store.messages_compacted toldRun.store.kept
        (toldRun.store.replaceLog toldRun.files (Log.ofEvents toldRun.store.kept)) with
      ⟨hfailed, -⟩ | ⟨-, hsaid, -⟩
    · rw [compact, hfailed] at hdone
      cases hdone
    · rw [compact, hsaid, hkept]
      decide +kernel
  have hmessages : (toldRun.step .compact).trace.messages =
      [.historyLoaded 0,
       .layoutRecorded (text "x") (hashText (text "a")) (hashText (text "b")),
       .layoutRecorded (text "y") (hashText (text "a")) (hashText (text "c")),
       .layoutRecorded (text "z") (hashText (text "a")) (hashText (text "b")),
       .historyCompacted 3 2] := by
    rw [messages_step_compact, hcompacted]
    decide +kernel
  have hshowable : ∀ o ∈ toldOperations ++ [.compact], o.IsShowable := by decide +kernel
  have hspeaks := speaks_steps (Store.new ⟨.workingDirectory, [text "log"]⟩ 9 1 true)
    ⟨⟨.slash, []⟩, []⟩ hshowable
  rw [Run.steps_append, Run.steps_cons, Run.steps_nil] at hspeaks
  obtain ⟨hcount, -⟩ := messages_mirror hspeaks
  exact ⟨hmessages, hcount.symm.trans (congrArg _ hmessages)⟩

/-- A store on a bus whose log is missing. -/
def toldStore : Store := Store.new ⟨.workingDirectory, [text "log"]⟩ 9 2 true

/-- A first choice for a window whose number cannot be shown. -/
theorem select_toldStore {windowId : Int} (hlong : Numeral.isShowable windowId = false) :
    let o := toldStore.select (.empty ⟨.slash, []⟩) 5 windowId (text "c") (text "t") (text "l")
    o.result = .error (.report .tooLong) ∧ o.trace.messages = [] ∧ o.store.events.length = 1 := by
  intro o
  have hdone : (toldStore.appendToLog (.empty ⟨.slash, []⟩)
      (toldStore.nextEvent 5 (text "c") (text "t") (text "l"))).2 = .ok () := by
    decide +kernel
  obtain ⟨hresult, hstore, -, hsaid⟩ := toldStore.select_of_named (.empty ⟨.slash, []⟩) 5 windowId
    (text "t") (text "l") (show (text "c").isEmpty = false from rfl)
  rw [hdone] at hresult hstore hsaid
  rw [recorded, Numeral.shown_of_not_isShowable hlong] at hresult
  rw [announced, hlong, Bool.and_false] at hsaid
  exact ⟨hresult, hsaid, congrArg (fun s : Store => s.events.length) hstore⟩

/-- A store whose path is too long, on a bus: its load is not heard of, though a load of a log that
    is merely missing is. And a choice for a window whose number is too long: the event is recorded,
    and not heard of. -/
theorem changes_unheard :
    let windowId : Int := 10 ^ Numeral.maxDigits
    let unlucky := (Store.new Run.longPath 9 2 true).load (.empty ⟨.slash, []⟩) .all
    let missing := toldStore.load (.empty ⟨.slash, []⟩) .all
    let unreported := toldStore.select (.empty ⟨.slash, []⟩) 5 windowId (text "c") (text "t")
      (text "l")
    unlucky.result = .error .system ∧ unlucky.trace.messages = [] ∧
      missing.result = .ok () ∧ missing.trace.messages = [.historyLoaded 0] ∧
      unreported.result = .error (.report .tooLong) ∧ unreported.trace.messages = [] ∧
      unreported.store.events.length = 1 := by
  intro windowId unlucky missing unreported
  have hload : unlucky.result = .error .system ∧ unlucky.trace.messages = [] ∧
      missing.result = .ok () ∧ missing.trace.messages = [.historyLoaded 0] := by
    decide +kernel
  obtain ⟨hunlucky, hunheard, hmissing, hheard⟩ := hload
  exact ⟨hunlucky, hunheard, hmissing, hheard, select_toldStore Numeral.not_isShowable_pow⟩

end Store

end WindowLayouts
