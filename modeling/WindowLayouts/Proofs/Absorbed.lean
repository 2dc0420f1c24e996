import WindowLayouts.Proofs.Answers
import WindowLayouts.Proofs.RefusedSteps
import WindowLayouts.Proofs.Restart
import WindowLayouts.Proofs.Writable

/- What becomes of failures. Whatever the log holds, whatever stands in its place, and whoever knows
   the layouts: an operation comes to its end, and a load that got no events leaves an empty store.
   Only the path, the clock and the number of the window can stop one. Whether the log is there is
   asked before anything is caught, and the system refuses to say so for a name or a path that is
   too long. Appending catches what the system refuses, but neither a path that cannot be handed to
   it at all nor one that too many directories are missing of, nor a time that is too long to be
   written. And what is reported with the number of a window is not caught either, where that number
   is too long to be shown.

     `FileTree.holds_error_iff`     when the system does not tell whether a file is there
     `FileTree.allows_escape_iff`   when a path stops a write, and not the system
     `Operation.Fails`              when an operation of a store fails
     `Run.result_iff`               which operations fail
     `Store.lookup_iff`             which lookups fail
     `Run.absorbs_failures`         what holds after any run -/
namespace WindowLayouts

/-! ## Paths that are refused -/

/-- A path that the system takes: it can be handed over, and neither it nor a name in it is too
    long. -/
structure Path.IsAccepted (p : Path) : Prop where
  handed : p.fault? = none
  short : ¬ p.isTooLong = true
  names : ∀ n ∈ p.names, ¬ isNameTooLong n = true

namespace FileTree

theorem follow_ne_refused {t : FileTree} {d : Place} {names : List Text}
    (h : ∀ n ∈ names, ¬ isNameTooLong n = true) : t.follow d names ≠ .refused := by
  fun_induction follow t d names with
  | case2 d rest ih => exact ih fun n hn => h n (List.mem_cons_of_mem _ hn)
  | case3 d name rest hdots hlong => exact absurd hlong (h name List.mem_cons_self)
  | case4 d name hdots hlong place rest hnode ih =>
    exact ih fun n hn => h n (List.mem_cons_of_mem _ hn)
  | _ => simp

theorem lookup_ne_refused {p : Path} (h : p.IsAccepted) (t : FileTree) :
    t.lookup p ≠ .refused := by
  rw [lookup, if_neg h.short]
  exact follow_ne_refused h.names

/-- The system fails to tell what a path leads to exactly if it refuses a path that it was given. -/
theorem holds_error_iff (t : FileTree) (p : Path) :
    (∃ reason, t.holds p = .error reason) ↔ p.fault? = none ∧ t.lookup p = .refused := by
  unfold holds
  cases hfault : p.fault? with
  | some fault => simp
  | none => cases t.lookup p <;> simp

/-- Making directories is refused by the system, unless the path itself stops it. -/
theorem makeDirectories_error [StackRoom] {t : FileTree} {p : Path} {reason : FileFailure}
    (h : (t.makeDirectories p).2 = .error reason) :
    reason = .system ∨ reason = .tooDeep ∨ p.fault? ≠ none := by
  rcases t.makeDirectories_cases p with ⟨fault, hfault, -⟩ | ⟨-, -, hmade⟩ | ⟨-, -, -, hmade⟩ |
    ⟨-, -, -, hmade⟩
  · exact Or.inr (Or.inr (by simp [hfault]))
  · rw [hmade] at h
    exact Or.inl (Except.error.inj h).symm
  · rw [hmade] at h
    exact Or.inr (Or.inl (Except.error.inj h).symm)
  · rw [hmade] at h
    dsimp only at h
    split at h
    · cases h
    · exact Or.inl (Except.error.inj h).symm

/-- Writing a file is refused by the system, unless its path cannot be handed over. -/
theorem write_error {t : FileTree} {p : Path} {content : Bytes} {reason : FileFailure}
    (h : t.write p content = .error reason) :
    if p.fault? = none then reason = .system else reason ≠ .system := by
  unfold write at h
  cases hfault : p.fault? with
  | some fault =>
    rw [hfault] at h
    obtain rfl := Except.error.inj h
    exact nofun
  | none =>
    rw [hfault] at h
    dsimp only at h
    split at h
    · cases h
    · cases h
    · exact (Except.error.inj h).symm

/-- The path stops a write, and not the system, exactly if too many directories are missing of it,
    or it cannot be handed over and no refusal of the system comes before. -/
theorem allows_escape_iff [StackRoom] (t : FileTree) (p : Path) :
    (∃ reason, t.allows p = .error reason ∧ reason ≠ .system) ↔
      p.fault? ≠ none ∧ (t.makeDirectories p.parent).2 ≠ .error .system ∨
        (t.makeDirectories p.parent).2 = .error .tooDeep := by
  rcases allows_cases t p with
    ⟨reason, herror, hmade⟩ | ⟨reason, herror, hmade, hwrite⟩ | ⟨hok, hmade, hwrite⟩
  · rw [herror, hmade]
    constructor
    · rintro ⟨other, hother, hsystem⟩
      obtain rfl := Except.error.inj hother
      rcases makeDirectories_error hmade with hrefused | hdeep | hfault
      · exact absurd hrefused hsystem
      · exact Or.inr (by rw [hdeep])
      · exact Or.inl ⟨fun hnone => hfault (Path.fault?_parent hnone), by simpa using hsystem⟩
    · rintro (⟨-, hsystem⟩ | hdeep)
      · exact ⟨reason, rfl, by simpa using hsystem⟩
      · obtain rfl := Except.error.inj hdeep
        exact ⟨.tooDeep, rfl, nofun⟩
  · have hreason := write_error (hwrite [])
    rw [herror, hmade]
    split at hreason
    · rename_i hfault
      simp [hfault, hreason]
    · rename_i hfault
      simp [hfault, hreason]
  · rw [hok, hmade]
    obtain ⟨t', hwritten⟩ := hwrite []
    have hfault : p.fault? = none := by
      unfold write at hwritten
      split at hwritten
      · cases hwritten
      · assumption
    simp [hfault]

end FileTree

/-! ## What an operation ends with -/

namespace Store

theorem result_appendToLog [StackRoom] (s : Store) (files : FileTree) (e : Event) :
    (s.appendToLog files e).2 = e.written (files.allows s.path) := by
  rw [appendToLog_eq]
  rcases FileTree.allows_cases files s.path with
    ⟨reason, hallows, hmade⟩ | ⟨reason, hallows, hmade, hwrite⟩ | ⟨hallows, hmade, hok⟩
  · rw [hallows, hmade]
    rfl
  · rw [hallows, hmade]
    dsimp only
    rw [hwrite]
    rfl
  · rw [hallows, hmade]
    dsimp only
    obtain ⟨written, hwritten⟩ :=
      hok ((Log.grown ((files.madeAbove s.path).read? s.path) e (.ok ())).getD [])
    rw [hwritten]

/-- What recording ends with is decided by whether the system allows writing, and by whether the
    event can be written. -/
theorem result_select [StackRoom] (s : Store) (files : FileTree) (now windowId : Int)
    {windowClass : Text} (title layoutId : Text) (hclass : windowClass.isEmpty = false) :
    (s.select files now windowId windowClass title layoutId).result =
      recorded windowId ((s.nextEvent now windowClass title layoutId).written
        (files.allows s.path)) := by
  rw [← s.result_appendToLog files (s.nextEvent now windowClass title layoutId)]
  exact (s.select_of_named files now windowId title layoutId hclass).1

/-- Recording fails exactly if the path stops the write, or the event cannot be written, or it was
    and cannot be reported. -/
theorem recorded_written_iff (windowId : Int) (e : Event) (allowed : Except FileFailure Unit) :
    recorded windowId (e.written allowed) = .ok () ↔
      ¬ (((∃ reason, allowed = .error reason ∧ reason ≠ .system) ∨
          allowed = .ok () ∧ Numeral.isShowable windowId = false) ∨
        allowed = .ok () ∧ Numeral.isShowable e.time = false) := by
  cases allowed with
  | error reason => cases reason <;> simp [recorded, Event.written]
  | ok done =>
    cases htime : Numeral.isShowable e.time with
    | true =>
      rw [Event.written_of_isShowable htime, recorded_ok_iff]
      simp
    | false => simp [recorded, Event.written, htime]

/-- Loading fails exactly if the system does not tell whether the log is there. -/
theorem result_load [StackRoom] (s : Store) (files : FileTree) (known : KnownLayouts) :
    (s.load files known).result = .ok () ↔ ¬ ∃ reason, files.holds s.path = .error reason := by
  have hlog : (s.loadLog files known).result = .ok () := s.result_takeRead _ _ _ _
  unfold load loadIfThere
  cases files.holds s.path with
  | error reason => simp
  | ok there => cases there <;> simp [hlog, loadedNothing]

/-- A load that finds no log, or gives up on it, leaves an empty store. -/
theorem load_empty [StackRoom] {s : Store} {files : FileTree} {known : KnownLayouts}
    (h : files.log? s.path = none ∨ s.loadError? files known ≠ none) :
    (s.load files known).store = s.reset := by
  rcases h with hnone | hgaveUp
  · have hload := s.load_spec files known
    rw [hnone] at hload
    exact (Prod.mk.inj hload).1
  · obtain ⟨reason, hreason⟩ := Option.ne_none_iff_exists'.mp hgaveUp
    exact (load_of_loadError? hreason).1

/-- A lookup fails exactly if the session knows the choice of a window with too long a number. -/
theorem lookup_iff (s : Store) (windowId : Int) (windowClass title : Text) :
    (∃ id?, (s.lookup windowId windowClass title).1 = .ok id?) ↔
      ¬ (windowClass.isEmpty = false ∧ (Keyed.get? windowId s.session).isSome ∧
        Numeral.isShowable windowId = false) := by
  cases hclass : windowClass.isEmpty with
  | true => simp [lookup, hclass]
  | false =>
    cases hsession : Keyed.get? windowId s.session with
    | some id =>
      rw [lookup_of_session hclass title hsession]
      cases Numeral.isShowable windowId <;> simp
    | none =>
      unfold lookup
      rw [hclass, hsession]
      dsimp only
      cases s.index.lookupTitle (hashText windowClass) (hashText title) with
      | some id => simp
      | none => cases s.index.lookupClass (hashText windowClass) <;> simp

end Store

/-! ## Runs -/

/-- When an operation on the log at a path fails for the path or the number of the window. The
    system refuses the path before a load looks at the log, or the path stops an event that is to be
    written, or one that is written cannot be reported. -/
def Operation.Escapes [StackRoom] (path : Path) (files : FileTree) : Operation → Prop
  | .load _ => path.fault? = none ∧ files.lookup path = .refused
  | .select _ windowId windowClass _ _ =>
    windowClass.isEmpty = false ∧
      ((path.fault? ≠ none ∧ (files.makeDirectories path.parent).2 ≠ .error .system ∨
          (files.makeDirectories path.parent).2 = .error .tooDeep) ∨
        files.allows path = .ok () ∧ Numeral.isShowable windowId = false)
  | _ => False

/-- When the log could be written, but not the event of an operation: its time is too long. -/
def Operation.IsUnwritable [StackRoom] (s : Store) (files : FileTree) : Operation → Prop
  | .select now _ windowClass _ _ =>
    windowClass.isEmpty = false ∧ files.allows s.path = .ok () ∧
      Numeral.isShowable (s.nextTime now) = false
  | _ => False

/-- When an operation of a store fails. -/
def Operation.Fails [StackRoom] (s : Store) (files : FileTree) (o : Operation) : Prop :=
  o.Escapes s.path files ∨ o.IsUnwritable s files

/-- The clock of an operation and the number of the window that it is about can be shown. -/
def Operation.IsShowable : Operation → Prop
  | .select now windowId _ _ _ =>
    Numeral.isShowable now = true ∧ Numeral.isShowable windowId = true
  | _ => True

instance (o : Operation) : Decidable o.IsShowable :=
  match o with
  | .select now windowId _ _ _ =>
    inferInstanceAs
      (Decidable (Numeral.isShowable now = true ∧ Numeral.isShowable windowId = true))
  | .load _ => isTrue trivial
  | .forget _ => isTrue trivial
  | .compact => isTrue trivial

namespace Run

/-- What an operation ends with. Forgetting always works, and compacting tells whether it did. -/
def result [StackRoom] (r : Run) : Operation → Except RecordingFailure Unit
  | .load known => (r.store.load r.files known).result.mapError .log
  | .select now windowId windowClass title layoutId =>
    (r.store.select r.files now windowId windowClass title layoutId).result
  | _ => .ok ()

theorem result_iff [StackRoom] (r : Run) (o : Operation) :
    r.result o = .ok () ↔ ¬ o.Fails r.store r.files := by
  cases o with
  | load known =>
    have hsame : r.result (.load known) = .ok () ↔
        (r.store.load r.files known).result = .ok () := by
      rw [result]
      cases (r.store.load r.files known).result <;> simp [Except.mapError]
    rw [hsame, Store.result_load, FileTree.holds_error_iff]
    exact not_congr (or_iff_left (fun hnever : False => hnever)).symm
  | select now windowId windowClass title layoutId =>
    rw [result, Operation.Fails, Operation.Escapes, Operation.IsUnwritable]
    cases hclass : windowClass.isEmpty with
    | true => simp [(r.store.select_of_isEmpty r.files now windowId title layoutId hclass).2.2]
    | false =>
      rw [Store.result_select _ _ _ _ _ _ hclass, Store.recorded_written_iff,
        FileTree.allows_escape_iff]
      simp only [true_and]
      rfl
  | _ => simp [result, Operation.Fails, Operation.Escapes, Operation.IsUnwritable]

theorem not_fails [StackRoom] {s : Store} (h : s.path.IsAccepted) (htimes : s.HasShowableTimes)
    {files : FileTree} (hroom : ¬ files.isTooDeep s.path.parent = true) {o : Operation}
    (ho : o.IsShowable) : ¬ o.Fails s files := by
  cases o with
  | load known =>
    rintro (hload | hnever)
    · exact FileTree.lookup_ne_refused h files hload.2
    · exact hnever
  | select now windowId windowClass title layoutId =>
    obtain ⟨hnow, hnumber⟩ := ho
    have htime : Numeral.isShowable (s.nextTime now) = true :=
      s.forall_nextTime (P := fun time => Numeral.isShowable time = true) hnow htimes
    rintro (⟨-, (⟨hfault, -⟩ | hdeep) | ⟨-, hlong⟩⟩ | ⟨-, -, hlong⟩)
    · exact hfault h.handed
    · exact hroom (FileTree.makeDirectories_tooDeep_iff.mp hdeep).2.2
    · rw [hnumber] at hlong
      cases hlong
    · rw [htime] at hlong
      cases hlong
  | _ => exact fun hfails => hfails.elim id id

/-- After any run an operation fails just where the path, the time of its event or the number of a
    window stops it, and a lookup where such a number does. None fails on a path that the system
    takes, where the missing directories can be made, for numbers that can be shown. A load that got
    no events leaves an empty store. -/
theorem absorbs_failures [StackRoom] (s : Store) (files : FileTree) (operations : List Operation) :
    let r := (start s files).steps operations
    (∀ o, r.result o = .ok () ↔ ¬ o.Fails r.store r.files) ∧
      (∀ windowId windowClass title,
        (∃ id?, (r.store.lookup windowId windowClass title).1 = .ok id?) ↔
          ¬ (windowClass.isEmpty = false ∧ (Keyed.get? windowId r.store.session).isSome ∧
            Numeral.isShowable windowId = false)) ∧
      (s.path.IsAccepted → s.HasShowableTimes → ¬ r.files.isTooDeep s.path.parent = true →
        ∀ o, o.IsShowable → r.result o = .ok ()) ∧
      ∀ known, r.files.log? s.path = none ∨ r.store.loadError? r.files known ≠ none →
        let loaded := (r.store.load r.files known).store
        loaded.events = [] ∧ loaded.index = Index.empty ∧ loaded.session = [] := by
  intro r
  have hpath : r.store.path = s.path := (sameLog_steps (start s files) operations).1
  refine ⟨r.result_iff, r.store.lookup_iff, ?_, ?_⟩
  · intro haccepted htimes hroom o ho
    have hbecomes : s.Becomes operations r.store := Store.becomes_steps (start s files) operations
    rw [← hpath] at haccepted hroom
    exact (r.result_iff o).mpr
      (not_fails haccepted (hbecomes.endures.hasShowableTimes htimes) hroom ho)
  · intro known hnothing loaded
    rw [← hpath] at hnothing
    have hloaded : loaded = r.store.reset := Store.load_empty hnothing
    rw [hloaded]
    exact ⟨rfl, rfl, rfl⟩

/-- A store at work where a directory stands in the place of the log. -/
def directoryRun : Run :=
  (start (smallStore 9) ⟨⟨.slash, []⟩, [([text "log"], .directory)]⟩).steps
    (.load .all :: twoChoices)

theorem absorbs_failures_directory :
    (smallStore 9).path.IsAccepted ∧ (smallStore 9).HasShowableTimes ∧
      ¬ directoryRun.files.isTooDeep (smallStore 9).path.parent = true ∧
      directoryRun.files.log? (smallStore 9).path = none ∧
      directoryRun.result (.select 5 1 (text "a") [0xD800] [0xD83D, 0xDE00]) = .ok () ∧
      (directoryRun.store.load directoryRun.files (.failed (text "gone"))).store.session = [] := by
  have haccepted : (smallStore 9).path.IsAccepted :=
    ⟨by decide, by decide +kernel, by decide +kernel⟩
  have hroom : ¬ directoryRun.files.isTooDeep (smallStore 9).path.parent = true := by
    decide +kernel
  have hnone : directoryRun.files.log? (smallStore 9).path = none := by decide +kernel
  have hshowable : (Operation.select 5 1 (text "a") [0xD800] [0xD83D, 0xDE00]).IsShowable := by
    decide
  have htimes : (smallStore 9).HasShowableTimes := List.forall_mem_nil _
  obtain ⟨-, -, hall, hempty⟩ := absorbs_failures (smallStore 9)
    ⟨⟨.slash, []⟩, [([text "log"], .directory)]⟩ (.load .all :: twoChoices)
  exact ⟨haccepted, htimes, hroom, hnone, hall haccepted htimes hroom _ hshowable,
    (hempty _ (Or.inl hnone)).2.2⟩

/-- A path with a name of more bytes than the system takes. -/
def longPath : Path := ⟨.workingDirectory, [List.replicate 300 (CodePoint.ofChar 'x')]⟩

/-- A path that a zero would end. -/
def zeroPath : Path := ⟨.workingDirectory, [[0x61, 0, 0x62]]⟩

/-- Two logs that are missing: the one stops a load, and the other a choice. -/
theorem failures_escape :
    (FileTree.empty ⟨.slash, []⟩).log? longPath = none ∧
      (start (Store.new longPath 9 2 false) (.empty ⟨.slash, []⟩)).result (.load .all) =
        .error (.log .system) ∧
      (FileTree.empty ⟨.slash, []⟩).log? zeroPath = none ∧
      (start (Store.new zeroPath 9 2 false) (.empty ⟨.slash, []⟩)).result
          (.select 0 1 (text "c") (text "t") (text "l")) =
        .error (.log (.name .zero)) := by
  decide +kernel

end Run

end WindowLayouts
