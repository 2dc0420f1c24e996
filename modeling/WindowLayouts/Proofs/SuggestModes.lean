import WindowLayouts.CommandLine.Run
import WindowLayouts.Proofs.Absorbed
import WindowLayouts.Proofs.Answers

/- Asking for the layout of a class and title, and asking for all layouts of the class. The one goes
   through the title keys and the head of the ranking, the other lists the ranking; since an event
   with a title key is one of its class, the one finds a layout exactly if the other lists some.
   Each question loads the log and may compact it. That changes the answer to neither, so the order
   in which they are asked does not matter.

   A title that is just a double dash counts as none, as the value of every option does.

     `Store.load_again`                    loading a log again gives the same answers
     `Store.lookup_eq_none_iff`            a lookup finds nothing where nothing is ranked
     `CommandLine.prepare_asking`          both questions come to the same settings
     `CommandLine.suggest_modes_agree`     the two questions, in whichever order
     `CommandLine.dashes_are_no_title`     a title that is a double dash -/
namespace WindowLayouts

namespace Store

variable {s : Store} {files : FileTree}

/-! ## Loading twice -/

/-- What a load leaves of a log that can be read is a log, and the store follows it. -/
theorem load_leaves [StackRoom] {content : Bytes} (hlog : files.log? s.path = some content)
    (hreadable : Log.isReadable content = true) :
    ∃ after, (s.load files .all).files.IsLog s.path (some after) ∧
      (s.load files .all).store.Follows .all (some after) := by
  have his : files.IsLog s.path (some content) := FileTree.isLog_of_log? hlog
  have htaken : (s.taken .all (some content)).Follows .all (some content) :=
    s.follows_taken .all hreadable
  have hnone : KnownLayouts.all.error? = none := rfl
  rcases load_cases his hreadable hnone with ⟨hstore, hfiles⟩ | ⟨-, hstore, hfiles⟩
  · rw [hstore, hfiles]
    exact ⟨content, his, htaken⟩
  · rw [hstore, hfiles]
    rcases (s.taken .all (some content)).compact_spec files with
      ⟨-, hstore, -, hafter⟩ | ⟨-, hstore, hfiles⟩
    · rw [hstore]
      exact ⟨_, hafter, htaken.withKept⟩
    · rw [hstore, hfiles]
      exact ⟨content, his.madeAbove, htaken⟩

theorem result_load_of_log? [StackRoom] {content : Bytes} (h : files.log? s.path = some content)
    (known : KnownLayouts) : (s.load files known).result = .ok () := by
  rw [result_load, (holds_of_log? h).1]
  rintro ⟨reason, hreason⟩
  cases hreason

/-- A log that was loaded gives the same answers when it is loaded again. -/
theorem load_again [StackRoom] (hlimit : 1 ≤ s.limit) (files : FileTree) :
    let loaded := s.load files .all
    let again := s.load loaded.files .all
    Index.Same again.store.index loaded.store.index ∧
      (again.result = .ok () ↔ loaded.result = .ok ()) := by
  intro loaded again
  have hload := s.load_spec files .all
  cases htaken : KnownLayouts.all.taken? (files.log? s.path) with
  | none =>
    -- nothing was taken up, and nothing changed
    rw [htaken] at hload
    have hfiles : loaded.files = files := (Prod.mk.inj hload).2
    have hagain : again = loaded := congrArg (fun t => s.load t .all) hfiles
    rw [hagain]
    exact ⟨Index.Same.refl _, Iff.rfl⟩
  | some events =>
    cases hlog : files.log? s.path with
    | none =>
      rw [hlog] at htaken
      cases htaken
    | some content =>
      have hreadable : Log.isReadable content = true := by
        by_contra hnot
        rw [hlog, KnownLayouts.taken?_of_not_readable _ (Bool.eq_false_iff.mpr hnot)] at htaken
        cases htaken
      obtain ⟨after, hafter, hfollows⟩ := load_leaves hlog hreadable
      obtain ⟨hsame, -, -⟩ := load_answers hafter hfollows.readable
        (show KnownLayouts.all.error? = none from rfl) hlimit
      obtain ⟨-, -, hsize, -⟩ := Run.sameLog_load s files .all
      have hindex : loaded.store.index = Index.rebuild s.limit loaded.store.events := by
        rw [← hsize]
        exact hfollows.index
      have hevents : loaded.store.events = KnownLayouts.all.eventsOf (some after) :=
        hfollows.events
      refine ⟨?_, iff_of_true (result_load_of_log? hafter.now _) (result_load_of_log? hlog _)⟩
      rw [hindex, hevents]
      exact hsame

/-- A load gives the store events that the log decodes to. -/
theorem mem_decoded_of_load [StackRoom] {e : Event} (h : e ∈ (s.load files .all).store.events) :
    ∃ content, files.log? s.path = some content ∧ e ∈ Log.decoded content := by
  have hload := congrArg Prod.fst (s.load_spec files .all)
  cases htaken : KnownLayouts.all.taken? (files.log? s.path) with
  | none =>
    rw [htaken] at hload
    rw [show (s.load files .all).store = s.reset from hload] at h
    cases h
  | some events =>
    rw [htaken] at hload
    have hsubset : e ∈ events := by
      rw [show (s.load files .all).store = (s.takeUp files events).1 from hload] at h
      unfold takeUp at h
      dsimp only at h
      split at h
      · rw [store_compact] at h
        split at h
        · exact mem_events_of_mem_kept h
        · exact h
      · exact h
    cases hlog : files.log? s.path with
    | none =>
      rw [hlog] at htaken
      cases htaken
    | some content =>
      rw [hlog, KnownLayouts.taken?] at htaken
      split at htaken
      · obtain rfl := Option.some.inj htaken
        exact ⟨content, rfl, KnownLayouts.all.select_subset _ (List.mem_mergeSort.mp hsubset)⟩
      · cases htaken

/-! ## What is found and what is listed -/

/-- The head of the ranking is what the class alone is remembered for. -/
theorem head?_recent (s : Store) {windowClass : Text} (hclass : windowClass.isEmpty = false) :
    (s.recent windowClass).head? = s.index.lookupClass (hashText windowClass) := by
  have hopen : ¬ windowClass.isEmpty = true := by simp [hclass]
  rw [recent, if_neg hopen, Index.retained, Index.lookupClass, List.head?_map]

/-- A store without choices of the session, whose answers come from its events. -/
structure IsFresh (s : Store) : Prop where
  consistent : s.Consistent
  session : s.session = []
  limit : 1 ≤ s.limit

theorem isFresh_load [StackRoom] (hlimit : 1 ≤ s.limit) (files : FileTree) (known : KnownLayouts)
    (hs : s.Consistent) : (s.load files known).store.IsFresh := by
  refine ⟨?_, s.session_load files known, ?_⟩
  · exact Run.consistent_step (r := Run.start s files) hs (.load known)
  · rw [(Run.sameLog_load s files known).2.2.1]
    exact hlimit

variable {windowClass : Text}

theorem IsFresh.lookup (h : s.IsFresh) (hclass : windowClass.isEmpty = false) (windowId : Int)
    (title : Text) :
    (s.lookup windowId windowClass title).1 = .ok (Event.answer? windowClass title s.events) := by
  have hnone : Keyed.get? windowId s.session = none := by
    rw [h.session]
    rfl
  exact h.consistent.lookup h.limit hclass title hnone

theorem IsFresh.head?_recent (h : s.IsFresh) (hclass : windowClass.isEmpty = false) :
    (s.recent windowClass).head? =
      (Event.last? (fun e => e.classHash = hashText windowClass) s.events).map (·.layoutId) := by
  rw [s.head?_recent hclass, h.consistent.index, Index.lookupClass_rebuild h.limit]

/-- A lookup finds nothing exactly where no layout is ranked: an event of the class and title is one
    of the class. -/
theorem IsFresh.lookup_eq_none_iff (h : s.IsFresh) (windowId : Int) (windowClass title : Text) :
    (s.lookup windowId windowClass title).1 = .ok none ↔ s.recent windowClass = [] := by
  cases hclass : windowClass.isEmpty with
  | true => simp [Store.lookup, recent, hclass]
  | false =>
    rw [← List.head?_eq_none_iff, h.head?_recent hclass, h.lookup hclass, Except.ok.injEq]
    -- where no event is of the class, none is of the class and title
    unfold Event.answer? Event.last?
    simp only [Option.map_eq_none_iff, Option.or_eq_none_iff, List.find?_eq_none,
      decide_eq_true_eq]
    constructor
    · exact fun hnone => hnone.2
    · exact fun hnone => ⟨fun e he hboth => hnone e he hboth.1, hnone⟩

/-- Without an event of the class and title a lookup finds the head of the ranking. -/
theorem IsFresh.lookup_eq_head? (h : s.IsFresh) (windowId : Int) {title : Text}
    (hnot : ∀ e ∈ s.events,
      ¬ (e.classHash = hashText windowClass ∧ e.titleHash = hashText title)) :
    (s.lookup windowId windowClass title).1 = .ok (s.recent windowClass).head? := by
  cases hclass : windowClass.isEmpty with
  | true => simp [Store.lookup, recent, hclass]
  | false =>
    have hnone : Event.last? (fun e => e.classHash = hashText windowClass ∧
        e.titleHash = hashText title) s.events = none := by
      simpa [Event.last?] using hnot
    rw [h.head?_recent hclass, h.lookup hclass, Event.answer?, hnone, Option.none_or]

end Store

namespace CommandLine

/-! ## The two questions -/

/-- Arguments that ask about a class in a log. -/
def asking (history windowClass rest : Text) : List Text :=
  [text "--history=" ++ history, text "suggest", text "--wm-class=" ++ windowClass, rest]

/-- Ask for the layout of a class and title. -/
def askingOne (history windowClass title : Text) : List Text :=
  asking history windowClass (text "--title=" ++ title)

/-- Ask for all layouts of a class. -/
def askingAll (history windowClass : Text) : List Text :=
  asking history windowClass (text "--all")

variable {history windowClass title : Text}

/-- Where the options of the program are read, an argument for the command may be anything but
    ambiguous. -/
theorem anyAmbiguous_asking {rest : Text} (h : classify programOptions rest ≠ .ambiguous) :
    anyAmbiguous (asking history windowClass rest) = false := by
  -- no option of the program begins like this one, whatever the class is
  have hclass : classify programOptions (text "--wm-class=" ++ windowClass) =
      if (text "--wm-class=" ++ windowClass).contains (CodePoint.ofChar ' ') then .operand
      else .unknownOption := rfl
  rw [anyAmbiguous, List.any_eq_false]
  intro t ht
  rw [decide_eq_true_eq]
  have hmem : t ∈ asking history windowClass rest := (List.takeWhile_sublist _).mem ht
  simp only [asking, List.mem_cons, List.not_mem_nil, or_false] at hmem
  rcases hmem with rfl | rfl | rfl | rfl
  · exact nofun
  · exact nofun
  · rw [hclass]
    split <;> exact nofun
  · exact h

theorem parseAll_askingOne (history windowClass title : Text) :
    parseAll (askingOne history windowClass title) =
      .ok ⟨none, some (givenValue history),
        .suggest (givenValue windowClass) (givenValue title) false⟩ := by
  have htitle : classify programOptions (text "--title=" ++ title) =
      if (text "--title=" ++ title).contains (CodePoint.ofChar ' ') then .operand
      else .unknownOption := rfl
  have hclear : anyAmbiguous (askingOne history windowClass title) = false := by
    apply anyAmbiguous_asking
    rw [htitle]
    split <;> exact nofun
  rw [parseAll, hclear]
  rfl

theorem parseAll_askingAll (history windowClass : Text) :
    parseAll (askingAll history windowClass) =
      .ok ⟨none, some (givenValue history), .suggest (givenValue windowClass) [] true⟩ := by
  have hclear : anyAmbiguous (askingAll history windowClass) = false :=
    anyAmbiguous_asking (by decide)
  rw [parseAll, hclear]
  rfl

/-- Settings that are found always rank some layout. -/
theorem limit_of_make {env : Environment} {given : Overrides} {settings : Settings}
    (h : Settings.make env given = .ok settings) : 1 ≤ settings.limit := by
  unfold Settings.make at h
  cases hpath : (Settings.historyPathFrom env given.historyPath).mapError SettingsError.home with
  | error reason =>
    rw [hpath] at h
    cases h
  | ok path =>
    rw [hpath] at h
    simp only [bind, Except.bind] at h
    split at h
    · cases h
    · split at h
      · cases h
      · cases h
        show 1 ≤ given.limit.getD Settings.defaultLimit
        omega

/-- Both questions are refused, or both are asked under the same settings. -/
theorem prepare_asking (env : Environment) (history windowClass title : Text) :
    (∃ reason, prepare env (askingOne history windowClass title) = .error reason ∧
        prepare env (askingAll history windowClass) = .error reason) ∨
      ∃ settings least, 1 ≤ settings.limit ∧
        prepare env (askingOne history windowClass title) = .ok ⟨settings, least,
          .suggest (givenValue windowClass) (givenValue title) false⟩ ∧
        prepare env (askingAll history windowClass) = .ok ⟨settings, least,
          .suggest (givenValue windowClass) [] true⟩ := by
  unfold prepare
  rw [parseAll_askingOne, parseAll_askingAll]
  simp only [Except.mapError, bind, Except.bind]
  cases hmake : Settings.make env _ with
  | error reason => exact Or.inl ⟨_, rfl, rfl⟩
  | ok settings =>
    dsimp only
    cases leastRank (some settings.levelName) with
    | error reason => exact Or.inl ⟨_, rfl, rfl⟩
    | ok least => exact Or.inr ⟨settings, least, limit_of_make hmake, rfl, rfl⟩

/-! ## What a question ends with -/

/-- A run that ends by writing some ids, and fails if there are none. -/
def Writes (ids : List Text) (left : FileTree) (ending : Ending) : Prop :=
  ∃ errors, ending = .ok ⟨if ids.isEmpty then 1 else 0, ids.flatMap asLine, errors, left⟩

/-- What a question finds in a store. -/
def found (s : Store) (windowClass title : Text) (all : Bool) : List Text :=
  if all then s.recent windowClass
  else (s.lookup noWindow windowClass title).1.toOption.join.toList

/-- A question loads the log and writes what it finds, or fails with the load. -/
theorem runSuggest_spec [StackRoom] (settings : Settings) (least : Nat) (files : FileTree)
    (windowClass title : Text) (all : Bool) :
    let loaded := (openStore settings).load files .all
    (loaded.result = .ok () → Writes (found loaded.store windowClass title all) loaded.files
        (runSuggest settings least files windowClass title all)) ∧
      (loaded.result ≠ .ok () →
        ∃ reason, runSuggest settings least files windowClass title all = .error reason) := by
  intro loaded
  unfold runSuggest
  dsimp only
  cases hresult : ((openStore settings).load files .all).result with
  | error reason =>
    exact ⟨nofun, fun _ => ⟨_, rfl⟩⟩
  | ok done =>
    refine ⟨fun _ => ?_, fun hnot => absurd rfl hnot⟩
    cases all with
    | true => exact ⟨_, rfl⟩
    | false =>
      have hshowable : Numeral.isShowable noWindow = true := by decide
      obtain ⟨id?, hfound⟩ := (loaded.store.lookup_iff noWindow windowClass title).mpr
        (by simp [hshowable])
      have hfound' : (((openStore settings).load files .all).store.lookup noWindow windowClass
        title).1 = .ok id? := hfound
      simp only [bind, Except.bind, Except.mapError, found, Writes, Bool.false_eq_true, if_false,
        hfound, hfound', Except.toOption, Option.join_some]
      cases id? with
      | none => exact ⟨_, rfl⟩
      | some id =>
        rw [Option.toList_some, List.flatMap_singleton]
        exact ⟨_, rfl⟩

theorem found_congr {s s' : Store} (h : s.IsFresh) (h' : s'.IsFresh)
    (hindex : Index.Same s.index s'.index) (windowClass title : Text) (all : Bool) :
    found s windowClass title all = found s' windowClass title all := by
  have hsession : Keyed.get? noWindow s.session = Keyed.get? noWindow s'.session := by
    rw [h.session, h'.session]
  rw [found, found, Store.recent_congr hindex, Store.lookup_congr hindex hsession]

/-- The two questions about one log, apart or one after the other. A question that fails leaves the
    files. -/
inductive Asked [StackRoom] (env : Environment) (history windowClass title : Text)
    (files : FileTree) :
    Ending → Ending → Prop where
  | apart : Asked env history windowClass title files
    (run env (askingOne history windowClass title) files)
    (run env (askingAll history windowClass) files)
  | oneFirst {done : Finished}
    (h : run env (askingOne history windowClass title) files = .ok done) :
    Asked env history windowClass title files (.ok done)
      (run env (askingAll history windowClass) done.files)
  | allFirst {done : Finished} (h : run env (askingAll history windowClass) files = .ok done) :
    Asked env history windowClass title files
      (run env (askingOne history windowClass title) done.files) (.ok done)

variable {env : Environment} {files left : FileTree} {one all ending : Ending} {ids : List Text}

theorem Writes.of_ok {done : Finished} (h : Writes ids left ending) (hdone : ending = .ok done) :
    done.code = (if ids.isEmpty then 1 else 0) ∧ done.output = ids.flatMap asLine ∧
      done.files = left := by
  obtain ⟨errors, hending⟩ := h
  obtain rfl := Except.ok.inj (hdone.symm.trans hending)
  exact ⟨rfl, rfl, rfl⟩

/-- A question that is asked under some settings, of any files. -/
theorem run_asking [StackRoom] {arguments : List Text} {settings : Settings} {least : Nat}
    {windowClass title : Text} {all : Bool}
    (h : prepare env arguments = .ok ⟨settings, least, .suggest windowClass title all⟩)
    (files : FileTree) :
    run env arguments files = runSuggest settings least files windowClass title all := by
  unfold run
  rw [h]
  rfl

/-- Questions that fail on a log fail in whichever order they are asked, since neither comes to
    leave another log. -/
theorem Asked.fails [StackRoom] (h : Asked env history windowClass title files one all)
    (hone : ∃ reason, run env (askingOne history windowClass title) files = .error reason)
    (hall : ∃ reason, run env (askingAll history windowClass) files = .error reason) :
    (∃ reason, one = .error reason) ∧ ∃ reason, all = .error reason := by
  obtain ⟨reason, hone⟩ := hone
  obtain ⟨reason', hall⟩ := hall
  cases h with
  | apart => exact ⟨⟨reason, hone⟩, reason', hall⟩
  | oneFirst h =>
    rw [hone] at h
    cases h
  | allFirst h =>
    rw [hall] at h
    cases h

/-- Questions that write the same again about the log that they leave write it in whichever order
    they are asked. -/
theorem Asked.writes_again [StackRoom] {ids' : List Text}
    (h : Asked env history windowClass title files one all) (left : FileTree)
    (hone : Writes ids left (run env (askingOne history windowClass title) files))
    (hall : Writes ids' left (run env (askingAll history windowClass) files))
    (hone' : ∃ after, Writes ids after (run env (askingOne history windowClass title) left))
    (hall' : ∃ after, Writes ids' after (run env (askingAll history windowClass) left)) :
    (∃ after, Writes ids after one) ∧ ∃ after, Writes ids' after all := by
  cases h with
  | apart => exact ⟨⟨left, hone⟩, left, hall⟩
  | oneFirst hdone =>
    rw [(hone.of_ok hdone).2.2]
    exact ⟨⟨left, hdone ▸ hone⟩, hall'⟩
  | allFirst hdone =>
    rw [(hall.of_ok hdone).2.2]
    exact ⟨hone', left, hdone ▸ hall⟩

/-- Both questions fail, since they are refused or the log cannot be looked for; or both write what
    is found after one load of the log, in whichever order they are asked. -/
theorem Asked.writes [StackRoom] (h : Asked env history windowClass title files one all) :
    (((∃ reason, one = .error reason) ∧ ∃ reason, all = .error reason) ∧
        ∀ p, prepare env (askingOne history windowClass title) = .ok p →
          (Operation.load .all).Escapes p.settings.historyPath files) ∨
      ∃ p, prepare env (askingOne history windowClass title) = .ok p ∧
        let s := ((openStore p.settings).load files .all).store
        s.IsFresh ∧
          (∃ after, Writes (found s (givenValue windowClass) (givenValue title) false) after one) ∧
          ∃ after, Writes (found s (givenValue windowClass) [] true) after all := by
  rcases prepare_asking env history windowClass title with
    ⟨reason, hone, hall⟩ | ⟨settings, least, hlimit, hone, hall⟩
  · -- no file is looked at
    refine Or.inl ⟨h.fails ⟨reason, ?_⟩ ⟨reason, ?_⟩, ?_⟩
    · rw [run, hone]
      rfl
    · rw [run, hall]
      rfl
    · intro p hp
      rw [hone] at hp
      cases hp
  · have hfresh : ∀ files, ((openStore settings).load files .all).store.IsFresh := fun files =>
      Store.isFresh_load hlimit files .all (Store.consistent_new _ _ _ _)
    obtain ⟨hsame, hagain⟩ :=
      Store.load_again (show 1 ≤ (openStore settings).limit from hlimit) files
    have hspec := fun title all =>
      runSuggest_spec settings least files (givenValue windowClass) title all
    generalize hloaded : (openStore settings).load files .all = loaded at hsame hagain hspec
    have hloadedFresh : loaded.store.IsFresh := hloaded ▸ hfresh files
    by_cases hok : loaded.result = .ok ()
    · -- the next load of the log that this one leaves gives a store that answers alike
      have hsecond : ∀ title all, ∃ after,
          Writes (found loaded.store (givenValue windowClass) title all) after
            (runSuggest settings least loaded.files (givenValue windowClass) title all) := by
        intro title all
        rw [← found_congr (hfresh loaded.files) hloadedFresh hsame]
        exact ⟨_, (runSuggest_spec settings least loaded.files _ title all).1 (hagain.mpr hok)⟩
      refine Or.inr ⟨_, hone, hfresh files, ?_⟩
      dsimp only
      rw [hloaded]
      apply h.writes_again loaded.files
      · rw [run_asking hone]
        exact (hspec _ _).1 hok
      · rw [run_asking hall]
        exact (hspec _ _).1 hok
      · rw [run_asking hone]
        exact hsecond _ _
      · rw [run_asking hall]
        exact hsecond _ _
    · refine Or.inl ⟨h.fails ?_ ?_, ?_⟩
      · rw [run_asking hone]
        exact (hspec _ _).2 hok
      · rw [run_asking hall]
        exact (hspec _ _).2 hok
      · intro p hp
        obtain rfl := Except.ok.inj (hone.symm.trans hp)
        by_contra hnot
        rw [Operation.Escapes, ← FileTree.holds_error_iff] at hnot
        have hresult := ((openStore settings).result_load files .all).mpr hnot
        exact hok (hloaded ▸ hresult)

/-! ## Agreement -/

/-- A run that ends and succeeds. -/
def Succeeds (ending : Ending) : Prop := ∃ done, ending = .ok done ∧ done.code = 0

theorem Writes.succeeds_iff (h : Writes ids left ending) : Succeeds ending ↔ ids ≠ [] := by
  obtain ⟨errors, rfl⟩ := h
  cases ids with
  | nil =>
    apply iff_of_false _ (by simp)
    rintro ⟨done, hdone, hcode⟩
    cases hdone
    cases hcode
  | cons id more => exact iff_of_true ⟨_, rfl, rfl⟩ (List.cons_ne_nil id more)

/-- No event that the log decodes to is of the class and title of a question. -/
def Unrecorded [StackRoom] (env : Environment) (history windowClass title : Text)
    (files : FileTree) : Prop :=
  ∀ p content, prepare env (askingOne history windowClass title) = .ok p →
    files.log? p.settings.historyPath = some content → ∀ e ∈ Log.decoded content,
      ¬ (e.classHash = hashText (givenValue windowClass) ∧
        e.titleHash = hashText (givenValue title))

/-- The two questions about any log, apart or in either order. The one succeeds exactly if the other
    does; then, if no event is of the class and title, the layout that the one writes is the first
    that the other does. Of no class nothing is known, unless the log cannot be looked for. What
    counts is the class and the title that an option stands for: a double dash stands for none. -/
theorem suggest_modes_agree [StackRoom] (h : Asked env history windowClass title files one all) :
    (Succeeds one ↔ Succeeds all) ∧
      (Unrecorded env history windowClass title files → ∀ done done', one = .ok done →
        all = .ok done' → done.code = 0 → done'.code = 0 →
        ∃ id more, done.output = asLine id ∧ done'.output = (id :: more).flatMap asLine) ∧
      (givenValue windowClass = [] → ∀ p,
        prepare env (askingOne history windowClass title) = .ok p →
        ¬ (Operation.load .all).Escapes p.settings.historyPath files →
        (∃ done, one = .ok done ∧ done.code = 1) ∧ ∃ done', all = .ok done' ∧ done'.code = 1) := by
  rcases h.writes with ⟨⟨⟨reason, rfl⟩, reason', rfl⟩, hescapes⟩ |
    ⟨p, hp, hfresh, ⟨after, hone⟩, after', hall⟩
  · have hfails : ∀ reason, ¬ Succeeds (.error reason) := by
      rintro reason ⟨done, hdone, -⟩
      cases hdone
    refine ⟨iff_of_false (hfails reason) (hfails reason'), ?_, ?_⟩
    · intro _ done done' hdone
      cases hdone
    · exact fun _ p hp hnot => absurd (hescapes p hp) hnot
  · generalize hs : ((openStore p.settings).load files .all).store = s at hfresh hone hall
    have hnone := hfresh.lookup_eq_none_iff noWindow (givenValue windowClass) (givenValue title)
    have hlisted : found s (givenValue windowClass) [] true = s.recent (givenValue windowClass) :=
      rfl
    have hlooked : found s (givenValue windowClass) (givenValue title) false =
        (s.lookup noWindow (givenValue windowClass) (givenValue title)).1.toOption.join.toList :=
      rfl
    obtain ⟨id?, hid⟩ :=
      (s.lookup_iff noWindow (givenValue windowClass) (givenValue title)).mpr
        (by simp [hfresh.session, Keyed.get?])
    rw [hlisted] at hall
    rw [hlooked, hid] at hone
    dsimp only [Except.toOption, Option.join_some] at hone
    rw [hid, Except.ok.injEq] at hnone
    refine ⟨?_, ?_, ?_⟩
    · rw [hone.succeeds_iff, hall.succeeds_iff, Ne, Option.toList_eq_nil_iff, hnone]
    · intro hunrecorded done done' hdone hdone' hcode hcode'
      have hnot : ∀ e ∈ s.events, ¬ (e.classHash = hashText (givenValue windowClass) ∧
          e.titleHash = hashText (givenValue title)) := by
        intro e he
        rw [← hs] at he
        obtain ⟨content, hlog, hdecoded⟩ := Store.mem_decoded_of_load he
        exact hunrecorded p content hp hlog e hdecoded
      have hhead := hfresh.lookup_eq_head? noWindow hnot
      rw [hid, Except.ok.injEq] at hhead
      obtain ⟨honeCode, honeOutput, -⟩ := hone.of_ok hdone
      obtain ⟨-, hallOutput, -⟩ := hall.of_ok hdone'
      rw [hhead] at honeCode honeOutput
      cases hrecent : s.recent (givenValue windowClass) with
      | nil =>
        rw [hrecent, hcode] at honeCode
        cases honeCode
      | cons id more =>
        rw [hrecent] at honeOutput hallOutput
        exact ⟨id, more, honeOutput.trans (by simp), hallOutput⟩
    · intro hclass _ _ _
      have hrecent : s.recent (givenValue windowClass) = [] := by
        rw [hclass]
        rfl
      rw [hnone.mpr hrecent] at hone
      rw [hrecent] at hall
      obtain ⟨_, rfl⟩ := hone
      obtain ⟨_, rfl⟩ := hall
      exact ⟨⟨_, rfl, rfl⟩, _, rfl, rfl⟩

/-- A window without a title chose one layout, and later one with a title chose another. The hashes
    are those of `firefox`, of nothing, and of `a`. -/
def dashEvents : List Event :=
  [⟨1, text "16e5f60f207a1a00", text "e3b0c44298fc1c14", text "blank"⟩,
   ⟨2, text "16e5f60f207a1a00", text "ca978112ca1bbdca", text "last"⟩]

def dashFiles : FileTree := ⟨⟨.slash, []⟩, [([text "log"], .file (Log.ofEvents dashEvents))]⟩

def dashSettings : Settings := ⟨⟨.workingDirectory, [text "log"]⟩, 5000, 5, text "WARNING", false⟩

/-- The store that loads this log. -/
def dashStore : Store := (openStore dashSettings).reset.withEvents dashEvents

theorem decoded_dashEvents : Log.decoded (Log.ofEvents dashEvents) = dashEvents := by
  decide +kernel

theorem log?_dashFiles :
    dashFiles.log? dashSettings.historyPath = some (Log.ofEvents dashEvents) := by
  decide +kernel

theorem load_dashFiles : ((openStore dashSettings).load dashFiles .all).store = dashStore := by
  have hordered : Event.TimeOrdered dashEvents := by simp [Event.TimeOrdered, dashEvents]
  have hevents : KnownLayouts.all.eventsOf (some (Log.ofEvents dashEvents)) = dashEvents := by
    rw [KnownLayouts.eventsOf, Option.getD_some, decoded_dashEvents]
    exact Event.mergeSort_eq hordered
  have hreadable : Log.isReadable (Log.ofEvents dashEvents) = true := by decide +kernel
  rcases Store.load_cases (s := openStore dashSettings) (FileTree.isLog_of_log? log?_dashFiles)
    hreadable (show KnownLayouts.all.error? = none from rfl) with ⟨hstore, -⟩ | ⟨hlong, -⟩
  · rw [hstore, Store.taken, hevents, dashStore]
  · rw [hevents] at hlong
    exact absurd hlong (by decide)

/-- What is written of this log for a title, and what is listed. -/
theorem writes_dashFiles (title : Text) :
    (∀ p, prepare [] (askingOne (text "log") (text "firefox") title) = .ok p →
        p.settings = dashSettings) ∧
      (∃ left, Writes (found dashStore (text "firefox") (givenValue title) false) left
        (run [] (askingOne (text "log") (text "firefox") title) dashFiles)) ∧
      ∃ left, Writes [text "last", text "blank"] left
        (run [] (askingAll (text "log") (text "firefox")) dashFiles) := by
  have hsettings : (prepare [] (askingAll (text "log") (text "firefox"))).toOption.map
      (·.settings) = some dashSettings := by
    decide +kernel
  have hlisted : found dashStore (text "firefox") [] true = [text "last", text "blank"] := by
    decide +kernel
  have hclass : givenValue (text "firefox") = text "firefox" := by decide
  rcases prepare_asking [] (text "log") (text "firefox") title with
    ⟨reason, -, hall⟩ | ⟨settings, least, -, hone, hall⟩
  · rw [hall] at hsettings
    cases hsettings
  · rw [hall] at hsettings
    obtain rfl : settings = dashSettings := Option.some.inj hsettings
    have hloaded := Store.result_load_of_log? (s := openStore dashSettings) log?_dashFiles .all
    rw [hclass] at hone hall
    have hwrites : ∀ title all, ∃ left, Writes (found dashStore (text "firefox") title all) left
        (runSuggest dashSettings least dashFiles (text "firefox") title all) := by
      intro title all
      rw [← load_dashFiles]
      exact ⟨_, (runSuggest_spec dashSettings least dashFiles (text "firefox") title all).1 hloaded⟩
    rw [run_asking hone, run_asking hall, ← hlisted]
    refine ⟨?_, hwrites _ _, hwrites _ _⟩
    intro p hp
    rw [← Except.ok.inj (hone.symm.trans hp)]

/-- A title that the log knows nothing of. -/
theorem suggest_modes_agree_dashFiles :
    Asked [] (text "log") (text "firefox") (text "b") dashFiles
        (run [] (askingOne (text "log") (text "firefox") (text "b")) dashFiles)
        (run [] (askingAll (text "log") (text "firefox")) dashFiles) ∧
      Unrecorded [] (text "log") (text "firefox") (text "b") dashFiles ∧
      ∃ done, run [] (askingOne (text "log") (text "firefox") (text "b")) dashFiles = .ok done ∧
        ∃ id more, done.output = asLine id ∧
          text "last\nblank\n" = (id :: more).flatMap asLine := by
  obtain ⟨hsettings, -, left, hall⟩ := writes_dashFiles (text "b")
  have hasked : Asked [] (text "log") (text "firefox") (text "b") dashFiles _ _ := .apart
  obtain ⟨hiff, hwritten, -⟩ := suggest_modes_agree hasked
  have hunrecorded : Unrecorded [] (text "log") (text "firefox") (text "b") dashFiles := by
    intro p content hp hlog
    rw [hsettings p hp, log?_dashFiles] at hlog
    obtain rfl := Option.some.inj hlog
    rw [decoded_dashEvents]
    decide +kernel
  obtain ⟨done, hdone, hcode⟩ := hiff.mpr (hall.succeeds_iff.mpr (List.cons_ne_nil _ _))
  obtain ⟨_, hlisted⟩ := hall
  exact ⟨hasked, hunrecorded, done, hdone, hwritten hunrecorded done _ hdone hlisted hcode rfl⟩

/-- A title that is a double dash is no title: what is written is the layout of the window without a
    title, though no event is of a title with two dashes, and another layout is listed first. -/
theorem dashes_are_no_title :
    (∀ e ∈ Log.decoded (Log.ofEvents dashEvents),
      ¬ (e.classHash = hashText (text "firefox") ∧ e.titleHash = hashText (text "--"))) ∧
    ∃ done done',
      run [] (askingOne (text "log") (text "firefox") (text "--")) dashFiles = .ok done ∧
      run [] (askingAll (text "log") (text "firefox")) dashFiles = .ok done' ∧
      done.code = 0 ∧ done'.code = 0 ∧ done.output = text "blank\n" ∧
      done'.output = text "last\nblank\n" := by
  have hunrecorded : ∀ e ∈ dashEvents,
      ¬ (e.classHash = hashText (text "firefox") ∧ e.titleHash = hashText (text "--")) := by
    decide +kernel
  have hblank : found dashStore (text "firefox") (givenValue (text "--")) false =
      [text "blank"] := by
    decide +kernel
  obtain ⟨-, ⟨_, hone⟩, _, hall⟩ := writes_dashFiles (text "--")
  rw [hblank] at hone
  obtain ⟨_, hdone⟩ := hone
  obtain ⟨_, hdone'⟩ := hall
  rw [decoded_dashEvents]
  exact ⟨hunrecorded, _, _, hdone, hdone', rfl, rfl, rfl, rfl⟩

end CommandLine

end WindowLayouts
