import Mathlib.Algebra.Ring.Int.Defs
import WindowLayouts.Proofs.ValidLayouts

/- Placing a window is all or nothing for the window: it is told everything, in order, or nothing,
   and what it is told does not depend on history. For the store it is all or nothing too, except
   where a placement stops halfway: the choice of the layout is known by then, or its event already
   in the log, when the path of the log cannot be handed over, or too many directories are missing
   of it, or a number has too many digits to be written: the time of the event, that of the window
   or one of the places.

     `Desk.Chooses`                  the monitor of a placement and its key
     `Desk.Calculates`               the geometry that a placement comes to
     `Desk.StopsHalfway`             when a placement stops after the choice
     `Desk.place_of_calculates`      what a placement does that has a geometry
     `Desk.place_all_or_nothing`     what holds of every placement
     `Desk.place_stops_halfway`      two placements that stop halfway -/
namespace WindowLayouts

/-! ## Announcements -/

namespace Message

/-- Whether a message announces that a window was placed. -/
def isPlacement : Message → Bool
  | .layoutApplied .. => true
  | _ => false

end Message

namespace Trace

@[simp] theorem messages_placementRecord (level : Level) (content : Text) :
    (placementRecord level content).messages = [] := rfl

/-- The announcements among the messages of a trace. -/
def placements (t : Trace) : List Message := t.messages.filter Message.isPlacement

end Trace

/-- Two placements of which one sees the same: what they come to, what the window is told and what
    becomes of it, and what is announced. -/
structure Placed.SameEffect (p p' : Placed) : Prop where
  result : p'.result = p.result
  calls : p'.calls = p.calls
  window : p'.window = p.window
  placements : p'.trace.placements = p.trace.placements

/-- Recording a choice announces no placement. -/
theorem Store.placements_select [StackRoom] (s : Store) (files : FileTree) (now windowId : Int)
    (windowClass title layoutId : Text) :
    (s.select files now windowId windowClass title layoutId).trace.placements = [] := by
  cases hclass : windowClass.isEmpty with
  | true =>
    unfold select
    rw [if_pos hclass]
    rfl
  | false =>
    obtain ⟨-, -, -, hmessages⟩ := s.select_of_named files now windowId title layoutId hclass
    rw [Trace.placements, hmessages]
    unfold announced
    split
    · rfl
    · split <;> rfl

namespace Desk

/-! ## The monitor and the geometry -/

/-- The monitor of a placement and the key it goes by. -/
inductive Chooses (d : Desk) (w : Window) (l : Layout) : Option Text → Monitor → Text → Prop where
  | asked {key : Text} {m : Monitor} (hm : d.monitors.withKey? key = some m) :
    Chooses d w l (some key) m key
  | ofLayout {key : Text} {m : Monitor} (hkey : l.monitorKey = some key)
    (hm : d.monitors.withKey? key = some m) : Chooses d w l none m key
  | own {key : Text} {m : Monitor} (hkey : l.monitorKey = none) (hm : d.monitors.of? w = some m)
    (hshown : m.key = .ok key) : Chooses d w l none m key

variable {d d' : Desk} {window : Option Window} {w : Window} {l : Layout} {key : Option Text}
  {m : Monitor} {chosenKey : Text} {g : Geometry}

theorem chooseMonitor_iff :
    d.chooseMonitor w (key.or l.monitorKey) = .ok (m, chosenKey) ↔
      d.Chooses w l key m chosenKey := by
  constructor
  · intro h
    unfold chooseMonitor at h
    cases key with
    | some asked =>
      dsimp only [Option.some_or] at h
      split at h
      · rename_i found hfound
        cases h
        exact .asked hfound
      · cases h
    | none =>
      rw [Option.none_or] at h
      split at h
      · rename_i hkey
        split at h
        · rename_i found hfound
          cases h
          exact .ofLayout hkey hfound
        · cases h
      · rename_i hkey
        split at h
        · rename_i found hfound
          cases hshown : found.key with
          | error reason =>
            rw [hshown] at h
            cases h
          | ok own =>
            rw [hshown] at h
            cases h
            exact .own hkey hfound hshown
        · cases h
  · intro h
    unfold chooseMonitor
    cases h with
    | asked hm => simp [hm]
    | ofLayout hkey hm => simp [hkey, hm]
    | own hkey hm hshown =>
      simp only [Option.none_or, hkey, hm, hshown]
      rfl

theorem chooseMonitor_of_monitors (hmonitors : d'.monitors = d.monitors) (w : Window)
    (key : Option Text) : d'.chooseMonitor w key = d.chooseMonitor w key := by
  unfold chooseMonitor
  rw [hmonitors]

/-- A placement that comes to a geometry: there is a window, a monitor for it, and the layout can be
    calculated for the monitor's work area. -/
structure Calculates [StackRoom] (d : Desk) (window : Option Window) (l : Layout)
    (key : Option Text) (w : Window) (m : Monitor) (chosenKey : Text) (g : Geometry) : Prop where
  window : window = some w
  chosen : d.Chooses w l key m chosenKey
  geometry : l.calculate m.workArea = .ok g

/-! ## The choice that is recorded -/

/-- What a placement records: the choice of the layout, once, if the window has a class. -/
def recordings (d : Desk) (w : Window) (layoutId : Text) : List Operation :=
  if w.identity.windowClass.isEmpty then [] else [d.choice w layoutId]

/-- The store and its files after that, and what was said. -/
def recording [StackRoom] (d : Desk) (w : Window) (layoutId : Text) : Run :=
  (Run.start d.store d.files).steps (d.recordings w layoutId)

def afterRecording [StackRoom] (d : Desk) (w : Window) (layoutId : Text) : Desk :=
  { d with
    store := (d.recording w layoutId).store
    files := (d.recording w layoutId).files }

/-- Remembering is that recording, apart from what is said of a window without a class. -/
theorem remember_eq [StackRoom] (d : Desk) (w : Window) (layoutId : Text) :
    { d with store := (d.remember w layoutId).store, files := (d.remember w layoutId).files } =
        d.afterRecording w layoutId ∧
      (d.remember w layoutId).trace.messages = (d.recording w layoutId).trace.messages := by
  unfold remember afterRecording recording recordings
  dsimp only
  split <;> exact ⟨rfl, rfl⟩

theorem placements_recording [StackRoom] (d : Desk) (w : Window) (layoutId : Text) :
    (d.recording w layoutId).trace.placements = [] := by
  unfold recording recordings
  split
  · rfl
  · exact d.store.placements_select d.files d.now _ _ _ layoutId

/-! ## Placements that come to a geometry -/

/-- A choice that cannot be recorded, or a number that cannot be reported. -/
def StopsAt [StackRoom] (d : Desk) (w : Window) (layoutId : Text) (area : Area)
    (g : Geometry) : Prop :=
  (d.choice w layoutId).Fails d.store d.files ∨
    ∃ n ∈ reportedNumbers area g, ¬ Numeral.isShowable n = true

/-- A placement comes to a geometry and stops nevertheless. -/
def StopsHalfway [StackRoom] (d : Desk) (window : Option Window) (l : Layout)
    (key : Option Text) : Prop :=
  ∃ w m chosenKey g, d.Calculates window l key w m chosenKey g ∧ d.StopsAt w l.id m.workArea g

theorem movingTrace?_eq_none_iff {area : Area} :
    movingTrace? area g = none ↔ ∃ n ∈ reportedNumbers area g, ¬ Numeral.isShowable n = true := by
  unfold movingTrace?
  split
  · rename_i hall
    rw [List.all_eq_true] at hall
    apply iff_of_false nofun
    rintro ⟨n, hn, hlong⟩
    exact hlong (hall n hn)
  · rename_i hlong
    rw [List.all_eq_true] at hlong
    apply iff_of_true rfl
    by_contra hnone
    exact hlong fun n hn => by_contra fun hn' => hnone ⟨n, hn, hn'⟩

/-- What a window is told to go to a geometry. -/
theorem movingCalls_fst (w : Window) (g : Geometry) :
    (movingCalls w g).1 = (if w.maximized then [.unmaximize] else []) ++ [.move g] := by
  unfold movingCalls
  split <;> rfl

theorem messages_movingCalls (w : Window) (g : Geometry) :
    (movingCalls w g).2.messages = [] := by
  unfold movingCalls
  split <;> rfl

theorem messages_of_movingTrace? {area : Area} {moving : Trace}
    (h : movingTrace? area g = some moving) : moving.messages = [] := by
  unfold movingTrace? at h
  split at h
  · cases h
    rfl
  · cases h

/-- The announcement of a placement, where there is a bus. -/
def announcement (d : Desk) (w : Window) (l : Layout) (chosenKey : Text) (g : Geometry) :
    List Message :=
  if d.onBus then [.layoutApplied w.handle l chosenKey g] else []

/-- A placement that was stopped after the choice: the window was told nothing. -/
structure Stopped [StackRoom] (d : Desk) (w : Window) (l : Layout) (p : Placed) : Prop where
  failed : ∃ reason, p.result = .error reason
  calls : p.calls = []
  window : p.window = some w
  desk : p.desk = d.afterRecording w l.id
  messages : p.trace.messages = (d.recording w l.id).trace.messages

/-- A placement that worked: the window was told to go to the geometry, the choice was recorded, and
    then the placement was announced. -/
structure Completed [StackRoom] (d : Desk) (w : Window) (l : Layout) (chosenKey : Text)
    (g : Geometry) (p : Placed) : Prop where
  result : p.result = .ok (some g)
  calls : p.calls = (if w.maximized then [.unmaximize] else []) ++ [.move g]
  window : p.window = some (w.obeyAll p.calls)
  desk : p.desk = d.afterRecording w l.id
  messages : p.trace.messages =
    (d.recording w l.id).trace.messages ++ d.announcement w l chosenKey g

theorem stopped_settle [StackRoom] (h : d.StopsAt w l.id m.workArea g) :
    d.Stopped w l (d.settle w l m chosenKey g) := by
  obtain ⟨hdesk, hmessages⟩ := d.remember_eq w l.id
  unfold settle
  dsimp only
  cases hresult : (d.remember w l.id).result with
  | error reason => exact ⟨⟨_, rfl⟩, rfl, rfl, hdesk, hmessages⟩
  | ok done =>
    have hrecords := (d.remember_iff w l.id).mp hresult
    have hmoving : movingTrace? m.workArea g = none :=
      movingTrace?_eq_none_iff.mpr (h.resolve_left hrecords)
    rw [hmoving]
    exact ⟨⟨_, rfl⟩, rfl, rfl, hdesk, hmessages⟩

theorem completed_settle [StackRoom] (h : ¬ d.StopsAt w l.id m.workArea g) :
    d.Completed w l chosenKey g (d.settle w l m chosenKey g) := by
  obtain ⟨hrecords, hreports⟩ := not_or.mp h
  obtain ⟨hdesk, hmessages⟩ := d.remember_eq w l.id
  have hresult := (d.remember_iff w l.id).mpr hrecords
  obtain ⟨moving, hmoving⟩ :=
    Option.ne_none_iff_exists'.mp (mt movingTrace?_eq_none_iff.mp hreports)
  unfold settle
  dsimp only
  rw [hresult, hmoving]
  refine ⟨rfl, movingCalls_fst w g, rfl, hdesk, ?_⟩
  dsimp only
  rw [Trace.messages_append, Trace.messages_append, Trace.messages_append, hmessages,
    messages_of_movingTrace? hmoving, messages_movingCalls, List.append_nil, List.append_nil]
  unfold announcement
  split <;> rfl

/-! ## All placements -/

/-- A placement that comes to no geometry, but to some other result: nothing changes at all. -/
structure Abandoned (d : Desk) (window : Option Window)
    (result : Except PlacementFailure (Option Geometry)) (p : Placed) : Prop where
  nowhere : ∀ g, result ≠ .ok (some g)
  result : p.result = result
  calls : p.calls = []
  window : p.window = window
  desk : p.desk = d
  messages : p.trace.messages = []

/-- A placement that has a geometry settles the window there, after saying so. -/
theorem place_of_calculates [StackRoom] (h : d.Calculates window l key w m chosenKey g) :
    ∃ said : Trace, said.messages = [] ∧
      d.place window l key =
        { d.settle w l m chosenKey g with
          trace := said ++ (d.settle w l m chosenKey g).trace } := by
  obtain ⟨rfl, hchosen, hgeometry⟩ := h
  unfold place
  dsimp only
  rw [chooseMonitor_iff.mpr hchosen]
  dsimp only
  rw [hgeometry]
  exact ⟨_, Trace.messages_placementRecord _ _, rfl⟩

theorem stopped_place [StackRoom] (h : d.Calculates window l key w m chosenKey g)
    (hstops : d.StopsAt w l.id m.workArea g) : d.Stopped w l (d.place window l key) := by
  obtain ⟨said, hsaid, hplace⟩ := place_of_calculates h
  have hstopped : d.Stopped w l (d.settle w l m chosenKey g) := stopped_settle hstops
  rw [hplace]
  refine ⟨hstopped.failed, hstopped.calls, hstopped.window, hstopped.desk, ?_⟩
  rw [Trace.messages_append, hsaid, List.nil_append, hstopped.messages]

theorem completed_place [StackRoom] (h : d.Calculates window l key w m chosenKey g)
    (hgoes : ¬ d.StopsAt w l.id m.workArea g) :
    d.Completed w l chosenKey g (d.place window l key) := by
  obtain ⟨said, hsaid, hplace⟩ := place_of_calculates h
  have hcompleted : d.Completed w l chosenKey g (d.settle w l m chosenKey g) :=
    completed_settle hgoes
  rw [hplace]
  refine ⟨hcompleted.result, hcompleted.calls, hcompleted.window, hcompleted.desk, ?_⟩
  rw [Trace.messages_append, hsaid, List.nil_append, hcompleted.messages]

/-- Without a geometry a placement is abandoned, and with the same result on every desk that has the
    same monitors. -/
theorem abandoned_place [StackRoom]
    (h : ¬ ∃ w m chosenKey g, d.Calculates window l key w m chosenKey g) :
    ∃ result, ∀ d' : Desk, d'.monitors = d.monitors →
      d'.Abandoned window result (d'.place window l key) := by
  cases window with
  | none => exact ⟨.ok none, fun d' _ => ⟨nofun, rfl, rfl, rfl, rfl, rfl⟩⟩
  | some w =>
    cases hchosen : d.chooseMonitor w (key.or l.monitorKey) with
    | error reason =>
      cases reason with
      | notFound said =>
        refine ⟨.ok none, fun d' hmonitors => ?_⟩
        unfold place
        dsimp only
        rw [chooseMonitor_of_monitors hmonitors, hchosen]
        exact ⟨nofun, rfl, rfl, rfl, rfl, rfl⟩
      | noKey reason =>
        refine ⟨.error .report, fun d' hmonitors => ?_⟩
        unfold place
        dsimp only
        rw [chooseMonitor_of_monitors hmonitors, hchosen]
        exact ⟨nofun, rfl, rfl, rfl, rfl, rfl⟩
    | ok chosen =>
      obtain ⟨m, chosenKey⟩ := chosen
      cases hgeometry : l.calculate m.workArea with
      | error reason =>
        refine ⟨.error (.layout reason), fun d' hmonitors => ?_⟩
        unfold place
        dsimp only
        rw [chooseMonitor_of_monitors hmonitors, hchosen]
        dsimp only
        rw [hgeometry]
        exact ⟨nofun, rfl, rfl, rfl, rfl, rfl⟩
      | ok g => exact absurd ⟨w, m, chosenKey, g, rfl, chooseMonitor_iff.mp hchosen, hgeometry⟩ h

/-! ## What is announced -/

theorem Stopped.placements [StackRoom] {p : Placed} (h : d.Stopped w l p) :
    p.trace.placements = [] := by
  rw [Trace.placements, h.messages]
  exact d.placements_recording w l.id

theorem Completed.placements [StackRoom] {p : Placed} (h : d.Completed w l chosenKey g p) :
    p.trace.placements = d.announcement w l chosenKey g := by
  have hrecording := d.placements_recording w l.id
  rw [Trace.placements] at hrecording
  rw [Trace.placements, h.messages, List.filter_append, hrecording, List.nil_append]
  unfold announcement
  split <;> rfl

theorem Abandoned.placements {result : Except PlacementFailure (Option Geometry)} {p : Placed}
    (h : d.Abandoned window result p) : p.trace.placements = [] := by
  rw [Trace.placements, h.messages]
  rfl

/-! ## Desks that differ in their history -/

theorem Calculates.of_monitors [StackRoom] (h : d.Calculates window l key w m chosenKey g)
    (hmonitors : d'.monitors = d.monitors) : d'.Calculates window l key w m chosenKey g := by
  refine ⟨h.window, ?_, h.geometry⟩
  rw [← chooseMonitor_iff, chooseMonitor_of_monitors hmonitors]
  exact chooseMonitor_iff.mpr h.chosen

/-- Two desks with the same monitors, and both on a bus or both not, place alike unless one of the
    placements stops halfway. -/
theorem sameEffect_place [StackRoom] (hmonitors : d'.monitors = d.monitors)
    (hbus : d'.onBus = d.onBus)
    (hgoes : ¬ d.StopsHalfway window l key) (hgoes' : ¬ d'.StopsHalfway window l key) :
    (d.place window l key).SameEffect (d'.place window l key) := by
  by_cases hcalculates : ∃ w m chosenKey g, d.Calculates window l key w m chosenKey g
  · obtain ⟨w, m, chosenKey, g, h⟩ := hcalculates
    have h' := h.of_monitors hmonitors
    have hplaced := completed_place h fun hstops => hgoes ⟨w, m, chosenKey, g, h, hstops⟩
    have hplaced' := completed_place h' fun hstops => hgoes' ⟨w, m, chosenKey, g, h', hstops⟩
    have hcalls : (d'.place window l key).calls = (d.place window l key).calls :=
      hplaced'.calls.trans hplaced.calls.symm
    refine ⟨hplaced'.result.trans hplaced.result.symm, hcalls, ?_, ?_⟩
    · rw [hplaced'.window, hplaced.window, hcalls]
    · rw [hplaced'.placements, hplaced.placements, announcement, announcement, hbus]
  · obtain ⟨result, hresult⟩ := abandoned_place hcalculates
    have hplaced := hresult d rfl
    have hplaced' := hresult d' hmonitors
    exact ⟨hplaced'.result.trans hplaced.result.symm, hplaced'.calls.trans hplaced.calls.symm,
      hplaced'.window.trans hplaced.window.symm,
      hplaced'.placements.trans hplaced.placements.symm⟩

/-! ## All or nothing -/

/-- A placement without a result tells the window nothing and announces nothing, and unless it stops
    halfway nothing changes. One with a result comes to the geometry of the layout on the monitor
    that was chosen, and has all its effects. These are all the placements that have a geometry and
    do not stop halfway; and apart from those that stop, the effect does not depend on history. -/
theorem place_all_or_nothing [StackRoom] (d : Desk) (window : Option Window) (l : Layout)
    (key : Option Text) :
    let p := d.place window l key
    ((∀ g, p.result ≠ .ok (some g)) →
      p.calls = [] ∧ p.window = window ∧ p.trace.placements = [] ∧
        (¬ d.StopsHalfway window l key → p.desk = d ∧ p.trace.messages = [])) ∧
      (∀ g, p.result = .ok (some g) →
        ∃ w m chosenKey, d.Calculates window l key w m chosenKey g ∧
          d.Completed w l chosenKey g p ∧
          p.trace.placements = d.announcement w l chosenKey g) ∧
      (d.StopsHalfway window l key → ∃ w, window = some w ∧ d.Stopped w l p) ∧
      ((∃ g, p.result = .ok (some g)) ↔
        (∃ w m chosenKey g, d.Calculates window l key w m chosenKey g) ∧
          ¬ d.StopsHalfway window l key) ∧
      ∀ d' : Desk, d'.monitors = d.monitors → d'.onBus = d.onBus →
        ¬ d.StopsHalfway window l key → ¬ d'.StopsHalfway window l key →
        p.SameEffect (d'.place window l key) := by
  intro p
  have hstopped : d.StopsHalfway window l key → ∃ w, window = some w ∧ d.Stopped w l p := by
    rintro ⟨w, m, chosenKey, g, h, hstops⟩
    exact ⟨w, h.window, stopped_place h hstops⟩
  have hcompleted : ∀ {w m chosenKey g}, d.Calculates window l key w m chosenKey g →
      ¬ d.StopsHalfway window l key → d.Completed w l chosenKey g p := by
    intro w m chosenKey g h hgoes
    exact completed_place h fun hstops => hgoes ⟨w, m, chosenKey, g, h, hstops⟩
  have hfails : d.StopsHalfway window l key → ∀ g, p.result ≠ .ok (some g) := by
    intro hstops g hg
    obtain ⟨w, -, hw⟩ := hstopped hstops
    obtain ⟨reason, hreason⟩ := hw.failed
    rw [hreason] at hg
    cases hg
  have hcalculated : ∀ g, p.result = .ok (some g) →
      ∃ w m chosenKey g, d.Calculates window l key w m chosenKey g := by
    intro g hg
    by_contra hnone
    obtain ⟨result, hresult⟩ := abandoned_place hnone
    have h := hresult d rfl
    exact h.nowhere g (h.result.symm.trans hg)
  refine ⟨?_, ?_, hstopped, ?_, fun d' => sameEffect_place⟩
  · intro hnot
    by_cases hstops : d.StopsHalfway window l key
    · obtain ⟨w, hw, h⟩ := hstopped hstops
      exact ⟨h.calls, h.window.trans hw.symm, h.placements, fun hgoes => absurd hstops hgoes⟩
    · by_cases hcalculates : ∃ w m chosenKey g, d.Calculates window l key w m chosenKey g
      · obtain ⟨w, m, chosenKey, g, h⟩ := hcalculates
        exact absurd (hcompleted h hstops).result (hnot g)
      · obtain ⟨result, hresult⟩ := abandoned_place hcalculates
        have h := hresult d rfl
        exact ⟨h.calls, h.window, h.placements, fun _ => ⟨h.desk, h.messages⟩⟩
  · intro g hg
    obtain ⟨w, m, chosenKey, g', h⟩ := hcalculated g hg
    have hdone := hcompleted h fun hstops => hfails hstops g hg
    obtain rfl : g' = g := Option.some.inj (Except.ok.inj (hdone.result.symm.trans hg))
    exact ⟨w, m, chosenKey, h, hdone, hdone.placements⟩
  · constructor
    · rintro ⟨g, hg⟩
      exact ⟨hcalculated g hg, fun hstops => hfails hstops g hg⟩
    · rintro ⟨⟨w, m, chosenKey, g, h⟩, hgoes⟩
      exact ⟨g, (hcompleted h hgoes).result⟩

/-- A maximized window on the screen, and where its left half is. -/
def maximizedWindow : Window := ⟨text "w", 1, some (text "c"), none, true, some (text "0"), 0, []⟩

def leftGeometry : Geometry := ⟨0, 30, 960, 1050⟩

/-- The desk with one screen, and the same one after two choices. -/
def screenDesk : Desk := Layout.screenDesk.desk

def usedDesk : Desk :=
  { screenDesk with
    store := ((Run.start screenDesk.store screenDesk.files).steps Run.twoChoices).store
    files := ((Run.start screenDesk.store screenDesk.files).steps Run.twoChoices).files }

/-- A layout with a field that is no expression. -/
def brokenLayout : Layout := { Layout.leftHalf with width := text "half" }

/-- A maximized window is unmaximized and moved, with or without history; a broken layout changes
    nothing. -/
theorem place_all_or_nothing_maximized :
    let p := screenDesk.place (some maximizedWindow) Layout.leftHalf none
    p.result = .ok (some leftGeometry) ∧ p.calls = [.unmaximize, .move leftGeometry] ∧
      p.SameEffect (usedDesk.place (some maximizedWindow) Layout.leftHalf none) ∧
      (screenDesk.place (some maximizedWindow) brokenLayout none).desk = screenDesk := by
  intro p
  have hresult : p.result = .ok (some leftGeometry) := by decide +kernel
  have hused : (usedDesk.place (some maximizedWindow) Layout.leftHalf none).result =
      .ok (some leftGeometry) := by
    decide +kernel
  obtain ⟨-, hplaced, -, hiff, hhistory⟩ :=
    place_all_or_nothing screenDesk (some maximizedWindow) Layout.leftHalf none
  obtain ⟨w, m, chosenKey, hcalculates, hcompleted, -⟩ := hplaced leftGeometry hresult
  obtain ⟨-, -, -, hiffUsed, -⟩ :=
    place_all_or_nothing usedDesk (some maximizedWindow) Layout.leftHalf none
  obtain ⟨-, hgoes⟩ := hiff.mp ⟨_, hresult⟩
  obtain ⟨-, hgoesUsed⟩ := hiffUsed.mp ⟨_, hused⟩
  have hcalls : p.calls = [.unmaximize, .move leftGeometry] := by
    obtain rfl : maximizedWindow = w := Option.some.inj hcalculates.window
    exact hcompleted.calls
  have hbroken : ∀ w m chosenKey g,
      ¬ screenDesk.Calculates (some maximizedWindow) brokenLayout none w m chosenKey g := by
    rintro w m chosenKey g ⟨hw, hchosen, hgeometry⟩
    cases hw
    have hscreen : screenDesk.chooseMonitor maximizedWindow none =
        .ok (⟨0, Layout.screen, Layout.screen, true⟩, text "0") := by
      decide +kernel
    have hfails : (brokenLayout.calculate Layout.screen).toOption = none := by decide +kernel
    obtain ⟨rfl, -⟩ :=
      Prod.mk.inj (Except.ok.inj (hscreen.symm.trans (chooseMonitor_iff.mpr hchosen)))
    rw [hgeometry] at hfails
    cases hfails
  obtain ⟨hnothing, -, -, hiffBroken, -⟩ :=
    place_all_or_nothing screenDesk (some maximizedWindow) brokenLayout none
  have hnot : ∀ g, (screenDesk.place (some maximizedWindow) brokenLayout none).result ≠
      .ok (some g) := by
    intro g hg
    obtain ⟨⟨w, m, chosenKey, g', h⟩, -⟩ := hiffBroken.mp ⟨g, hg⟩
    exact hbroken w m chosenKey g' h
  obtain ⟨-, -, -, hsame⟩ := hnothing hnot
  obtain ⟨hdesk, -⟩ := hsame fun ⟨w, m, chosenKey, g, h, _⟩ => hbroken w m chosenKey g h
  exact ⟨hresult, hcalls, hhistory usedDesk rfl rfl hgoes hgoesUsed, hdesk⟩

/-- A desk whose log has a path that a zero would end. -/
def zeroDesk : Desk :=
  { screenDesk with store := Store.new Run.zeroPath 9 2 false }

/-- A screen so far to the right that no corner further on can be written out. -/
def farScreen : Area := ⟨10 ^ Numeral.maxDigits - 1, 0, 1920, 1080⟩

def farDesk : Desk := { screenDesk with monitors := .ofList [⟨0, farScreen, farScreen, true⟩] }

/-- A layout that begins a pixel further on. -/
def nextPixel : Layout := { Layout.leftHalf with x := text "1px" }

/-- Where the layout is on the far screen. -/
def farGeometry : Geometry := ⟨10 ^ Numeral.maxDigits, 30, 960, 1050⟩

theorem calculates_farDesk :
    farDesk.Calculates (some maximizedWindow) nextPixel none maximizedWindow
      ⟨0, farScreen, farScreen, true⟩ (text "0") farGeometry := by
  refine ⟨rfl, ?_, ?_⟩
  · rw [← chooseMonitor_iff]
    rfl
  · decide +kernel

/-- Two placements that fail after the choice: the session knows it, and in the second its event is
    in the store and in the log. The window was told nothing. -/
theorem place_stops_halfway :
    (zeroDesk.place (some maximizedWindow) Layout.leftHalf none).result =
        .error (.history (.log (.name .zero))) ∧
      (zeroDesk.place (some maximizedWindow) Layout.leftHalf none).calls = [] ∧
      zeroDesk.store.session = [] ∧
      (zeroDesk.place (some maximizedWindow) Layout.leftHalf none).desk.store.session =
        [(1, text "left")] ∧
      (farDesk.place (some maximizedWindow) nextPixel none).result = .error .report ∧
      (farDesk.place (some maximizedWindow) nextPixel none).calls = [] ∧
      farDesk.store.events = [] ∧
      (farDesk.place (some maximizedWindow) nextPixel none).desk.store.events.map (·.layoutId) =
        [text "left"] ∧
      farDesk.files.log? farDesk.store.path = none ∧
      (farDesk.place (some maximizedWindow) nextPixel none).desk.files.log? farDesk.store.path ≠
        none := by
  have hlong : ¬ Numeral.isShowable farGeometry.x = true :=
    Bool.not_eq_true _ ▸ Numeral.not_isShowable_pow
  have hmoving : movingTrace? farScreen farGeometry = none :=
    movingTrace?_eq_none_iff.mpr ⟨farGeometry.x, List.mem_cons_self, hlong⟩
  have hstopped := stopped_place calculates_farDesk
    (Or.inr (movingTrace?_eq_none_iff.mp hmoving))
  have hremember : (farDesk.remember maximizedWindow nextPixel.id).result = .ok () := by
    decide +kernel
  obtain ⟨said, -, hplace⟩ := place_of_calculates calculates_farDesk
  have hresult : (farDesk.place (some maximizedWindow) nextPixel none).result =
      .error .report := by
    rw [hplace]
    dsimp only
    rw [result_settle, hremember, hmoving]
  rw [hresult, hstopped.calls, hstopped.desk]
  decide +kernel

end Desk

end WindowLayouts
