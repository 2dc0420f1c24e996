import WindowLayouts.Proofs.AppliedSuggestions

/- Which window a command without a window is for: the one that the last message about the focus
   gave it to, if that one was not closed since. Commands never change this, whether they work or
   fail. So a window that is closed is moved by no such command until it gets the focus again; and
   the session has no choice for its id until a layout is applied to some window with that id.

     `HoldsFocus`                      the window that has the focus, told by the messages
     `FocusedDesk.Becomes`             what a desk becomes by messages and by what goes on around it
     `FocusedDesk.focused_iff`         it follows the focus
     `FocusedDesk.ActsOn`              a command that places one window
     `FocusedDesk.commands_follow_focus` what commands without a window do, and what closing does -/
namespace WindowLayouts

/-! ## The focus as the messages tell it -/

/-- A window has the focus after some messages: the last one about the focus gave it to this window,
    and it was not closed since. -/
def HoldsFocus (messages : List Message) (handle : Handle) : Prop :=
  ∃ before after, messages = before ++ .focusChanged (some handle) :: after ∧
    (∀ window, .focusChanged window ∉ after) ∧ .windowClosed handle ∉ after

variable {messages before after : List Message} {handle : Handle}

theorem not_holdsFocus_nil : ¬ HoldsFocus [] handle := by
  rintro ⟨before, after, hsplit, -⟩
  cases before <;> cases hsplit

theorem holdsFocus_concat (messages : List Message) (m : Message) (handle : Handle) :
    HoldsFocus (messages ++ [m]) handle ↔
      m = .focusChanged (some handle) ∨
        (∀ window, m ≠ .focusChanged window) ∧ m ≠ .windowClosed handle ∧
          HoldsFocus messages handle := by
  constructor
  · rintro ⟨before, after, hsplit, hlast, hopen⟩
    -- the message that gave the focus is the last one of all, or there is a last one after it
    rcases List.eq_nil_or_concat after with rfl | ⟨earlier, last, rfl⟩
    · obtain ⟨-, hm⟩ := List.append_inj' hsplit rfl
      exact Or.inl (List.cons.inj hm).1
    · rw [List.concat_eq_append] at hsplit hlast hopen
      rw [← List.cons_append, ← List.append_assoc] at hsplit
      obtain ⟨rfl, hm⟩ := List.append_inj' hsplit rfl
      obtain rfl : m = last := (List.cons.inj hm).1
      refine Or.inr ⟨?_, ?_, before, earlier, rfl, ?_, ?_⟩
      · rintro window rfl
        exact hlast window (by simp)
      · rintro rfl
        exact hopen (by simp)
      · exact fun window hmem => hlast window (List.mem_append_left _ hmem)
      · exact fun hmem => hopen (List.mem_append_left _ hmem)
  · rintro (rfl | ⟨hfocus, hclosed, before, after, rfl, hlast, hopen⟩)
    · exact ⟨messages, [], rfl, fun window => List.not_mem_nil, List.not_mem_nil⟩
    · refine ⟨before, after ++ [m], by simp, ?_, ?_⟩
      · intro window hmem
        rcases List.mem_append.mp hmem with hmem | hmem
        · exact hlast window hmem
        · exact hfocus window (List.mem_singleton.mp hmem).symm
      · intro hmem
        rcases List.mem_append.mp hmem with hmem | hmem
        · exact hopen hmem
        · exact hclosed (List.mem_singleton.mp hmem).symm

/-- A window that was closed has the focus only if it got it again. -/
theorem not_holdsFocus_of_closed (h : .focusChanged (some handle) ∉ after) :
    ¬ HoldsFocus (before ++ .windowClosed handle :: after) handle := by
  induction after using List.reverseRecOn with
  | nil =>
    rw [holdsFocus_concat]
    rintro (hm | ⟨-, hm, -⟩)
    · cases hm
    · exact hm rfl
  | append_singleton after m ih =>
    rw [← List.cons_append, ← List.append_assoc, holdsFocus_concat]
    rintro (rfl | ⟨-, -, hholds⟩)
    · exact h (by simp)
    · exact ih (fun hmem => h (List.mem_append_left _ hmem)) hholds

/-- The windows that a message names. -/
def Message.windows : Message → List Handle
  | .focusChanged window => window.toList
  | .windowClosed handle => [handle]
  | .applyLayout _ window _ => window.toList
  | _ => []

/-! ## Placing one of the windows -/

/-- What a window is told changes neither its handle nor its id. -/
theorem Window.handle_obeyAll (w : Window) (calls : List WindowCall) :
    (w.obeyAll calls).handle = w.handle := by
  unfold obeyAll
  induction calls generalizing w with
  | nil => rfl
  | cons call calls ih =>
    rw [List.foldl_cons, ih]
    cases call <;> rfl

/-- A placement gives the window back, with what it was told. -/
theorem Desk.window_place [StackRoom] (d : Desk) (w : Window) (l : Layout) (key : Option Text) :
    ∃ w', (d.place (some w) l key).window = some w' ∧ w'.handle = w.handle := by
  by_cases hcalculates : ∃ w' m chosenKey g, d.Calculates (some w) l key w' m chosenKey g
  · obtain ⟨w', m, chosenKey, g, h⟩ := hcalculates
    obtain rfl : w = w' := Option.some.inj h.window
    by_cases hstops : d.StopsAt w l.id m.workArea g
    · exact ⟨w, (Desk.stopped_place h hstops).window, rfl⟩
    · exact ⟨_, (Desk.completed_place h hstops).window, w.handle_obeyAll _⟩
  · obtain ⟨result, hresult⟩ := Desk.abandoned_place hcalculates
    exact ⟨w, (hresult d rfl).window, rfl⟩

namespace FocusedDesk

variable {d s s' : FocusedDesk} {l : Layout} {key : Option Text} {window : Option Handle}
  {w : Window} {m : Message}

/-- Windows are kept under their own handles, and the one that has the focus is among them. -/
structure IsKept (s : FocusedDesk) : Prop where
  keyed : ∀ handle w, s.window? (some handle) = some w → w.handle = handle
  focused : ∀ handle, s.focused = some handle → ∃ w, s.window? (some handle) = some w

/-- A command places a window, with all that comes of it. -/
theorem command_eq [StackRoom] (s : FocusedDesk) (l : Layout) (window : Option Handle)
    (key : Option Text) :
    let p := s.desk.place (s.window? (window.or s.focused)) l key
    (s.command l window key).state = s.afterPlacing p ∧
      (s.command l window key).trace.messages = p.trace.messages := by
  intro p
  unfold command
  dsimp only
  split
  · exact ⟨rfl, rfl⟩
  · refine ⟨rfl, ?_⟩
    rw [Trace.messages_append, Trace.messages_placementRecord, List.append_nil]
  · exact ⟨rfl, rfl⟩

/-- A command that places one window and leaves the others. -/
structure ActsOn [StackRoom] (s : FocusedDesk) (handle : Handle) (w : Window) (l : Layout)
    (key : Option Text) (heard : Heard) : Prop where
  desk : heard.state.desk = (s.desk.place (some w) l key).desk
  window : heard.state.window? (some handle) = (s.desk.place (some w) l key).window
  others : ∀ other, other ≠ handle → heard.state.window? (some other) = s.window? (some other)
  messages : heard.trace.messages = (s.desk.place (some w) l key).trace.messages

theorem actsOn_command [StackRoom] (h : s.IsKept) (hwindow : window.or s.focused = some handle)
    (hw : s.window? (some handle) = some w) :
    s.ActsOn handle w l key (s.command l window key) := by
  obtain ⟨hstate, hmessages⟩ := s.command_eq l window key
  rw [hwindow, hw] at hstate hmessages
  obtain ⟨w', hplaced, hhandle⟩ := s.desk.window_place w l key
  rw [h.keyed handle w hw] at hhandle
  -- the placed window is put back under the handle that it was found under
  have hset : ∀ other, (s.command l window key).state.window? (some other) =
      if handle = other then some w' else s.window? (some other) := by
    intro other
    rw [hstate, ← hhandle]
    unfold afterPlacing
    rw [hplaced]
    exact Keyed.get?_set w'.handle other w' s.windows
  refine ⟨by rw [hstate]; rfl, ?_, ?_, hmessages⟩
  · rw [hset, if_pos rfl, hplaced]
  · exact fun other hother => (hset other).trans (if_neg (Ne.symm hother))

/-- A command for no window changes nothing and announces nothing. -/
theorem command_of_none [StackRoom] (h : s.window? (window.or s.focused) = none) :
    (s.command l window key).failure = none ∧ (s.command l window key).state = s ∧
      (s.command l window key).trace.messages = [] := by
  unfold command
  rw [h]
  exact ⟨rfl, rfl, rfl⟩

theorem focused_command [StackRoom] (s : FocusedDesk) (l : Layout) (window : Option Handle)
    (key : Option Text) : (s.command l window key).state.focused = s.focused := by
  rw [(s.command_eq l window key).1]
  rfl

/-! ## What a message does -/

/-- After a message the same windows are kept, under their handles. -/
theorem window?_hear [StackRoom] (h : s.IsKept) (m : Message) (handle : Handle) :
    ((s.hear m).state.window? (some handle) = s.window? (some handle)) ∨
      ∃ w w', s.window? (some handle) = some w ∧
        (s.hear m).state.window? (some handle) = some w' ∧ w'.handle = handle := by
  cases m with
  | applyLayout l window key =>
    show (s.command l window key).state.window? (some handle) = _ ∨
      ∃ w w', _ ∧ (s.command l window key).state.window? (some handle) = some w' ∧ _
    cases hwindow : s.window? (window.or s.focused) with
    | none => exact Or.inl (by rw [(command_of_none hwindow).2.1])
    | some w =>
      obtain ⟨target, htarget⟩ : ∃ target, window.or s.focused = some target := by
        cases hor : window.or s.focused with
        | none =>
          rw [hor] at hwindow
          cases hwindow
        | some target => exact ⟨target, rfl⟩
      rw [htarget] at hwindow
      have hacts : s.ActsOn target w l key (s.command l window key) :=
        actsOn_command h htarget hwindow
      by_cases hother : handle = target
      · subst hother
        obtain ⟨w', hplaced, hhandle⟩ := s.desk.window_place w l key
        exact Or.inr ⟨w, w', hwindow, hacts.window.trans hplaced,
          hhandle.trans (h.keyed handle w hwindow)⟩
      · exact Or.inl (hacts.others handle hother)
  | windowClosed other =>
    left
    show (s.closed other).window? (some handle) = _
    unfold closed
    dsimp only
    split <;> rfl
  | _ => exact Or.inl rfl

/-- A message leaves the focus, gives it to a window, or takes it from one that is closed. -/
theorem focused_hear [StackRoom] (s : FocusedDesk) (m : Message) (handle : Handle) :
    (s.hear m).state.focused = some handle ↔
      m = .focusChanged (some handle) ∨
        (∀ window, m ≠ .focusChanged window) ∧ m ≠ .windowClosed handle ∧
          s.focused = some handle := by
  cases m with
  | focusChanged window => simp [hear]
  | windowClosed other =>
    show (s.closed other).focused = some handle ↔ _
    have hfocused : (s.closed other).focused =
        if s.focused = some other then none else s.focused := by
      unfold closed
      dsimp only
      split <;> rfl
    rw [hfocused]
    by_cases hclosed : s.focused = some other
    · simp [hclosed]
    · simp only [if_neg hclosed]
      constructor
      · intro hhandle
        refine Or.inr ⟨nofun, ?_, hhandle⟩
        rintro heq
        cases heq
        exact hclosed hhandle
      · rintro (heq | ⟨-, -, hhandle⟩)
        · cases heq
        · exact hhandle
  | applyLayout l window key => simp [hear, focused_command]
  | _ => simp [hear]

/-- No message loses a window. -/
theorem known_hear [StackRoom] (h : s.IsKept) (m : Message)
    (hw : s.window? (some handle) = some w) :
    ∃ w', (s.hear m).state.window? (some handle) = some w' := by
  rcases window?_hear h m handle with hsame | ⟨-, w', -, hw', -⟩
  · exact ⟨w, hsame.trans hw⟩
  · exact ⟨w', hw'⟩

/-- A message that names only windows that are kept leaves them kept. -/
theorem isKept_hear [StackRoom] (h : s.IsKept)
    (hknown : ∀ handle ∈ m.windows, ∃ w, s.window? (some handle) = some w) :
    (s.hear m).state.IsKept := by
  constructor
  · intro handle w hw
    rcases window?_hear h m handle with hsame | ⟨-, w', -, hw', hhandle⟩
    · rw [hsame] at hw
      exact h.keyed handle w hw
    · obtain rfl : w' = w := Option.some.inj (hw'.symm.trans hw)
      exact hhandle
  · intro handle hfocused
    have hthere : ∃ w, s.window? (some handle) = some w := by
      rcases (focused_hear s m handle).mp hfocused with rfl | ⟨-, -, hbefore⟩
      · exact hknown handle (by simp [Message.windows])
      · exact h.focused handle hbefore
    obtain ⟨w, hw⟩ := hthere
    exact known_hear h m hw

/-! ## The session -/

/-- A desk and a message that it hears. -/
structure Hearing where
  state : FocusedDesk
  message : Message

/-- The message is a command that applies its layout to a window with this id: it comes to a
    geometry, and the window has a class. -/
def Hearing.AppliesTo [StackRoom] (objectId : Int) (h : Hearing) : Prop :=
  ∃ l window key, h.message = .applyLayout l window key ∧
    h.state.desk.AppliesTo objectId (h.state.window? (window.or h.state.focused)) l key

/-- Where the session has no choice for an id, there is still none after a message that applies no
    layout to a window with this id. -/
theorem session_hear [StackRoom] {objectId : Int}
    (h : Keyed.get? objectId s.desk.store.session = none)
    (hnot : ¬ Hearing.AppliesTo objectId ⟨s, m⟩) :
    Keyed.get? objectId (s.hear m).state.desk.store.session = none := by
  cases m with
  | applyLayout l window key =>
    show Keyed.get? objectId (s.command l window key).state.desk.store.session = none
    rw [(s.command_eq l window key).1, ← h]
    exact (s.desk.session_place _ l key objectId).2 fun happlies =>
      hnot ⟨l, window, key, rfl, happlies⟩
  | windowClosed other =>
    show Keyed.get? objectId (s.closed other).desk.store.session = none
    unfold closed
    dsimp only
    split
    · exact h
    · show Keyed.get? objectId (Keyed.erase _ s.desk.store.session) = none
      rw [Keyed.get?_erase, h, ite_self]
  | _ => exact h

/-- Closing a window leaves no choice of the session for its id. -/
theorem session_closed (h : s.window? (some handle) = some w) :
    Keyed.get? w.objectId (s.closed handle).desk.store.session = none := by
  unfold closed
  rw [h]
  show Keyed.get? w.objectId (Keyed.erase w.objectId s.desk.store.session) = none
  rw [Keyed.get?_erase, if_pos rfl]

/-! ## Runs -/

/-- What may happen to a desk between two messages: anything but to the store and the focus, as long
    as no window is lost or gets another handle. -/
structure Meanwhile (s s' : FocusedDesk) : Prop where
  focused : s'.focused = s.focused
  store : s'.desk.store = s.desk.store
  kept : ∀ handle w, s.window? (some handle) = some w → ∃ w', s'.window? (some handle) = some w'
  keyed : ∀ handle w, s'.window? (some handle) = some w → w.handle = handle

/-- What a desk becomes by messages about its windows, and by what happens between them. -/
inductive Becomes [StackRoom] (d : FocusedDesk) : List Hearing → FocusedDesk → Prop where
  | start : Becomes d [] d
  | meanwhile {heard : List Hearing} {s s' : FocusedDesk} (h : Becomes d heard s)
    (hs : Meanwhile s s') : Becomes d heard s'
  | hear {heard : List Hearing} {s : FocusedDesk} (h : Becomes d heard s) (m : Message)
    (hknown : ∀ handle ∈ m.windows, ∃ w, s.window? (some handle) = some w) :
    Becomes d (heard ++ [⟨s, m⟩]) (s.hear m).state

/-- Some messages, each with the desk that hears it if nothing happens between them. -/
def hearings [StackRoom] (d : FocusedDesk) : List Message → List Hearing
  | [] => []
  | m :: messages => ⟨d, m⟩ :: hearings (d.hear m).state messages

theorem hearings_concat [StackRoom] (d : FocusedDesk) (messages : List Message) (m : Message) :
    d.hearings (messages ++ [m]) = d.hearings messages ++ [⟨d.hearAll messages, m⟩] := by
  induction messages generalizing d with
  | nil => rfl
  | cons first messages ih =>
    rw [List.cons_append, hearings, hearings, ih]
    rfl

variable {heard earlier later : List Hearing} {closing : Hearing}

theorem Becomes.isKept [StackRoom] (h : d.Becomes heard s) (hd : d.IsKept) : s.IsKept := by
  induction h with
  | start => exact hd
  | meanwhile h hs ih =>
    refine ⟨hs.keyed, fun handle hfocused => ?_⟩
    rw [hs.focused] at hfocused
    obtain ⟨w, hw⟩ := ih.focused handle hfocused
    exact hs.kept handle w hw
  | hear h m hknown ih => exact isKept_hear ih hknown

theorem Becomes.known [StackRoom] (h : d.Becomes heard s) (hd : d.IsKept)
    (hw : d.window? (some handle) = some w) : ∃ w', s.window? (some handle) = some w' := by
  induction h with
  | start => exact ⟨w, hw⟩
  | meanwhile h hs ih =>
    obtain ⟨w', hw'⟩ := ih
    exact hs.kept handle w' hw'
  | hear h m hknown ih =>
    obtain ⟨w', hw'⟩ := ih
    exact known_hear (h.isKept hd) m hw'

/-- Hearing messages one after the other is one way in which a desk becomes another. -/
theorem becomes_hearAll [StackRoom] (hd : d.IsKept) {messages : List Message}
    (hknown : ∀ m ∈ messages, ∀ handle ∈ m.windows, ∃ w, d.window? (some handle) = some w) :
    d.Becomes (d.hearings messages) (d.hearAll messages) := by
  induction messages using List.reverseRecOn with
  | nil => exact .start
  | append_singleton messages m ih =>
    have hbefore := ih fun other hother => hknown other (List.mem_append_left [m] hother)
    have hlast : d.hearAll (messages ++ [m]) = ((d.hearAll messages).hear m).state :=
      List.foldl_append
    rw [hearings_concat, hlast]
    apply hbefore.hear m
    intro handle hhandle
    obtain ⟨w, hw⟩ := hknown m (by simp) handle hhandle
    exact hbefore.known hd hw

/-- A desk where no window had the focus follows it as the messages tell. -/
theorem Becomes.focused_iff [StackRoom] (h : d.Becomes heard s) (hnone : d.focused = none)
    (handle : Handle) :
    s.focused = some handle ↔ HoldsFocus (heard.map (·.message)) handle := by
  induction h with
  | start =>
    rw [hnone]
    exact iff_of_false nofun not_holdsFocus_nil
  | meanwhile h hs ih => rw [hs.focused, ih]
  | hear h m hknown ih =>
    rw [List.map_append, List.map_singleton, holdsFocus_concat, focused_hear, ih]

/-- A window that was closed was one of the desk's, and the session has no choice for its id until a
    layout is applied to a window with this id. -/
theorem Becomes.session_of_closed [StackRoom] (h : d.Becomes (earlier ++ closing :: later) s)
    (hclosing : closing.message = .windowClosed handle) :
    ∃ w, closing.state.window? (some handle) = some w ∧
      ((∀ hearing ∈ later, ¬ hearing.AppliesTo w.objectId) →
        Keyed.get? w.objectId s.desk.store.session = none) := by
  -- by induction on what was heard, the closing being somewhere in it
  generalize hheard : earlier ++ closing :: later = heard at h
  induction h generalizing later with
  | start => simp at hheard
  | meanwhile h hs ih =>
    rw [hs.store]
    exact ih hheard
  | @hear heard s h m hknown ih =>
    rcases List.eq_nil_or_concat later with rfl | ⟨before, last, rfl⟩
    · -- the closing is what was heard last
      obtain ⟨-, hlast⟩ := List.append_inj' hheard rfl
      obtain rfl : closing = ⟨s, m⟩ := (List.cons.inj hlast).1
      obtain rfl : m = .windowClosed handle := hclosing
      obtain ⟨w, hw⟩ := hknown handle List.mem_cons_self
      exact ⟨w, hw, fun _ => session_closed hw⟩
    · -- something was heard after it, which applied no layout for the id
      rw [List.concat_eq_append, ← List.cons_append, ← List.append_assoc] at hheard
      obtain ⟨hbefore, hlast⟩ := List.append_inj' hheard rfl
      obtain rfl : last = ⟨s, m⟩ := (List.cons.inj hlast).1
      obtain ⟨w, hw, hsession⟩ := ih hbefore
      refine ⟨w, hw, fun hnot => session_hear (hsession fun hearing hmem => ?_) ?_⟩
      · exact hnot hearing (by simp [hmem])
      · exact hnot _ (by simp)

/-! ## Commands without a window -/

/-- A desk where no window had the focus, after any messages. A command without a window places the
    one that has the focus by these messages, and no other; without such a window it does nothing. A
    window that was closed and has not got the focus again stays as it is, and while no layout is
    applied to a window with its id the session has no choice for it. No command changes this. -/
theorem commands_follow_focus [StackRoom]
    (hkeyed : ∀ handle w, d.window? (some handle) = some w → w.handle = handle)
    (hnone : d.focused = none) (h : d.Becomes heard s) :
    (∀ l key,
      (∀ handle, HoldsFocus (heard.map (·.message)) handle →
        ∃ w, s.window? (some handle) = some w ∧
          s.ActsOn handle w l key (s.hear (.applyLayout l none key))) ∧
      ((∀ handle, ¬ HoldsFocus (heard.map (·.message)) handle) →
        (s.hear (.applyLayout l none key)).failure = none ∧
          (s.hear (.applyLayout l none key)).state = s ∧
          (s.hear (.applyLayout l none key)).trace.messages = [])) ∧
    (∀ earlier closing later handle, heard = earlier ++ closing :: later →
      closing.message = .windowClosed handle →
        (.focusChanged (some handle) ∉ later.map (·.message) → ∀ l key,
          (s.hear (.applyLayout l none key)).state.window? (some handle) =
            s.window? (some handle)) ∧
        ∃ w, closing.state.window? (some handle) = some w ∧
          ((∀ hearing ∈ later, ¬ hearing.AppliesTo w.objectId) →
            Keyed.get? w.objectId s.desk.store.session = none)) ∧
    ∀ l window key, (s.hear (.applyLayout l window key)).state.focused = s.focused := by
  have hkept : s.IsKept := h.isKept ⟨hkeyed, by simp [hnone]⟩
  have hfocused := h.focused_iff hnone
  refine ⟨fun l key => ⟨?_, ?_⟩, ?_, fun l window key => s.focused_command l window key⟩
  · intro handle hholds
    have hhandle : s.focused = some handle := (hfocused handle).mpr hholds
    obtain ⟨w, hw⟩ := hkept.focused handle hhandle
    exact ⟨w, hw, actsOn_command hkept (by rw [Option.none_or, hhandle]) hw⟩
  · intro hnobody
    apply command_of_none
    cases hhandle : s.focused with
    | none => rfl
    | some handle => exact absurd ((hfocused handle).mp hhandle) (hnobody handle)
  · rintro earlier closing later handle rfl hclosing
    refine ⟨fun hnot l key => ?_, h.session_of_closed hclosing⟩
    have hother : s.focused ≠ some handle := by
      rw [Ne, hfocused, List.map_append, List.map_cons, hclosing]
      exact not_holdsFocus_of_closed hnot
    show (s.command l none key).state.window? (some handle) = _
    cases hhandle : s.focused with
    | none => rw [(command_of_none (by rw [hhandle]; rfl)).2.1]
    | some holder =>
      obtain ⟨w, hw⟩ := hkept.focused holder hhandle
      have hacts : s.ActsOn holder w l key (s.command l none key) :=
        actsOn_command hkept (by rw [Option.none_or, hhandle]) hw
      exact hacts.others handle fun hsame => hother (by rw [hhandle, hsame])

/-- Two windows with one id on the screen, of which none has the focus. -/
def sharedDesk : FocusedDesk :=
  { Layout.screenDesk with
    windows := [(text "w", Desk.maximizedWindow),
      (text "v", { Desk.maximizedWindow with handle := text "v" })]
    focused := none }

/-- The first window gets the focus, is placed and closed; then the other one gets it. -/
def sharedMessages : List Message :=
  [.focusChanged (some (text "w")), .applyLayout Layout.leftHalf none none,
    .windowClosed (text "w"), .focusChanged (some (text "v"))]

theorem isKept_sharedDesk : sharedDesk.IsKept := by
  refine ⟨?_, nofun⟩
  intro handle w hw
  simp only [sharedDesk, window?, Option.bind_some, Keyed.get?] at hw
  split at hw
  · cases hw
    assumption
  · split at hw
    · cases hw
      assumption
    · cases hw

/-- The first window was placed, and after it was closed its id has no choice any more. A command is
    now for the second window, which has the same id, and not for the first. -/
theorem commands_follow_focus_shared :
    Keyed.get? 1 (sharedDesk.hearAll (sharedMessages.take 2)).desk.store.session =
        some (text "left") ∧
      Keyed.get? 1 (sharedDesk.hearAll sharedMessages).desk.store.session = none ∧
      (∃ w, (sharedDesk.hearAll sharedMessages).ActsOn (text "v") w Layout.leftHalf none
        ((sharedDesk.hearAll sharedMessages).hear (.applyLayout Layout.leftHalf none none))) ∧
      ((sharedDesk.hearAll sharedMessages).hear
          (.applyLayout Layout.leftHalf none none)).state.window? (some (text "w")) =
        (sharedDesk.hearAll sharedMessages).window? (some (text "w")) := by
  have hknown : ∀ m ∈ sharedMessages, ∀ handle ∈ m.windows,
      ∃ w, sharedDesk.window? (some handle) = some w := by
    simp only [← Option.isSome_iff_exists]
    decide
  obtain ⟨hcommands, hclosed, -⟩ := commands_follow_focus isKept_sharedDesk.keyed rfl
    (becomes_hearAll isKept_sharedDesk hknown)
  obtain ⟨hholder, -⟩ := hcommands Layout.leftHalf none
  obtain ⟨w, -, hacts⟩ := hholder (text "v") ⟨sharedMessages.take 3, [], rfl, nofun, nofun⟩
  have hsplit : sharedDesk.hearings sharedMessages =
      sharedDesk.hearings (sharedMessages.take 2) ++
        ⟨sharedDesk.hearAll (sharedMessages.take 2), .windowClosed (text "w")⟩ ::
        [⟨sharedDesk.hearAll (sharedMessages.take 3), .focusChanged (some (text "v"))⟩] := rfl
  obtain ⟨hstays, first, hfirst, hsession⟩ := hclosed _ _ _ (text "w") hsplit rfl
  dsimp only at hfirst
  have hone : ∀ w ∈ (sharedDesk.hearAll (sharedMessages.take 2)).window? (some (text "w")),
      w.objectId = 1 := by
    decide +kernel
  have hid : first.objectId = 1 := hone first hfirst
  have hleft : Keyed.get? 1 (sharedDesk.hearAll (sharedMessages.take 2)).desk.store.session =
      some (text "left") := by
    decide +kernel
  rw [hid] at hsession
  have hnone := hsession <| by
    rintro hearing hmem ⟨l, window, key, hmessage, -⟩
    rw [List.mem_singleton.mp hmem] at hmessage
    cases hmessage
  have hmoved := hstays (by decide) Layout.leftHalf none
  exact ⟨hleft, hnone, ⟨w, hacts⟩, hmoved⟩

end FocusedDesk

end WindowLayouts
