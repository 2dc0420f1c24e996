import Mathlib.Data.List.Induction
import WindowLayouts.History.Index

/- What an index made from events holds. The entries of a class are the first of a ranking without a
   limit, in which each layout stands once, at its latest event; the entry of a title key is the one
   of its last event. Two indexes that answer alike go on answering alike when the same event is
   recorded in both.

     `Index.get?_classes_rebuild`    the entries of a class, from its events
     `Index.entries_rebuild_toNat`   the same under any limit
     `Index.get?_titles_rebuild`     the entry of a title key, from its events
     `Index.ranked_cons`             a layout is ranked at its latest event only
     `Index.Same.record`             recording keeps indexes alike -/
namespace WindowLayouts.Index

/-! ## The ranking of a class -/

/-- The entries of some events of one class, the latest event first: each layout once. -/
def ranked : List Event → List Entry
  | [] => []
  | e :: earlier => promote e.entry (ranked earlier)

/-- The events of a class, the latest first. -/
def newest (classHash : Text) (events : List Event) : List Event :=
  (events.filter fun e => e.classHash = classHash).reverse

theorem newest_append (classHash : Text) (events : List Event) (e : Event) :
    newest classHash (events ++ [e]) =
      if e.classHash = classHash then e :: newest classHash events
      else newest classHash events := by
  unfold newest
  rw [List.filter_append]
  by_cases h : e.classHash = classHash
  · have hone : [e].filter (fun e => e.classHash = classHash) = [e] :=
      List.filter_cons_of_pos (decide_eq_true h)
    rw [if_pos h, hone, List.reverse_append]
    rfl
  · have hnone : [e].filter (fun e => e.classHash = classHash) = [] :=
      List.filter_cons_of_neg (by rw [decide_eq_true_eq]; exact h)
    rw [if_neg h, hnone, List.append_nil]

/-- Entries beyond the limit have no part in what stands within it. -/
theorem take_eraseP_take (p : Entry → Bool) (n : Nat) (entries : List Entry) :
    ((entries.take (n + 1)).eraseP p).take n = (entries.eraseP p).take n := by
  induction entries generalizing n with
  | nil => rfl
  | cons x rest ih =>
    rw [List.take_succ_cons]
    -- where the first entry goes, the one beyond the limit moves up but is still beyond it
    cases hp : p x with
    | true =>
      rw [List.eraseP_cons_of_pos hp, List.eraseP_cons_of_pos hp, List.take_take, Nat.min_self]
    | false =>
      have hnot : ¬ p x = true := by rw [hp]; exact Bool.false_ne_true
      rw [List.eraseP_cons_of_neg hnot, List.eraseP_cons_of_neg hnot]
      cases n with
      | zero => rfl
      | succ n => rw [List.take_succ_cons, List.take_succ_cons, ih]

theorem within_promote_take (n : Nat) (entry : Entry) (entries : List Entry) :
    within n (promote entry (entries.take n)) = (promote entry entries).take n := by
  show (promote entry (entries.take n)).take n = _
  unfold promote
  cases n with
  | zero => rfl
  | succ n => rw [List.take_succ_cons, List.take_succ_cons, take_eraseP_take]

theorem rebuild_append (limit : Int) (events : List Event) (e : Event) :
    rebuild limit (events ++ [e]) = (rebuild limit events).record limit e := by
  rw [rebuild, List.foldl_append]
  rfl

theorem exists_limit {limit : Int} (h : 1 ≤ limit) : ∃ n : Nat, 0 < n ∧ limit = n := by
  obtain ⟨n, rfl⟩ := Int.eq_ofNat_of_zero_le (Int.le_trans (by decide) h)
  exact ⟨n, by omega, rfl⟩

/-- A class without an entry list and a class with an empty one have the same entries. -/
theorem entries_of_get? {ix : Index} {n : Nat} {events : List Event} {classHash : Text}
    (h : Keyed.get? classHash ix.classes =
      match newest classHash events with
      | [] => none
      | latest :: earlier => some ((ranked (latest :: earlier)).take n)) :
    ix.entries classHash = (ranked (newest classHash events)).take n := by
  unfold entries
  rw [h]
  cases newest classHash events with
  | nil => exact List.take_nil.symm
  | cons latest earlier => rfl

/-- What an index holds for a class: nothing without an event, and else the first of its ranking. -/
theorem get?_classes_rebuild (n : Nat) (events : List Event) (classHash : Text) :
    Keyed.get? classHash (rebuild n events).classes =
      match newest classHash events with
      | [] => none
      | latest :: earlier => some ((ranked (latest :: earlier)).take n) := by
  -- recording goes on at the end of the events, and so does the induction
  induction events using List.reverseRecOn with
  | nil => rfl
  | append_singleton events e ih =>
    rw [rebuild_append, newest_append]
    show Keyed.get? classHash (Keyed.set e.classHash _ (rebuild n events).classes) = _
    rw [Keyed.get?_set]
    by_cases h : e.classHash = classHash
    · subst h
      rw [if_pos rfl, if_pos rfl]
      rw [entries_of_get? ih, within_promote_take]
      rfl
    · rw [if_neg h, if_neg h, ih]

/-- The entries of a class, events or none. -/
theorem entries_rebuild (n : Nat) (events : List Event) (classHash : Text) :
    (rebuild n events).entries classHash = (ranked (newest classHash events)).take n :=
  entries_of_get? (get?_classes_rebuild n events classHash)

theorem entries_record (limit : Int) (ix : Index) (e : Event) (classHash : Text) :
    (ix.record limit e).entries classHash =
      if e.classHash = classHash then within limit (promote e.entry (ix.entries e.classHash))
      else ix.entries classHash := by
  show (Keyed.get? classHash (Keyed.set e.classHash _ ix.classes)).getD [] = _
  rw [Keyed.get?_set]
  split <;> rfl

/-- Under a limit below zero every entry is dropped as soon as it is recorded. -/
theorem entries_rebuild_negSucc (k : Nat) (events : List Event) (classHash : Text) :
    (rebuild (.negSucc k) events).entries classHash = [] := by
  induction events using List.reverseRecOn generalizing classHash with
  | nil => rfl
  | append_singleton events e ih =>
    rw [rebuild_append, entries_record, ih, ih]
    simp [within, promote]

/-- The entries of a class under any limit: one below zero is as good as zero. -/
theorem entries_rebuild_toNat (limit : Int) (events : List Event) (classHash : Text) :
    (rebuild limit events).entries classHash =
      (ranked (newest classHash events)).take limit.toNat := by
  cases limit with
  | ofNat n => exact entries_rebuild n events classHash
  | negSucc k => exact entries_rebuild_negSucc k events classHash

/-- What an index holds for a title key: the entry of the last event with that key. -/
theorem get?_titles_rebuild (limit : Int) (events : List Event) (key : Text) :
    Keyed.get? key (rebuild limit events).titles =
      (events.filter fun e => e.titleKey = key).getLast?.map Event.entry := by
  induction events using List.reverseRecOn with
  | nil => rfl
  | append_singleton events e ih =>
    rw [rebuild_append, List.filter_append]
    show Keyed.get? key (Keyed.set e.titleKey e.entry (rebuild limit events).titles) = _
    rw [Keyed.get?_set]
    by_cases h : e.titleKey = key
    · have hone : [e].filter (fun e => e.titleKey = key) = [e] :=
        List.filter_cons_of_pos (decide_eq_true h)
      rw [if_pos h, hone, List.getLast?_concat]
      rfl
    · have hnone : [e].filter (fun e => e.titleKey = key) = [] :=
        List.filter_cons_of_neg (by rw [decide_eq_true_eq]; exact h)
      rw [if_neg h, hnone, List.append_nil, ih]

/-! ## A layout is ranked once -/

/-- Removing a layout from a ranking leaves the ranking of the other layouts' events. -/
theorem eraseP_ranked (layoutId : Text) (events : List Event) :
    (ranked events).eraseP (fun old => old.layoutId = layoutId) =
      ranked (events.filter fun e => e.layoutId ≠ layoutId) := by
  induction events with
  | nil => rfl
  | cons e earlier ih =>
    rw [ranked, promote, List.eraseP_cons, List.filter_cons]
    by_cases h : e.layoutId = layoutId
    · have hentry : decide (e.entry.layoutId = layoutId) = true := decide_eq_true h
      rw [hentry, cond_true, if_neg (by rw [decide_eq_true_eq]; exact not_not.mpr h), ← ih, ← h]
      rfl
    · have hentry : decide (e.entry.layoutId = layoutId) = false := decide_eq_false h
      rw [hentry, cond_false, if_pos (decide_eq_true h), ranked, promote, ← ih, List.eraseP_comm]
      intro old _
      -- no entry is of both layouts
      by_cases hold : old.layoutId = e.entry.layoutId
      · refine Or.inr ?_
        rw [decide_eq_true_eq, hold]
        exact h
      · refine Or.inl ?_
        rw [decide_eq_true_eq]
        exact hold

theorem ranked_cons (e : Event) (earlier : List Event) :
    ranked (e :: earlier) =
      e.entry :: ranked (earlier.filter fun old => old.layoutId ≠ e.layoutId) := by
  rw [ranked, promote, ← eraseP_ranked]
  rfl

/-! ## Indexes that answer alike -/

/-- Two indexes that hold the same, whatever the order in which keys came. -/
structure Same (ix ix' : Index) : Prop where
  classes : ∀ classHash, Keyed.get? classHash ix.classes = Keyed.get? classHash ix'.classes
  titles : ∀ key, Keyed.get? key ix.titles = Keyed.get? key ix'.titles

theorem Same.refl (ix : Index) : Same ix ix := ⟨fun _ => rfl, fun _ => rfl⟩

theorem Same.symm {ix ix' : Index} (h : Same ix ix') : Same ix' ix :=
  ⟨fun classHash => (h.classes classHash).symm, fun key => (h.titles key).symm⟩

theorem Same.trans {ix ix' ix'' : Index} (h : Same ix ix') (h' : Same ix' ix'') : Same ix ix'' :=
  ⟨fun classHash => (h.classes classHash).trans (h'.classes classHash),
    fun key => (h.titles key).trans (h'.titles key)⟩

theorem Same.entries {ix ix' : Index} (h : Same ix ix') (classHash : Text) :
    ix.entries classHash = ix'.entries classHash := by
  unfold Index.entries
  rw [h.classes]

theorem Same.lookupTitle {ix ix' : Index} (h : Same ix ix') (classHash titleHash : Text) :
    ix.lookupTitle classHash titleHash = ix'.lookupTitle classHash titleHash := by
  unfold Index.lookupTitle
  rw [h.titles]

theorem Same.lookupClass {ix ix' : Index} (h : Same ix ix') (classHash : Text) :
    ix.lookupClass classHash = ix'.lookupClass classHash := by
  unfold Index.lookupClass
  rw [h.entries]

theorem Same.retained {ix ix' : Index} (h : Same ix ix') (classHash : Text) :
    ix.retained classHash = ix'.retained classHash := by
  unfold Index.retained
  rw [h.entries]

/-- Recording an event in two indexes that answer alike leaves indexes that answer alike. -/
theorem Same.record {ix ix' : Index} (h : Same ix ix') (limit : Int) (e : Event) :
    Same (ix.record limit e) (ix'.record limit e) := by
  constructor
  · intro classHash
    show Keyed.get? classHash (Keyed.set e.classHash _ ix.classes) =
      Keyed.get? classHash (Keyed.set e.classHash _ ix'.classes)
    rw [Keyed.get?_set, Keyed.get?_set, h.entries, h.classes]
  · intro key
    show Keyed.get? key (Keyed.set e.titleKey _ ix.titles) =
      Keyed.get? key (Keyed.set e.titleKey _ ix'.titles)
    rw [Keyed.get?_set, Keyed.get?_set, h.titles]

end WindowLayouts.Index
