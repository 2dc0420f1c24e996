import WindowLayouts.History.Store

/- Events in the order of their times. Sorting keeps the order of events of one time, so a sorted
   list is known by its events of each time, and an event that is not before any other goes to the
   end.

     `Event.eq_of_filter_time`    sorted lists with the same events of each time are the same
     `Event.mergeSort_append`     a latest event is sorted to the end -/
namespace WindowLayouts.Event

/-- Events whose times never go back. -/
def TimeOrdered (events : List Event) : Prop := events.Pairwise fun a b => a.time ≤ b.time

theorem timeOrdered_iff {events : List Event} :
    TimeOrdered events ↔ events.Pairwise fun a b => notAfter a b = true := by
  unfold TimeOrdered notAfter
  simp only [decide_eq_true_eq]

theorem notAfter_trans (a b c : Event) (hab : notAfter a b = true) (hbc : notAfter b c = true) :
    notAfter a c = true :=
  decide_eq_true (Int.le_trans (of_decide_eq_true hab) (of_decide_eq_true hbc))

theorem notAfter_total (a b : Event) : (notAfter a b || notAfter b a) = true := by
  rw [Bool.or_eq_true]
  rcases Int.le_total a.time b.time with h | h
  · exact Or.inl (decide_eq_true h)
  · exact Or.inr (decide_eq_true h)

theorem timeOrdered_mergeSort (events : List Event) : TimeOrdered (events.mergeSort notAfter) :=
  timeOrdered_iff.mpr (List.pairwise_mergeSort notAfter_trans notAfter_total events)

theorem mergeSort_eq {events : List Event} (h : TimeOrdered events) :
    events.mergeSort notAfter = events :=
  List.mergeSort_of_pairwise (timeOrdered_iff.mp h)

theorem TimeOrdered.append {events : List Event} (h : TimeOrdered events) {e : Event}
    (he : ∀ old ∈ events, old.time ≤ e.time) : TimeOrdered (events ++ [e]) := by
  refine List.pairwise_append.mpr ⟨h, List.pairwise_singleton _ e, ?_⟩
  intro old hold last hlast
  rw [List.mem_singleton.mp hlast]
  exact he old hold

/-- Times that never go back are none after the last. -/
theorem TimeOrdered.le_getLast {events : List Event} (h : TimeOrdered events) {last : Event}
    (hlast : events.getLast? = some last) : ∀ old ∈ events, old.time ≤ last.time := by
  obtain ⟨before, rfl⟩ := List.getLast?_eq_some_iff.mp hlast
  intro old hold
  rcases List.mem_append.mp hold with hold | hold
  · exact (List.pairwise_append.mp h).2.2 old hold last (List.mem_singleton_self last)
  · exact Int.le_of_eq (congrArg Event.time (List.mem_singleton.mp hold))

/-- The events of one time, in their order. -/
def atTime (time : Int) (events : List Event) : List Event := events.filter fun e => e.time = time

theorem mem_atTime {time : Int} {events : List Event} {e : Event} :
    e ∈ atTime time events ↔ e ∈ events ∧ e.time = time := by
  rw [atTime, List.mem_filter, decide_eq_true_eq]

theorem atTime_cons (time : Int) (e : Event) (events : List Event) :
    atTime time (e :: events) =
      if e.time = time then e :: atTime time events else atTime time events := by
  unfold atTime
  rw [List.filter_cons]
  by_cases h : e.time = time
  · rw [if_pos h, if_pos (decide_eq_true h)]
  · rw [if_neg h, if_neg (by rw [decide_eq_true_eq]; exact h)]

theorem mem_of_atTime {xs ys : List Event} (h : ∀ time, atTime time xs = atTime time ys) {e : Event}
    (he : e ∈ xs) : e ∈ ys := by
  have hat : e ∈ atTime e.time xs := mem_atTime.mpr ⟨he, rfl⟩
  rw [h] at hat
  exact (mem_atTime.mp hat).1

theorem TimeOrdered.head_le {e a : Event} {rest : List Event} (h : TimeOrdered (e :: rest))
    (ha : a ∈ e :: rest) : e.time ≤ a.time := by
  rcases List.mem_cons.mp ha with rfl | ha
  · exact Int.le_refl _
  · exact (List.pairwise_cons.mp h).1 a ha

/-- Sorted lists with the same events of each time are the same. -/
theorem eq_of_filter_time {xs ys : List Event} (hx : TimeOrdered xs) (hy : TimeOrdered ys)
    (h : ∀ time, atTime time xs = atTime time ys) : xs = ys := by
  induction xs generalizing ys with
  | nil =>
    cases ys with
    | nil => rfl
    | cons b ys => exact nomatch mem_of_atTime (fun time => (h time).symm) List.mem_cons_self
  | cons a xs ih =>
    cases ys with
    | nil => exact nomatch mem_of_atTime h List.mem_cons_self
    | cons b ys =>
      -- each begins with an event of its least time, and so with one of the other's least time
      have htime : b.time = a.time :=
        Int.le_antisymm (hy.head_le (mem_of_atTime h List.mem_cons_self))
          (hx.head_le (mem_of_atTime (fun time => (h time).symm) List.mem_cons_self))
      have hhead := h a.time
      rw [atTime_cons, atTime_cons, if_pos rfl, if_pos htime] at hhead
      obtain ⟨rfl, -⟩ := List.cons.inj hhead
      have htail : ∀ time, atTime time xs = atTime time ys := by
        intro time
        have hboth := h time
        rw [atTime_cons, atTime_cons] at hboth
        split at hboth
        · exact (List.cons.inj hboth).2
        · exact hboth
      rw [ih (List.pairwise_cons.mp hx).2 (List.pairwise_cons.mp hy).2 htail]

/-- Sorting keeps the order of events of one time. -/
theorem atTime_mergeSort (time : Int) (events : List Event) :
    atTime time (events.mergeSort notAfter) = atTime time events := by
  have hordered : (atTime time events).Pairwise fun a b => notAfter a b = true := by
    apply timeOrdered_iff.mp
    apply List.pairwise_of_forall_mem_list
    intro a ha b hb
    exact Int.le_of_eq ((mem_atTime.mp ha).2.trans (mem_atTime.mp hb).2.symm)
  -- what is in order already stays a sublist when all is sorted, and nothing else has its time
  have hsub : (atTime time events).Sublist (events.mergeSort notAfter) :=
    List.sublist_mergeSort notAfter_trans notAfter_total hordered List.filter_sublist
  have hagain : (atTime time events).Sublist (atTime time (events.mergeSort notAfter)) := by
    have hfilter := hsub.filter fun e => e.time = time
    rw [atTime, List.filter_filter] at hfilter
    simp only [Bool.and_self] at hfilter
    exact hfilter
  have hlength : (atTime time (events.mergeSort notAfter)).length = (atTime time events).length :=
    ((List.mergeSort_perm events notAfter).filter _).length_eq
  exact (hagain.eq_of_length hlength.symm).symm

/-- An event that is not before any other is sorted to the end. -/
theorem mergeSort_append {events : List Event} {e : Event} (h : ∀ old ∈ events, old.time ≤ e.time) :
    (events ++ [e]).mergeSort notAfter = events.mergeSort notAfter ++ [e] := by
  apply eq_of_filter_time (timeOrdered_mergeSort _)
  · exact (timeOrdered_mergeSort events).append fun old hold => h old (List.mem_mergeSort.mp hold)
  · intro time
    have hsplit := atTime_mergeSort time events
    rw [atTime_mergeSort]
    unfold atTime at hsplit ⊢
    rw [List.filter_append, List.filter_append, hsplit]

end WindowLayouts.Event
