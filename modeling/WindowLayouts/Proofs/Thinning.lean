import WindowLayouts.History.Compaction
import WindowLayouts.Proofs.Ranking

/- Thinning loses no answer. Every event of a ranked layout is kept, and the last event of each
   title key. So the ranking of a class may lose events beyond the limit only, and what was within
   the limit stays there in its order, although events of layouts that are not ranked may stay for
   their titles.

     `Index.take_ranked`       a ranking within a limit, from fewer events
     `Index.same_thin`         the index of the events that are kept answers alike
     `Index.getLast?_thin`     the last event is kept -/
namespace WindowLayouts.Index

/-! ## What is kept -/

theorem thin_sublist (ix : Index) (events : List Event) : (ix.thin events).Sublist events := by
  induction events with
  | nil => exact List.Sublist.refl []
  | cons e later ih =>
    rw [thin_cons]
    split
    · exact ih.cons_cons e
    · exact ih.cons e

/-- Events of ranked layouts are all kept. -/
theorem filter_thin (ix : Index) {p : Event → Bool} (hp : ∀ e, p e = true → ix.ranks e = true)
    (events : List Event) : (ix.thin events).filter p = events.filter p := by
  induction events with
  | nil => rfl
  | cons e later ih =>
    rw [thin_cons]
    split
    · rw [List.filter_cons, List.filter_cons, ih]
    · rename_i hkeeps
      have hnot : ¬ p e = true := by
        intro he
        apply hkeeps
        rw [keeps, hp e he, Bool.or_true]
      rw [List.filter_cons_of_neg hnot, ih]

/-- An event that is dropped has a later one with its title key. -/
theorem exists_of_not_keeps {ix : Index} {later : List Event} {e : Event}
    (h : ¬ ix.keeps later e = true) : ∃ l ∈ later, l.titleKey = e.titleKey := by
  unfold keeps at h
  rw [Bool.or_eq_true, not_or, Bool.not_eq_true', Bool.not_eq_false] at h
  obtain ⟨l, hl, hkey⟩ := List.any_eq_true.mp h.1
  exact ⟨l, hl, of_decide_eq_true hkey⟩

theorem getLast?_cons_of_ne_nil {α : Type} (a : α) {xs : List α} (h : xs ≠ []) :
    (a :: xs).getLast? = xs.getLast? := by
  obtain ⟨b, rest, rfl⟩ := List.exists_cons_of_ne_nil h
  exact List.getLast?_cons_cons

theorem ne_nil_of_getLast?_eq {α : Type} {xs ys : List α} (h : xs.getLast? = ys.getLast?)
    (hys : ys ≠ []) : xs ≠ [] := by
  rintro rfl
  exact hys (List.getLast?_eq_none_iff.mp h.symm)

/-- The last event of each title key is kept, and is the last of the key still. -/
theorem getLast?_filter_thin (ix : Index) (key : Text) (events : List Event) :
    ((ix.thin events).filter fun e => e.titleKey = key).getLast? =
      (events.filter fun e => e.titleKey = key).getLast? := by
  induction events with
  | nil => rfl
  | cons e later ih =>
    rw [thin_cons]
    by_cases hkey : e.titleKey = key
    · have hcons : ∀ xs : List Event, (e :: xs).filter (fun e => e.titleKey = key) =
          e :: xs.filter (fun e => e.titleKey = key) :=
        fun xs => List.filter_cons_of_pos (decide_eq_true hkey)
      split
      · rw [hcons, hcons]
        by_cases hnil : later.filter (fun e => e.titleKey = key) = []
        · have hthin := (ix.thin_sublist later).filter fun e => e.titleKey = key
          rw [hnil] at hthin
          rw [hnil, List.sublist_nil.mp hthin]
        · rw [getLast?_cons_of_ne_nil e (ne_nil_of_getLast?_eq ih hnil),
            getLast?_cons_of_ne_nil e hnil, ih]
      · -- it is dropped, so a later event has the key, and neither list ends with this one
        rename_i hkeeps
        obtain ⟨l, hl, hsame⟩ := exists_of_not_keeps hkeeps
        have hmem : l ∈ later.filter fun e => e.titleKey = key :=
          List.mem_filter.mpr ⟨hl, decide_eq_true (hsame.trans hkey)⟩
        rw [hcons, getLast?_cons_of_ne_nil e (List.ne_nil_of_mem hmem), ih]
    · have hcons : ∀ xs : List Event, (e :: xs).filter (fun e => e.titleKey = key) =
          xs.filter (fun e => e.titleKey = key) :=
        fun xs => List.filter_cons_of_neg (by rw [decide_eq_true_eq]; exact hkey)
      rw [hcons, ← ih]
      split
      · rw [hcons]
      · rfl

/-- The last event is kept. -/
theorem getLast?_thin (ix : Index) (events : List Event) :
    (ix.thin events).getLast? = events.getLast? := by
  induction events with
  | nil => rfl
  | cons e later ih =>
    rw [thin_cons]
    by_cases hnil : later = []
    · subst hnil
      rfl
    · rw [getLast?_cons_of_ne_nil e hnil, ← ih]
      split
      · exact getLast?_cons_of_ne_nil e (ne_nil_of_getLast?_eq ih hnil)
      · rfl

/-! ## The ranking of what is kept -/

/-- A sublist that has all the elements of a property, the first among them, starts with it. -/
theorem exists_cons_of_filter {α : Type} {p : α → Bool} {a : α} {xs ys : List α} (ha : p a = true)
    (hsub : ys.Sublist (a :: xs)) (hfilter : ys.filter p = (a :: xs).filter p) :
    ∃ zs, ys = a :: zs ∧ zs.Sublist xs ∧ zs.filter p = xs.filter p := by
  cases hsub with
  | cons _ hsub =>
    have hlength := (hsub.filter p).length_le
    rw [hfilter, List.filter_cons_of_pos ha, List.length_cons] at hlength
    omega
  | cons_cons _ hsub =>
    rw [List.filter_cons_of_pos ha, List.filter_cons_of_pos ha] at hfilter
    exact ⟨_, rfl, hsub, (List.cons.inj hfilter).2⟩

/-- Whether an event's layout is among the first of a ranking. -/
def isWithin (n : Nat) (events : List Event) (e : Event) : Bool :=
  (((ranked events).take n).map (·.layoutId)).contains e.layoutId

/-- What is within the limit of a ranking needs only the events of the layouts there. -/
theorem take_ranked {n : Nat} {events fewer : List Event} (hsub : fewer.Sublist events)
    (hfilter : fewer.filter (isWithin n events) = events.filter (isWithin n events)) :
    (ranked fewer).take n = (ranked events).take n := by
  -- On the limit: the first event ranks first in both, and what ranks after it are the layouts of
  -- the other events within a limit that is one less.
  induction n generalizing events fewer with
  | zero => rfl
  | succ n ih =>
    cases events with
    | nil => rw [List.sublist_nil.mp hsub]
    | cons e earlier =>
      let others := fun old : Event => decide (old.layoutId ≠ e.layoutId)
      have hwithin : ∀ old, isWithin (n + 1) (e :: earlier) old =
          (old.layoutId == e.layoutId || isWithin n (earlier.filter others) old) := by
        intro old
        unfold isWithin
        rw [ranked_cons, List.take_succ_cons, List.map_cons, List.contains_cons]
        rfl
      have hfirst : isWithin (n + 1) (e :: earlier) e = true := by
        rw [hwithin, beq_self_eq_true, Bool.true_or]
      obtain ⟨rest, rfl, hrest, hrestFilter⟩ := exists_cons_of_filter hfirst hsub hfilter
      have hthrough : ∀ xs : List Event,
          (xs.filter others).filter (isWithin n (earlier.filter others)) =
          ((xs.filter (isWithin (n + 1) (e :: earlier))).filter others).filter
            (isWithin n (earlier.filter others)) := by
        intro xs
        rw [List.filter_filter, List.filter_filter, List.filter_filter]
        apply List.filter_congr
        intro old _
        rw [hwithin]
        cases isWithin n (earlier.filter others) old <;> simp
      have hothers := ih (hrest.filter others) (by rw [hthrough rest, hrestFilter, ← hthrough])
      rw [ranked_cons, ranked_cons, List.take_succ_cons, List.take_succ_cons]
      exact congrArg (e.entry :: ·) hothers

theorem take_ranked_thin (n : Nat) (events : List Event) (classHash : Text) :
    (ranked (newest classHash ((rebuild n events).thin events))).take n =
      (ranked (newest classHash events)).take n := by
  apply take_ranked
  · exact ((thin_sublist _ events).filter _).reverse
  · unfold newest
    rw [List.filter_reverse, List.filter_reverse, List.filter_filter, List.filter_filter,
      filter_thin]
    intro e he
    rw [Bool.and_eq_true, decide_eq_true_eq] at he
    obtain ⟨hwithin, rfl⟩ := he
    rw [ranks, retained, entries_rebuild]
    exact hwithin

/-- The index of the events that are kept answers alike. -/
theorem same_thin {n : Nat} (hn : 0 < n) (events : List Event) :
    Same (rebuild n ((rebuild n events).thin events)) (rebuild n events) := by
  constructor
  · intro classHash
    have htake := take_ranked_thin n events classHash
    rw [get?_classes_rebuild, get?_classes_rebuild]
    obtain ⟨n, rfl⟩ := Nat.exists_eq_succ_of_ne_zero (Nat.ne_of_gt hn)
    -- a class that has events has a first rank under any limit, so both have events or neither
    cases hkept : newest classHash ((rebuild n.succ events).thin events) with
    | nil =>
      rw [hkept] at htake
      cases hall : newest classHash events with
      | nil => rfl
      | cons latest earlier =>
        rw [hall, ranked_cons] at htake
        cases htake
    | cons latest earlier =>
      rw [hkept] at htake
      cases hall : newest classHash events with
      | nil =>
        rw [hall, ranked_cons] at htake
        cases htake
      | cons latest' earlier' =>
        rw [hall] at htake
        exact congrArg some htake
  · intro key
    rw [get?_titles_rebuild, get?_titles_rebuild, getLast?_filter_thin]

end WindowLayouts.Index
