/- Lists of values under keys. The order is that in which the keys were first given; giving a key
   again replaces its value and keeps its place.

     `get?_set`      reading after writing, at the same key and at others
     `get?_erase`    reading after removing
     `set_set`       of two values under a key the first leaves no trace
     `erase_set`     neither does one that was put under a new key and removed -/
namespace WindowLayouts.Keyed

variable {κ ν : Type} [DecidableEq κ]

def get? (key : κ) : List (κ × ν) → Option ν
  | [] => none
  | (k, v) :: rest => if k = key then some v else get? key rest

/-- Put a value under a key: in place of the old one, or at the end. -/
def set (key : κ) (value : ν) : List (κ × ν) → List (κ × ν)
  | [] => [(key, value)]
  | (k, v) :: rest => if k = key then (k, value) :: rest else (k, v) :: set key value rest

def erase (key : κ) : List (κ × ν) → List (κ × ν)
  | [] => []
  | (k, v) :: rest => if k = key then erase key rest else (k, v) :: erase key rest

theorem mem_of_get? {key : κ} {value : ν} {xs : List (κ × ν)} (h : get? key xs = some value) :
    (key, value) ∈ xs := by
  induction xs with
  | nil => cases h
  | cons head rest ih =>
    obtain ⟨k, v⟩ := head
    rw [get?] at h
    split at h
    · rename_i hkey
      rw [hkey, Option.some.inj h]
      exact List.mem_cons_self
    · exact List.mem_cons_of_mem _ (ih h)

theorem get?_set (key other : κ) (value : ν) (xs : List (κ × ν)) :
    get? other (set key value xs) = if key = other then some value else get? other xs := by
  induction xs with
  | nil => simp [set, get?]
  | cons head rest ih =>
    obtain ⟨k, v⟩ := head
    by_cases hk : k = key
    · subst hk
      by_cases ho : k = other <;> simp [set, get?, ho]
    · by_cases ho : k = other
      · subst ho
        simp [set, get?, hk, Ne.symm hk]
      · simp [set, get?, hk, ho, ih]

theorem get?_erase (key other : κ) (xs : List (κ × ν)) :
    get? other (erase key xs) = if key = other then none else get? other xs := by
  induction xs with
  | nil => simp [erase, get?]
  | cons head rest ih =>
    obtain ⟨k, v⟩ := head
    by_cases hk : k = key
    · subst hk
      by_cases ho : k = other
      · subst ho
        simpa [erase] using ih
      · simpa [erase, get?, ho] using ih
    · by_cases ho : k = other
      · subst ho
        simp [erase, get?, hk, Ne.symm hk]
      · simp [erase, get?, hk, ho, ih]

theorem set_set (key : κ) (value other : ν) (xs : List (κ × ν)) :
    set key other (set key value xs) = set key other xs := by
  induction xs with
  | nil => simp [set]
  | cons head rest ih =>
    obtain ⟨k, v⟩ := head
    by_cases hk : k = key <;> simp [set, hk, ih]

theorem erase_set {key : κ} {xs : List (κ × ν)} (value : ν) (h : get? key xs = none) :
    erase key (set key value xs) = xs := by
  induction xs with
  | nil => simp [set, erase]
  | cons head rest ih =>
    obtain ⟨k, v⟩ := head
    by_cases hk : k = key
    · simp [get?, hk] at h
    · rw [get?, if_neg hk] at h
      rw [set, if_neg hk, erase, if_neg hk, ih h]

end WindowLayouts.Keyed
