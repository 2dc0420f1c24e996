import Mathlib.Data.List.TakeWhile
import WindowLayouts.Text.Blank

/- Texts with blanks at their ends, and texts cut at a separator.

     `Text.trim_blanks`     blanks at the ends make no difference to what is left
     `Text.trim_split`      what was taken away is blank
     `Text.splitOn_join`    the pieces make the text again -/
namespace WindowLayouts

namespace Text

/-! ## Blanks at the ends -/

/-- Blanks and nothing else. -/
def IsBlank (t : Text) : Prop := ∀ c ∈ t, c.isBlank = true

instance (t : Text) : Decidable t.IsBlank :=
  decidable_of_iff (t.all CodePoint.isBlank = true) List.all_eq_true

theorem isBlank_nil : IsBlank [] := fun _ hc => nomatch hc

theorem dropWhile_of_isBlank {t : Text} (h : t.IsBlank) : t.dropWhile CodePoint.isBlank = [] :=
  List.dropWhile_eq_nil_iff.mpr h

theorem dropTail_append {after : Text} (h : after.IsBlank) (t : Text) :
    dropTailWhile CodePoint.isBlank (t ++ after) = dropTailWhile CodePoint.isBlank t := by
  have hreverse : ∀ c ∈ after.reverse, c.isBlank = true := fun c hc => h c (List.mem_reverse.mp hc)
  rw [dropTailWhile, dropTailWhile, List.reverse_append, List.dropWhile_append_of_pos hreverse]

/-- Blanks at the ends make no difference to what is left. -/
theorem trim_blanks {before after : Text} (hbefore : before.IsBlank) (hafter : after.IsBlank)
    (t : Text) : (before ++ t ++ after).trim = t.trim := by
  rw [trim, trim, List.append_assoc, List.dropWhile_append_of_pos hbefore, List.dropWhile_append]
  split
  · rename_i hempty
    rw [List.isEmpty_iff.mp hempty, dropWhile_of_isBlank hafter]
  · rw [dropTail_append hafter]

/-- What was taken away is blank. -/
theorem trim_split (t : Text) :
    ∃ before after, IsBlank before ∧ IsBlank after ∧ t = before ++ t.trim ++ after := by
  refine ⟨t.takeWhile CodePoint.isBlank,
    ((t.dropWhile CodePoint.isBlank).reverse.takeWhile CodePoint.isBlank).reverse, ?_, ?_, ?_⟩
  · exact fun c hc => List.mem_takeWhile_imp hc
  · exact fun c hc => List.mem_takeWhile_imp (List.mem_reverse.mp hc)
  · rw [trim, dropTailWhile, List.append_assoc, ← List.reverse_append,
      List.takeWhile_append_dropWhile, List.reverse_reverse, List.takeWhile_append_dropWhile]

theorem trim_trim (t : Text) : t.trim.trim = t.trim := by
  obtain ⟨before, after, hbefore, hafter, ht⟩ := trim_split t
  have h := trim_blanks hbefore hafter t.trim
  rw [← ht] at h
  exact h.symm

theorem length_trim_le (t : Text) : t.trim.length ≤ t.length := by
  obtain ⟨before, after, -, -, ht⟩ := trim_split t
  have h := congrArg List.length ht
  rw [List.length_append, List.length_append] at h
  omega

/-- A trimmed text neither begins nor ends with blanks. -/
theorem ends_of_trim {before middle after : Text} (hbefore : before.IsBlank)
    (hafter : after.IsBlank) (h : (before ++ middle ++ after).trim = before ++ middle ++ after) :
    before = [] ∧ after = [] := by
  rw [trim_blanks hbefore hafter] at h
  have hlength := congrArg List.length h
  have hle := length_trim_le middle
  rw [List.length_append, List.length_append] at hlength
  exact ⟨List.eq_nil_of_length_eq_zero (by omega), List.eq_nil_of_length_eq_zero (by omega)⟩

/-- A text between two code points that are no blanks has nothing to take away. -/
theorem trim_eq_self {t : Text} (hhead : ∀ c, t.head? = some c → c.isBlank = false)
    (hlast : ∀ c, t.getLast? = some c → c.isBlank = false) : t.trim = t := by
  obtain ⟨before, after, hbefore, hafter, ht⟩ := trim_split t
  have hfirst : before = [] := by
    cases before with
    | nil => rfl
    | cons c rest =>
      have hc := hhead c (by rw [ht]; rfl)
      rw [hbefore c List.mem_cons_self] at hc
      cases hc
  have hend : after = [] := by
    rcases List.eq_nil_or_concat after with hnil | ⟨init, c, rfl⟩
    · exact hnil
    · have hc := hlast c (by rw [ht, List.concat_eq_append, ← List.append_assoc,
        List.getLast?_concat])
      rw [hafter c (by simp)] at hc
      cases hc
  rw [hfirst, hend, List.nil_append, List.append_nil] at ht
  exact ht.symm

/-! ## Texts cut at a separator -/

theorem splitOn_cons (sep c : CodePoint) (t : Text) :
    splitOn sep (c :: t) = consPoint sep c (splitOn sep t) := rfl

theorem splitOn_ne_nil (sep : CodePoint) (t : Text) : splitOn sep t ≠ [] := by
  cases t with
  | nil => exact List.cons_ne_nil _ _
  | cons c rest =>
    rw [splitOn_cons]
    unfold consPoint
    split
    · exact List.cons_ne_nil _ _
    · split <;> exact List.cons_ne_nil _ _

/-- The pieces with the separator between them make the text again. -/
theorem splitOn_join (sep : CodePoint) (t : Text) : [sep].intercalate (splitOn sep t) = t := by
  induction t with
  | nil => rfl
  | cons c rest ih =>
    obtain ⟨piece, more, hpieces⟩ := List.exists_cons_of_ne_nil (splitOn_ne_nil sep rest)
    rw [splitOn_cons]
    rw [hpieces] at ih ⊢
    unfold consPoint
    split
    · rename_i hsep
      rw [List.intercalate_cons_cons, ih, hsep]
      rfl
    · cases more with
      | nil =>
        rw [List.intercalate_singleton] at ih ⊢
        rw [ih]
      | cons next more =>
        rw [List.intercalate_cons_cons] at ih ⊢
        rw [← ih]
        rfl

/-- A text with one separator, between texts without it, is cut in two. -/
theorem splitOn_pair {sep : CodePoint} {s t : Text} (hs : sep ∉ s) (ht : sep ∉ t) :
    splitOn sep (s ++ sep :: t) = [s, t] := by
  have hwhole : ∀ u : Text, sep ∉ u → splitOn sep u = [u] := by
    intro u hu
    induction u with
    | nil => rfl
    | cons c rest ih =>
      obtain ⟨hc, hrest⟩ := List.ne_and_not_mem_of_not_mem_cons hu
      rw [splitOn_cons, ih hrest, consPoint, if_neg (Ne.symm hc)]
  induction s with
  | nil => rw [List.nil_append, splitOn_cons, hwhole t ht, consPoint, if_pos rfl]
  | cons c rest ih =>
    obtain ⟨hc, hrest⟩ := List.ne_and_not_mem_of_not_mem_cons hs
    rw [List.cons_append, splitOn_cons, ih hrest, consPoint, if_neg (Ne.symm hc)]

end Text

end WindowLayouts
