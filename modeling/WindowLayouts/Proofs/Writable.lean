import Mathlib.Data.List.TakeWhile
import WindowLayouts.Proofs.Files

/- A log that is there can be written. The path above it is handed over if its own is, being no
   longer and having no other names, and where a file was found no directory is missing.

     `Path.toText_parent`         the text of the path above
     `FileTree.allows_of_log?`    a log that is there can be written
     `FileTree.isLog_of_log?`     and it is found where it will be written -/
namespace WindowLayouts

/-! ## The path above -/

theorem Utf8.runFrom?_eq_none {begins : CodePoint → Bool} {t : Text} :
    runFrom? begins t = none ↔ ∀ c ∈ t, begins c = false := by
  have hdropped : runFrom? begins t = none ↔ t.dropWhile (!begins ·) = [] := by
    unfold runFrom?
    split <;> simp [*]
  rw [hdropped, List.dropWhile_eq_nil_iff]
  simp only [Bool.not_eq_true']

theorem nameFault?_of_append {s t : Text} (h : nameFault? (s ++ t) = none) :
    nameFault? s = none := by
  unfold nameFault? at h ⊢
  split at h
  · cases h
  · rename_i hnone
    have hs : Utf8.runFrom? (fun c => c.isSurrogate && !c.standsForByte) s = none := by
      rw [Utf8.runFrom?_eq_none] at hnone ⊢
      exact fun c hc => hnone c (List.mem_append_left t hc)
    rw [hs]
    simp only [List.contains_eq_mem, List.mem_append, decide_eq_true_eq] at h ⊢
    split at h
    · cases h
    · rename_i hzero
      rw [if_neg fun hmem => hzero (Or.inl hmem)]

namespace Path

theorem intercalate_isPrefix (sep : Text) (names : List Text) (name : Text) :
    sep.intercalate names <+: sep.intercalate (names ++ [name]) := by
  induction names with
  | nil => exact List.nil_prefix
  | cons first rest ih =>
    cases rest with
    | nil =>
      rw [List.singleton_append, List.intercalate_cons_cons, List.append_assoc,
        List.intercalate_singleton]
      exact List.prefix_append first _
    | cons next rest =>
      rw [List.cons_append, List.cons_append, List.intercalate_cons_cons,
        List.intercalate_cons_cons]
      exact (List.prefix_append_right_inj _).mpr ih

/-- The text of the directory above is the text of the path cut short, or a single dot. -/
theorem toText_parent (p : Path) :
    p.parent.toText = text "." ∨ p.parent.toText <+: p.toText := by
  obtain ⟨root, names⟩ := p
  rcases List.eq_nil_or_concat names with rfl | ⟨before, name, rfl⟩
  · exact Or.inr (List.prefix_refl _)
  · have hprefix : rootText root ++ (text "/").intercalate before <+:
        rootText root ++ (text "/").intercalate (before ++ [name]) :=
      (List.prefix_append_right_inj _).mpr (intercalate_isPrefix _ before name)
    have hwhole : toText ⟨root, before ++ [name]⟩ =
        rootText root ++ (text "/").intercalate (before ++ [name]) := by
      unfold toText
      split
      · rename_i heq
        simp at heq
      · rename_i heq
        cases heq
        rfl
    rw [parent, List.concat_eq_append, List.dropLast_concat, hwhole]
    unfold toText
    split
    · exact Or.inl rfl
    · rename_i heq
      cases heq
      exact Or.inr hprefix

theorem fault?_parent {p : Path} (h : p.fault? = none) : p.parent.fault? = none := by
  rcases p.toText_parent with hdot | ⟨rest, hrest⟩
  · rw [fault?, hdot]
    decide
  · apply nameFault?_of_append
    rw [hrest]
    exact h

theorem isTooLong_parent {p : Path} (h : ¬ p.isTooLong = true) : ¬ p.parent.isTooLong = true := by
  simp only [isTooLong, decide_eq_true_eq, Nat.not_lt] at h ⊢
  rcases p.toText_parent with hdot | ⟨rest, hrest⟩
  · rw [hdot]
    decide
  · apply Nat.le_trans _ h
    rw [← hrest, nameBytes, nameBytes, List.flatMap_append, List.length_append]
    exact Nat.le_add_right _ _

end Path

/-! ## Files that are there -/

namespace FileTree

/-- Nothing stands in the way to a file. -/
theorem makeFrom_of_follow_file {t : FileTree} {d : Place} {names : List Text} {place : Place}
    {content : Bytes} (h : t.follow d names = .file place content) :
    (t.makeFrom d names.dropLast).2 = true := by
  fun_induction follow t d names with
  | case2 d rest ih =>
    cases rest with
    | nil => rfl
    | cons name rest =>
      rw [List.dropLast_cons_cons, makeFrom, if_pos rfl]
      exact ih h
  | case4 d name hdots hlong next rest hnode ih =>
    cases rest with
    | nil => rfl
    | cons other rest =>
      rw [List.dropLast_cons_cons, makeFrom_directory hdots hlong hnode]
      exact ih h
  | case5 d name hdots hlong next old hnode => rfl
  | _ => cases h

/-- A log that is there can be written. -/
theorem allows_of_log? [StackRoom] {t : FileTree} {p : Path} {content : Bytes}
    (h : t.log? p = some content) : t.allows p = .ok () := by
  obtain ⟨place, hfault, habove, hroom, htakes, hok⟩ := log_cases h
  have hlong : ¬ p.isTooLong = true := by
    apply isTooLong_of_lookup
    intro hrefused
    rw [hrefused] at htakes
    exact htakes
  have hmade : (t.makeDirectories p.parent).2 = .ok () := by
    have hall : (t.makeFrom (origin p.parent) p.parent.names).2 = true := by
      unfold log? read? at h
      rw [hfault, lookup, if_neg hlong] at h
      cases hfound : t.follow (origin p) p.names with
      | file found old => exact makeFrom_of_follow_file hfound
      | _ =>
        rw [hfound] at h
        cases h
    rcases t.makeDirectories_cases p.parent with ⟨fault, hfaulty, -⟩ | ⟨-, hlonger, -⟩ |
      ⟨-, -, -, hdeep⟩ | ⟨-, -, -, hmade⟩
    · rw [Path.fault?_parent hfault] at hfaulty
      cases hfaulty
    · exact absurd hlonger (Path.isTooLong_parent hlong)
    · exact absurd (congrArg Prod.snd hdeep) hroom
    · rw [hmade, if_pos hall]
  rw [allows, hmade, habove, hok]

/-- A log that is there is the same once the directories above it are made. -/
theorem isLog_of_log? [StackRoom] {t : FileTree} {p : Path} {content : Bytes}
    (h : t.log? p = some content) : t.IsLog p (some content) := by
  obtain ⟨place, -, habove, -, -, -⟩ := log_cases h
  exact ⟨h, by rw [habove, h]⟩

end FileTree

end WindowLayouts
