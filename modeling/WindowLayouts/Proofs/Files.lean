import WindowLayouts.Storage.FileTree

/- Files that are written together with the directories above them. Whether the system allows that
   never changes from one write to the next, and what was written is what the log at the path holds.

     `FileTree.makeDirectories_of_keeps`    directories that were made are not made again
     `FileTree.IsLog`                       the content of the log at a path
     `FileTree.isLog_of_write`              what was written is what the log holds
     `FileTree.allows_cases`                whether writing is allowed does not depend on what is
                                            written -/
namespace WindowLayouts

namespace FileTree

/-! ## Files that stay -/

/-- Directories stay directories and files stay files. -/
structure Keeps (t t' : FileTree) : Prop where
  directory : ∀ place, t.node? place = some .directory → t'.node? place = some .directory
  file : ∀ place content, t.node? place = some (.file content) →
    ∃ other, t'.node? place = some (.file other)

theorem Keeps.refl (t : FileTree) : Keeps t t := ⟨fun _ h => h, fun _ content h => ⟨content, h⟩⟩

theorem Keeps.trans {t t' t'' : FileTree} (h : Keeps t t') (h' : Keeps t' t'') : Keeps t t'' := by
  refine ⟨fun place hp => h'.directory place (h.directory place hp), ?_⟩
  intro place content hp
  obtain ⟨other, ho⟩ := h.file place content hp
  exact h'.file place other ho

theorem node?_put (t : FileTree) (place other : Place) (node : Node) :
    (t.put place node).node? other = if place = other then some node else t.node? other :=
  Keyed.get?_set place other node t.nodes

theorem keeps_put_directory {t : FileTree} {place : Place} (h : t.node? place = none) :
    Keeps t (t.put place .directory) := by
  constructor
  · intro other ho
    rw [node?_put]
    split
    · rfl
    · exact ho
  · intro other content ho
    have hne : place ≠ other := by
      rintro rfl
      rw [h] at ho
      cases ho
    exact ⟨content, by rw [node?_put, if_neg hne, ho]⟩

theorem keeps_put_file {t : FileTree} {place : Place} (content : Bytes)
    (h : t.node? place ≠ some .directory) : Keeps t (t.put place (.file content)) := by
  constructor
  · intro other ho
    have hne : place ≠ other := by
      rintro rfl
      exact h ho
    rw [node?_put, if_neg hne, ho]
  · intro other old ho
    rw [node?_put]
    split
    · exact ⟨content, rfl⟩
    · exact ⟨old, ho⟩

/-! ## Making directories -/

theorem keeps_makeFrom (t : FileTree) (d : Place) (names : List Text) :
    Keeps t (t.makeFrom d names).1 := by
  fun_induction makeFrom t d names with
  | case1 t d => exact Keeps.refl t
  | case2 t d rest ih => exact ih
  | case3 t d name rest hdots hlong => exact Keeps.refl t
  | case4 t d name rest hdots hlong place hnode ih => exact ih
  | case5 t d name rest hdots hlong place content hnode => exact Keeps.refl t
  | case6 t d name rest hdots hlong place hnode ih => exact (keeps_put_directory hnode).trans ih

section Step

variable {t : FileTree} {d : Place} {name : Text}

theorem makeFrom_directory (hdots : ¬ name = text "..") (hlong : ¬ isNameTooLong name = true)
    (h : t.node? (d ++ [listedName name]) = some .directory) (rest : List Text) :
    t.makeFrom d (name :: rest) = t.makeFrom (d ++ [listedName name]) rest := by
  rw [makeFrom, if_neg hdots, if_neg hlong]
  simp only [h]

theorem makeFrom_file (hdots : ¬ name = text "..") (hlong : ¬ isNameTooLong name = true)
    {content : Bytes} (h : t.node? (d ++ [listedName name]) = some (.file content))
    (rest : List Text) : t.makeFrom d (name :: rest) = (t, false) := by
  rw [makeFrom, if_neg hdots, if_neg hlong]
  simp only [h]

theorem missing_directory (hdots : ¬ name = text "..") (hlong : ¬ isNameTooLong name = true)
    (h : t.node? (d ++ [listedName name]) = some .directory) (rest : List Text) :
    t.missing d (name :: rest) = t.missing (d ++ [listedName name]) rest := by
  rw [missing, if_neg hdots, if_neg hlong]
  simp only [h]

theorem missing_file (hdots : ¬ name = text "..") (hlong : ¬ isNameTooLong name = true)
    {content : Bytes} (h : t.node? (d ++ [listedName name]) = some (.file content))
    (rest : List Text) : t.missing d (name :: rest) = 0 := by
  rw [missing, if_neg hdots, if_neg hlong]
  simp only [h]

end Step

/-- Making directories that stand already changes nothing, and stops where it stopped before. -/
theorem makeFrom_of_keeps {t t' : FileTree} {d : Place} {names : List Text}
    (h : Keeps (t.makeFrom d names).1 t') :
    t'.makeFrom d names = (t', (t.makeFrom d names).2) := by
  -- each name that was come to leads to a directory or a file of the tree that was left, and both
  -- are still there
  fun_induction makeFrom t d names with
  | case1 t d => rfl
  | case2 t d rest ih => rw [makeFrom, if_pos rfl, ih h]
  | case3 t d name rest hdots hlong => rw [makeFrom, if_neg hdots, if_pos hlong]
  | case4 t d name rest hdots hlong place hnode ih =>
    have hplace := h.directory place ((keeps_makeFrom t place rest).directory place hnode)
    rw [makeFrom_directory hdots hlong hplace, ih h]
  | case5 t d name rest hdots hlong place content hnode =>
    obtain ⟨other, hplace⟩ := h.file place content hnode
    exact makeFrom_file hdots hlong hplace rest
  | case6 t d name rest hdots hlong place hnode ih =>
    have hput : (t.put place .directory).node? place = some .directory := by
      rw [node?_put, if_pos rfl]
    have hplace := h.directory place ((keeps_makeFrom _ place rest).directory place hput)
    rw [makeFrom_directory hdots hlong hplace, ih h]

/-- Where directories were made and stand, none is missing. -/
theorem missing_of_keeps {t t' : FileTree} {d : Place} {names : List Text}
    (h : Keeps (t.makeFrom d names).1 t') : t'.missing d names = 0 := by
  fun_induction makeFrom t d names with
  | case1 t d => rfl
  | case2 t d rest ih => rw [missing, if_pos rfl, ih h]
  | case3 t d name rest hdots hlong => rw [missing, if_neg hdots, if_pos hlong]
  | case4 t d name rest hdots hlong place hnode ih =>
    have hplace := h.directory place ((keeps_makeFrom t place rest).directory place hnode)
    rw [missing_directory hdots hlong hplace, ih h]
  | case5 t d name rest hdots hlong place content hnode =>
    obtain ⟨other, hplace⟩ := h.file place content hnode
    exact missing_file hdots hlong hplace rest
  | case6 t d name rest hdots hlong place hnode ih =>
    have hput : (t.put place .directory).node? place = some .directory := by
      rw [node?_put, if_pos rfl]
    have hplace := h.directory place ((keeps_makeFrom _ place rest).directory place hput)
    rw [missing_directory hdots hlong hplace, ih h]

theorem isTooDeep_of_missing [StackRoom] {t : FileTree} {p : Path}
    (h : t.missing (origin p) p.names = 0) : ¬ t.isTooDeep p = true := by
  rw [isTooDeep, h, decide_eq_true_eq]
  exact Nat.not_lt_zero _

/-- What making directories comes to: nothing is made for a reason that comes first, or they are
    made as far as they can be. -/
theorem makeDirectories_cases [StackRoom] (t : FileTree) (p : Path) :
    (∃ fault, p.fault? = some fault ∧ t.makeDirectories p = (t, .error (.name fault))) ∨
    (p.fault? = none ∧ p.isTooLong = true ∧ t.makeDirectories p = (t, .error .system)) ∨
    (p.fault? = none ∧ ¬ p.isTooLong = true ∧ t.isTooDeep p = true ∧
      t.makeDirectories p = (t, .error .tooDeep)) ∨
    (p.fault? = none ∧ ¬ p.isTooLong = true ∧ ¬ t.isTooDeep p = true ∧
      t.makeDirectories p = ((t.makeFrom (origin p) p.names).1,
        if (t.makeFrom (origin p) p.names).2 then .ok () else .error .system)) := by
  unfold makeDirectories
  cases hfault : p.fault? with
  | some fault => exact Or.inl ⟨fault, rfl, rfl⟩
  | none =>
    refine Or.inr ?_
    by_cases hlong : p.isTooLong = true
    · exact Or.inl ⟨rfl, hlong, if_pos hlong⟩
    · refine Or.inr ?_
      dsimp only
      rw [if_neg hlong]
      by_cases hdeep : t.isTooDeep p = true
      · exact Or.inl ⟨rfl, hlong, hdeep, if_pos hdeep⟩
      · refine Or.inr ⟨rfl, hlong, hdeep, ?_⟩
        rw [if_neg hdeep]
        rcases t.makeFrom (origin p) p.names with ⟨made, _ | _⟩ <;> rfl

theorem makeDirectories_tooDeep_iff [StackRoom] {t : FileTree} {p : Path} :
    (t.makeDirectories p).2 = .error .tooDeep ↔
      p.fault? = none ∧ ¬ p.isTooLong = true ∧ t.isTooDeep p = true := by
  rcases t.makeDirectories_cases p with ⟨fault, hfault, hmade⟩ | ⟨-, hlong, hmade⟩ |
    ⟨hfault, hlong, hdeep, hmade⟩ | ⟨-, -, hdeep, hmade⟩
  · rw [hmade, hfault]
    exact iff_of_false nofun nofun
  · rw [hmade]
    exact iff_of_false nofun fun h => h.2.1 hlong
  · rw [hmade]
    exact iff_of_true rfl ⟨hfault, hlong, hdeep⟩
  · rw [hmade]
    apply iff_of_false _ fun h => hdeep h.2.2
    dsimp only
    split <;> exact nofun

/-- Directories that were made, as far as they could be, are not made again. -/
theorem makeDirectories_of_keeps [StackRoom] {t t' : FileTree} {p : Path}
    (hroom : (t.makeDirectories p).2 ≠ .error .tooDeep) (h : Keeps (t.makeDirectories p).1 t') :
    t'.makeDirectories p = (t', (t.makeDirectories p).2) := by
  rcases t.makeDirectories_cases p with ⟨fault, hfault, hmade⟩ | ⟨hfault, hlong, hmade⟩ |
    ⟨-, -, -, hmade⟩ | ⟨hfault, hlong, -, hmade⟩
  · rw [hmade, makeDirectories, hfault]
  · rw [hmade, makeDirectories, hfault]
    exact if_pos hlong
  · rw [hmade] at hroom
    exact absurd rfl hroom
  · rw [hmade] at h ⊢
    have hnone := isTooDeep_of_missing (missing_of_keeps h)
    rw [makeDirectories, hfault]
    dsimp only
    rw [if_neg hlong, if_neg hnone, makeFrom_of_keeps h]
    rcases (t.makeFrom (origin p) p.names).2 with _ | _ <;> rfl

/-- Making directories once more changes nothing, and ends as it did. -/
theorem makeDirectories_again [StackRoom] (t : FileTree) (p : Path) :
    (t.makeDirectories p).1.makeDirectories p = t.makeDirectories p := by
  by_cases hroom : (t.makeDirectories p).2 = .error .tooDeep
  · have hdeep := (makeDirectories_tooDeep_iff.mp hroom).2.2
    rcases t.makeDirectories_cases p with ⟨fault, -, hmade⟩ | ⟨-, -, hmade⟩ | ⟨-, -, -, hmade⟩ |
      ⟨-, -, hroomy, -⟩
    · rw [hmade, hmade]
    · rw [hmade, hmade]
    · rw [hmade, hmade]
    · exact absurd hdeep hroomy
  · exact makeDirectories_of_keeps hroom (Keeps.refl _)

/-- The files once the directories above a path are made. -/
def madeAbove [StackRoom] (t : FileTree) (p : Path) : FileTree := (t.makeDirectories p.parent).1

theorem makeDirectories_of_keeps_madeAbove [StackRoom] {t t' : FileTree} {p : Path}
    (hroom : (t.makeDirectories p.parent).2 ≠ .error .tooDeep) (h : Keeps (t.madeAbove p) t') :
    t'.makeDirectories p.parent = (t', (t.makeDirectories p.parent).2) :=
  makeDirectories_of_keeps hroom h

theorem madeAbove_of_keeps [StackRoom] {t t' : FileTree} {p : Path}
    (hroom : (t.makeDirectories p.parent).2 ≠ .error .tooDeep) (h : Keeps (t.madeAbove p) t') :
    t'.madeAbove p = t' := by
  rw [madeAbove, makeDirectories_of_keeps hroom h]

theorem madeAbove_again [StackRoom] (t : FileTree) (p : Path) :
    (t.madeAbove p).madeAbove p = t.madeAbove p :=
  congrArg Prod.fst (t.makeDirectories_again p.parent)

/-! ## Following a path -/

theorem node?_of_follow_file {t : FileTree} {d : Place} {names : List Text} {place : Place}
    {content : Bytes} (h : t.follow d names = .file place content) :
    t.node? place = some (.file content) := by
  fun_induction follow t d names with
  | case2 d rest ih => exact ih h
  | case4 d name hdots hlong place' rest hnode ih => exact ih h
  | case5 d name hdots hlong place' old hnode =>
    obtain ⟨rfl, rfl⟩ := Found.file.inj h
    exact hnode
  | _ => cases h

theorem node?_of_follow_absent {t : FileTree} {d : Place} {names : List Text} {place : Place}
    (h : t.follow d names = .absent place) : t.node? place = none := by
  fun_induction follow t d names with
  | case2 d rest ih => exact ih h
  | case4 d name hdots hlong place' rest hnode ih => exact ih h
  | case7 d name hdots hlong place' hnode =>
    obtain rfl := Found.absent.inj h
    exact hnode
  | _ => cases h

/-- Whether a path leads to a file at a place, or to that place as one where a file could be. -/
def takes (place : Place) : Found → Prop
  | .file found _ => found = place
  | .absent found => found = place
  | _ => False

theorem not_directory_of_takes {t : FileTree} {d : Place} {names : List Text} {place : Place}
    (h : takes place (t.follow d names)) : t.node? place ≠ some .directory := by
  intro hnode
  cases hfound : t.follow d names with
  | file found content =>
    rw [hfound] at h
    obtain rfl : found = place := h
    rw [node?_of_follow_file hfound] at hnode
    cases hnode
  | absent found =>
    rw [hfound] at h
    obtain rfl : found = place := h
    rw [node?_of_follow_absent hfound] at hnode
    cases hnode
  | _ =>
    rw [hfound] at h
    exact h

theorem follow_directory {t : FileTree} {d : Place} {name : Text} (hdots : ¬ name = text "..")
    (hlong : ¬ isNameTooLong name = true)
    (h : t.node? (d ++ [listedName name]) = some .directory) (rest : List Text) :
    t.follow d (name :: rest) = t.follow (d ++ [listedName name]) rest := by
  rw [follow, if_neg hdots, if_neg hlong]
  simp only [h]

theorem follow_file {t : FileTree} {d : Place} {name : Text} (hdots : ¬ name = text "..")
    (hlong : ¬ isNameTooLong name = true) {content : Bytes}
    (h : t.node? (d ++ [listedName name]) = some (.file content)) :
    t.follow d [name] = .file (d ++ [listedName name]) content := by
  rw [follow, if_neg hdots, if_neg hlong]
  simp only [h]

/-- A file that was put where a path leads is what the path leads to. -/
theorem follow_put {t : FileTree} {d : Place} {names : List Text} {place : Place}
    (h : takes place (t.follow d names)) (content : Bytes) :
    (t.put place (.file content)).follow d names = .file place content := by
  -- the place is no directory, so it is come to at the end of the path only
  have hplace := not_directory_of_takes h
  fun_induction follow t d names with
  | case2 d rest ih =>
    rw [follow, if_pos rfl]
    exact ih h
  | case4 d name hdots hlong next rest hnode ih =>
    have hne : place ≠ next := by
      rintro rfl
      exact hplace hnode
    have hnext : (t.put place (.file content)).node? next = some .directory := by
      rw [node?_put, if_neg hne, hnode]
    rw [follow_directory hdots hlong hnext]
    exact ih h
  | case5 d name hdots hlong next old hnode =>
    obtain rfl : next = place := h
    exact follow_file hdots hlong (by rw [node?_put, if_pos rfl])
  | case7 d name hdots hlong next hnode =>
    obtain rfl : next = place := h
    exact follow_file hdots hlong (by rw [node?_put, if_pos rfl])
  | _ => exact h.elim

theorem lookup_put {t : FileTree} {p : Path} {place : Place} (h : takes place (t.lookup p))
    (content : Bytes) : (t.put place (.file content)).lookup p = .file place content := by
  unfold lookup at h ⊢
  split
  · rename_i hlong
    rw [if_pos hlong] at h
    exact h.elim
  · rename_i hlong
    rw [if_neg hlong] at h
    exact follow_put h content

theorem follow_absent {t : FileTree} {d : Place} {name : Text} (hdots : ¬ name = text "..")
    (hlong : ¬ isNameTooLong name = true) (h : t.node? (d ++ [listedName name]) = none)
    {rest : List Text} (hrest : rest ≠ []) : t.follow d (name :: rest) = .unreachable := by
  obtain ⟨next, rest, rfl⟩ := List.exists_cons_of_ne_nil hrest
  rw [follow, if_neg hdots, if_neg hlong]
  simp only [h]

/-- Nothing is missing on the way that names lead, short of the last, except where they lead
    nowhere. -/
theorem makeFrom_of_follow_append {t : FileTree} {d : Place} {made rest : List Text}
    (h : t.follow d (made ++ rest) ≠ .unreachable) (hrest : rest ≠ []) :
    (t.makeFrom d made).1 = t := by
  induction made generalizing d with
  | nil => rfl
  | cons name made ih =>
    rw [List.cons_append] at h
    by_cases hdots : name = text ".."
    · subst hdots
      rw [follow, if_pos rfl] at h
      rw [makeFrom, if_pos rfl]
      exact ih h
    · by_cases hlong : isNameTooLong name = true
      · rw [makeFrom, if_neg hdots, if_pos hlong]
      · cases hnode : t.node? (d ++ [listedName name]) with
        | none =>
          have hnonempty := List.append_ne_nil_of_right_ne_nil made hrest
          exact absurd (follow_absent hdots hlong hnode hnonempty) h
        | some node =>
          cases node with
          | file content => rw [makeFrom_file hdots hlong hnode]
          | directory =>
            rw [follow_directory hdots hlong hnode] at h
            rw [makeFrom_directory hdots hlong hnode]
            exact ih h

theorem makeFrom_take_of_follow {t : FileTree} {d : Place} {names : List Text}
    (h : t.follow d names ≠ .unreachable) (n : Nat) :
    (t.makeFrom d (names.dropLast.take n)).1 = t := by
  rcases List.eq_nil_or_concat names with rfl | ⟨above, last, rfl⟩
  · rw [List.dropLast_nil, List.take_nil]
    rfl
  · rw [List.concat_eq_append] at h ⊢
    rw [List.dropLast_concat]
    have hsplit : above ++ [last] = above.take n ++ (above.drop n ++ [last]) := by
      rw [← List.append_assoc, List.take_append_drop]
    rw [hsplit] at h
    exact makeFrom_of_follow_append h (by simp)

/-- Nothing is missing above what a path leads to, except where it leads nowhere. -/
theorem makeFrom_of_follow {t : FileTree} {d : Place} {names : List Text}
    (h : t.follow d names ≠ .unreachable) : (t.makeFrom d names.dropLast).1 = t := by
  have htake := makeFrom_take_of_follow h names.dropLast.length
  rw [List.take_length] at htake
  exact htake

theorem isTooLong_of_lookup {t : FileTree} {p : Path} (h : t.lookup p ≠ .refused) :
    ¬ p.isTooLong = true := by
  intro hlong
  rw [lookup, if_pos hlong] at h
  exact h rfl

theorem madeAbove_cases [StackRoom] (t : FileTree) (p : Path) :
    t.madeAbove p = t ∨ t.madeAbove p = (t.makeFrom (origin p) p.names.dropLast).1 := by
  rw [madeAbove]
  rcases t.makeDirectories_cases p.parent with ⟨fault, -, hmade⟩ | ⟨-, -, hmade⟩ |
    ⟨-, -, -, hmade⟩ | ⟨-, -, -, hmade⟩
  · exact Or.inl (congrArg Prod.fst hmade)
  · exact Or.inl (congrArg Prod.fst hmade)
  · exact Or.inl (congrArg Prod.fst hmade)
  · exact Or.inr (congrArg Prod.fst hmade)

/-- There is room to make what is missing above a path that leads somewhere, for nothing is. -/
theorem room_of_lookup [StackRoom] {t : FileTree} {p : Path} (h : t.lookup p ≠ .unreachable)
    (hlong : ¬ p.isTooLong = true) : (t.makeDirectories p.parent).2 ≠ .error .tooDeep := by
  have hfollow : t.follow (origin p) p.names ≠ .unreachable := by
    rw [lookup, if_neg hlong] at h
    exact h
  have hkeeps : Keeps (t.makeFrom (origin p.parent) p.parent.names).1 t := by
    have hmade : (t.makeFrom (origin p.parent) p.parent.names).1 = t := makeFrom_of_follow hfollow
    rw [hmade]
    exact Keeps.refl t
  intro hdeep
  exact isTooDeep_of_missing (missing_of_keeps hkeeps) (makeDirectories_tooDeep_iff.mp hdeep).2.2

theorem madeAbove_of_lookup [StackRoom] {t : FileTree} {p : Path} (hlong : ¬ p.isTooLong = true)
    (h : t.lookup p ≠ .unreachable) : t.madeAbove p = t := by
  have hfollow : t.follow (origin p) p.names ≠ .unreachable := by
    rw [lookup, if_neg hlong] at h
    exact h
  rcases t.madeAbove_cases p with hmade | hmade
  · exact hmade
  · rw [hmade, makeFrom_of_follow hfollow]

theorem lookup_madeAbove [StackRoom] {t : FileTree} {p : Path} (h : t.lookup p ≠ .unreachable) :
    (t.madeAbove p).lookup p = t.lookup p := by
  by_cases hlong : p.isTooLong = true
  · rw [lookup, lookup, if_pos hlong, if_pos hlong]
  · rw [madeAbove_of_lookup hlong h]

/-! ## The content of a log -/

/-- What the log at a path holds, if there is one. A path that cannot be handed over leads to
    none. -/
def log? (t : FileTree) (p : Path) : Option Bytes :=
  if p.fault?.isSome then none else t.read? p

/-- The content of the log at a path, both as it is and once the directories above it are made. The
    two differ only where double dots lead from a missing directory to a file. -/
structure IsLog [StackRoom] (t : FileTree) (p : Path) (content : Option Bytes) : Prop where
  now : t.log? p = content
  made : (t.madeAbove p).log? p = content

/-- A path that leads somewhere leads to its log. -/
theorem isLog_of_lookup [StackRoom] {t : FileTree} {p : Path} (h : t.lookup p ≠ .unreachable) :
    IsLog t p (t.log? p) := by
  refine ⟨rfl, ?_⟩
  rw [log?, log?, read?, read?, lookup_madeAbove h]

theorem IsLog.of_keeps [StackRoom] {t t' : FileTree} {p : Path}
    (hroom : (t.makeDirectories p.parent).2 ≠ .error .tooDeep) (h : Keeps (t.madeAbove p) t') :
    IsLog t' p (t'.log? p) :=
  ⟨rfl, by rw [madeAbove_of_keeps hroom h]⟩

theorem IsLog.madeAbove [StackRoom] {t : FileTree} {p : Path} {content : Option Bytes}
    (h : IsLog t p content) : IsLog (t.madeAbove p) p content :=
  ⟨h.made, by rw [madeAbove_again, h.made]⟩

/-! ## What may be written -/

/-- What becomes of writing the file at a path once the directories above it are made. -/
def allows [StackRoom] (t : FileTree) (p : Path) : Except FileFailure Unit :=
  match (t.makeDirectories p.parent).2, (t.madeAbove p).write p [] with
  | .error reason, _ => .error reason
  | .ok (), .error reason => .error reason
  | .ok (), .ok _ => .ok ()

theorem allows_madeAbove [StackRoom] (t : FileTree) (p : Path) :
    (t.madeAbove p).allows p = t.allows p := by
  unfold allows
  rw [madeAbove_again, madeAbove, makeDirectories_again]

/-- Whether a file can be written does not depend on what is written. -/
theorem write_cases (t : FileTree) (p : Path) :
    (∃ reason, ∀ content, t.write p content = .error reason) ∨
      ∃ place, p.fault? = none ∧ takes place (t.lookup p) ∧
        ∀ content, t.write p content = .ok (t.put place (.file content)) := by
  unfold write
  cases p.fault? with
  | some fault => exact Or.inl ⟨.name fault, fun _ => rfl⟩
  | none =>
    cases t.lookup p with
    | file place old => exact Or.inr ⟨place, rfl, rfl, fun _ => rfl⟩
    | absent place => exact Or.inr ⟨place, rfl, rfl, fun _ => rfl⟩
    | _ => exact Or.inl ⟨.system, fun _ => rfl⟩

theorem keeps_put_of_lookup {t : FileTree} {p : Path} {place : Place} (h : takes place (t.lookup p))
    (content : Bytes) : Keeps t (t.put place (.file content)) := by
  unfold lookup at h
  split at h
  · exact h.elim
  · exact keeps_put_file content (not_directory_of_takes h)

/-- What was written is what the log holds, and it can be written again. -/
theorem isLog_of_write [StackRoom] {t t' : FileTree} {p : Path} {content : Bytes}
    (hmade : (t.makeDirectories p.parent).2 = .ok ())
    (h : (t.madeAbove p).write p content = .ok t') :
    IsLog t' p (some content) ∧ t'.allows p = .ok () := by
  rcases write_cases (t.madeAbove p) p with ⟨reason, herror⟩ | ⟨place, hfault, htakes, hok⟩
  · rw [herror] at h
    cases h
  · obtain rfl := Except.ok.inj ((hok content).symm.trans h)
    have hkeeps := keeps_put_of_lookup htakes content
    have hroom : (t.makeDirectories p.parent).2 ≠ .error .tooDeep := by
      rw [hmade]
      exact nofun
    have hlog : ((t.madeAbove p).put place (.file content)).log? p = some content := by
      rw [log?, hfault, read?, lookup_put htakes]
      rfl
    refine ⟨?_, ?_⟩
    · have his := IsLog.of_keeps hroom hkeeps
      rw [hlog] at his
      exact his
    · have hagain : ((t.madeAbove p).put place (.file content)).write p [] =
          .ok (((t.madeAbove p).put place (.file content)).put place (.file [])) := by
        unfold write
        rw [hfault, lookup_put htakes]
      unfold allows
      rw [makeDirectories_of_keeps_madeAbove hroom hkeeps, madeAbove_of_keeps hroom hkeeps, hmade,
        hagain]

theorem log?_of_write {t t' : FileTree} {p : Path} {content : Bytes}
    (h : t.write p content = .ok t') : t.log? p = t.read? p := by
  rcases write_cases t p with ⟨reason, herror⟩ | ⟨place, hfault, -, -⟩
  · rw [herror] at h
    cases h
  · rw [log?, hfault]
    rfl

/-- Writing is allowed or refused in the same way whatever is written. -/
theorem allows_cases [StackRoom] (t : FileTree) (p : Path) :
    (∃ reason, t.allows p = .error reason ∧ (t.makeDirectories p.parent).2 = .error reason) ∨
    (∃ reason, t.allows p = .error reason ∧ (t.makeDirectories p.parent).2 = .ok () ∧
      ∀ content, (t.madeAbove p).write p content = .error reason) ∨
    (t.allows p = .ok () ∧ (t.makeDirectories p.parent).2 = .ok () ∧
      ∀ content, ∃ t', (t.madeAbove p).write p content = .ok t') := by
  unfold allows
  cases hmade : (t.makeDirectories p.parent).2 with
  | error reason => exact Or.inl ⟨reason, rfl, rfl⟩
  | ok done =>
    rcases write_cases (t.madeAbove p) p with ⟨reason, herror⟩ | ⟨place, -, -, hok⟩
    · exact Or.inr (Or.inl ⟨reason, by rw [herror], rfl, herror⟩)
    · exact Or.inr (Or.inr ⟨by rw [hok], rfl, fun content => ⟨_, hok content⟩⟩)

/-- A log that is there stands in a directory, and can be written. -/
theorem log_cases [StackRoom] {t : FileTree} {p : Path} {content : Bytes}
    (h : t.log? p = some content) :
    ∃ place, p.fault? = none ∧ t.madeAbove p = t ∧
      (t.makeDirectories p.parent).2 ≠ .error .tooDeep ∧ takes place (t.lookup p) ∧
      ∀ other, t.write p other = .ok (t.put place (.file other)) := by
  unfold log? at h
  split at h
  · cases h
  · rename_i hfault
    rw [Option.not_isSome_iff_eq_none] at hfault
    unfold read? at h
    cases hfound : t.lookup p with
    | file place old =>
      have hlong : ¬ p.isTooLong = true := isTooLong_of_lookup (by rw [hfound]; nofun)
      have habove : t.madeAbove p = t := madeAbove_of_lookup hlong (by rw [hfound]; nofun)
      have hroom := room_of_lookup (t := t) (p := p) (by rw [hfound]; nofun) hlong
      refine ⟨place, hfault, habove, hroom, rfl, ?_⟩
      intro other
      unfold write
      rw [hfault, hfound]
    | _ =>
      rw [hfound] at h
      cases h

end FileTree

end WindowLayouts
