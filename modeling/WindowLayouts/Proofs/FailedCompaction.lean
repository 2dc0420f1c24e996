import WindowLayouts.History.Replacement
import WindowLayouts.Proofs.RepeatedCompaction

/- A compaction that fails. Whatever step the system refuses, the store is as it was, no message is
   sent, every file has its content, and the temporary file is gone. What may be left are
   directories on the way to the log: they are made first, and nothing takes them away. Where none
   is missing, all files and directories are as they were.

     `FileTree.OnlyAddsDirectories`       nothing is new but directories
     `FileTree.OnlyMakesWay`              these were missing on the way to a path
     `Store.replaceBySteps_error`         a replacement that failed made directories at most
     `Store.replaceBySteps_none`          without refusals the steps do what replacing does
     `Store.failed_compaction_keeps`      what holds of every compaction that fails
     `Store.failed_compaction_adds`       one that leaves a directory -/
namespace WindowLayouts

namespace FileTree

/-! ## Trees with more directories -/

/-- Whatever was there is there still, and what is new are directories. -/
structure OnlyAddsDirectories (t t' : FileTree) : Prop where
  kept : ∀ place node, t.node? place = some node → t'.node? place = some node
  added : ∀ place, t.node? place = none →
    t'.node? place = none ∨ t'.node? place = some .directory

theorem OnlyAddsDirectories.refl (t : FileTree) : OnlyAddsDirectories t t :=
  ⟨fun _ _ h => h, fun _ h => Or.inl h⟩

theorem OnlyAddsDirectories.trans {t t' t'' : FileTree} (h : OnlyAddsDirectories t t')
    (h' : OnlyAddsDirectories t' t'') : OnlyAddsDirectories t t'' := by
  refine ⟨fun place node hp => h'.kept place node (h.kept place node hp), ?_⟩
  intro place hp
  rcases h.added place hp with hnone | hdirectory
  · exact h'.added place hnone
  · exact Or.inr (h'.kept place .directory hdirectory)

theorem onlyAddsDirectories_put {t : FileTree} {place : Place} (h : t.node? place = none) :
    OnlyAddsDirectories t (t.put place .directory) := by
  constructor
  · intro other node ho
    have hne : place ≠ other := by
      rintro rfl
      rw [h] at ho
      cases ho
    rw [node?_put, if_neg hne, ho]
  · intro other ho
    rw [node?_put]
    split
    · exact Or.inr rfl
    · exact Or.inl ho

theorem onlyAddsDirectories_makeFrom (t : FileTree) (d : Place) (names : List Text) :
    OnlyAddsDirectories t (t.makeFrom d names).1 := by
  fun_induction makeFrom t d names with
  | case1 t d => exact .refl t
  | case2 t d rest ih => exact ih
  | case3 t d name rest hdots hlong => exact .refl t
  | case4 t d name rest hdots hlong place hnode ih => exact ih
  | case5 t d name rest hdots hlong place content hnode => exact .refl t
  | case6 t d name rest hdots hlong place hnode ih => exact (onlyAddsDirectories_put hnode).trans ih

/-- Directories that were all made can be followed. -/
theorem follow_makeFrom {t : FileTree} {d : Place} {names : List Text}
    (h : (t.makeFrom d names).2 = true) :
    ∃ place, (t.makeFrom d names).1.follow d names = .directory place := by
  fun_induction makeFrom t d names with
  | case1 t d => exact ⟨d, rfl⟩
  | case2 t d rest ih =>
    rw [follow, if_pos rfl]
    exact ih h
  | case3 t d name rest hdots hlong => cases h
  | case4 t d name rest hdots hlong place hnode ih =>
    have hplace := (keeps_makeFrom t place rest).directory place hnode
    rw [follow_directory hdots hlong hplace]
    exact ih h
  | case5 t d name rest hdots hlong place content hnode => cases h
  | case6 t d name rest hdots hlong place hnode ih =>
    have hput : (t.put place .directory).node? place = some .directory := by
      rw [node?_put, if_pos rfl]
    have hplace := (keeps_makeFrom _ place rest).directory place hput
    rw [follow_directory hdots hlong hplace]
    exact ih h

theorem follow_of_makeDirectories [StackRoom] {t made : FileTree} {p : Path}
    (h : t.makeDirectories p = (made, .ok ())) :
    ∃ place, made.follow (origin p) p.names = .directory place := by
  rcases t.makeDirectories_cases p with ⟨_, -, hmade⟩ | ⟨-, -, hmade⟩ | ⟨-, -, -, hmade⟩ |
    ⟨-, -, -, hmade⟩
  · rw [hmade] at h
    cases h
  · rw [hmade] at h
    cases h
  · rw [hmade] at h
    cases h
  · rw [hmade] at h
    obtain ⟨rfl, hdone⟩ := Prod.mk.inj h
    split at hdone
    · rename_i hall
      exact follow_makeFrom hall
    · cases hdone

/-- Making directories goes some of the way. -/
theorem exists_makeDirectoriesUpTo [StackRoom] (t : FileTree) (p : Path) (limit : Option Nat) :
    ∃ n, (t.makeDirectoriesUpTo p limit).1 = (t.makeFrom (origin p) (p.names.take n)).1 := by
  have hnothing : ∃ n, t = (t.makeFrom (origin p) (p.names.take n)).1 := ⟨0, rfl⟩
  have hall : ∃ n, (t.makeFrom (origin p) p.names).1 =
      (t.makeFrom (origin p) (p.names.take n)).1 :=
    ⟨p.names.length, by rw [List.take_length]⟩
  cases limit with
  | none =>
    show ∃ n, (t.makeDirectories p).1 = _
    rcases t.makeDirectories_cases p with ⟨_, -, hmade⟩ | ⟨-, -, hmade⟩ | ⟨-, -, -, hmade⟩ |
      ⟨-, -, -, hmade⟩
    · rw [hmade]
      exact hnothing
    · rw [hmade]
      exact hnothing
    · rw [hmade]
      exact hnothing
    · rw [hmade]
      exact hall
  | some n =>
    unfold makeDirectoriesUpTo
    dsimp only
    split
    · exact hnothing
    · split
      · exact hnothing
      · split
        · exact hnothing
        · exact ⟨n, rfl⟩

/-- Going any of the way to a path makes directories that were missing on it, and nothing else. It
    makes none where the path leads somewhere. -/
structure OnlyMakesWay (t t' : FileTree) (p : Path) : Prop where
  nodes : t.OnlyAddsDirectories t'
  way : ∃ n, t' = (t.makeFrom (origin p) (p.names.dropLast.take n)).1
  same : t.follow (origin p) p.names ≠ .unreachable → t' = t

theorem onlyMakesWay_makeFrom (t : FileTree) (p : Path) (n : Nat) :
    t.OnlyMakesWay (t.makeFrom (origin p) (p.names.dropLast.take n)).1 p :=
  ⟨onlyAddsDirectories_makeFrom t _ _, ⟨n, rfl⟩, fun h => makeFrom_take_of_follow h n⟩

theorem onlyMakesWay_madeAbove [StackRoom] (t : FileTree) (p : Path) :
    t.OnlyMakesWay (t.madeAbove p) p := by
  have hall := t.onlyMakesWay_makeFrom p p.names.dropLast.length
  rw [List.take_length] at hall
  rcases t.madeAbove_cases p with hsame | hmade
  · rw [hsame]
    exact t.onlyMakesWay_makeFrom p 0
  · rw [hmade]
    exact hall

/-! ## Temporary files -/

/-- A file that was put where nothing was is unlinked without a trace. -/
theorem unlink_put {t : FileTree} {place : Place} (h : t.node? place = none) (node : Node) :
    (t.put place node).unlink place = t := by
  rw [put, unlink, Keyed.erase_set node h]

theorem node?_of_freePlace? {t : FileTree} {p : Path} {name : Text} {place : Place}
    (h : t.freePlace? p name = some place) : t.node? place = none := by
  unfold freePlace? at h
  split at h
  · split at h
    · rename_i d _ hfree
      rw [← Option.some.inj h]
      exact Option.isNone_iff_eq_none.mp hfree
    · cases h
  · cases h

/-- Nothing has a name in the directory that a path leads to. -/
def IsFree (t : FileTree) (p : Path) (name : Text) : Prop :=
  ∀ d, t.follow (origin p) p.names = .directory d → t.node? (d ++ [name]) = none

theorem freePlace?_of_isFree {t : FileTree} {p : Path} {name : Text} {d : Place}
    (h : t.IsFree p name) (hd : t.follow (origin p) p.names = .directory d) :
    t.freePlace? p name = some (d ++ [name]) := by
  unfold freePlace?
  rw [hd]
  dsimp only
  rw [h d hd]
  rfl

end FileTree

namespace Store

open FileTree

/-! ## Replacements that fail -/

theorem node?_of_createTemporary {s : Store} {refused : Refusals} {name : Text} {files : FileTree}
    {place : Place} (h : s.createTemporary refused name files = .ok place) :
    files.node? place = none := by
  unfold createTemporary at h
  split at h
  · cases h
  · split at h
    · cases h
    · split at h
      · rename_i free hfree
        obtain rfl := Except.ok.inj h
        exact node?_of_freePlace? hfree
      · cases h

/-- A temporary file that was filled or moved in vain is all that has to be taken away. -/
theorem unlink_of_fillAndMove {s : Store} {refused : Refusals} {files left : FileTree}
    {temporary : Place} {content : Bytes} {reason : FileFailure}
    (hfree : files.node? temporary = none)
    (h : s.fillAndMove refused (files.put temporary (.file [])) temporary content =
      (left, .error reason)) : left.unlink temporary = files := by
  have hgone : ∀ node, ((files.put temporary (.file [])).put temporary node).unlink temporary =
      files := by
    intro node
    rw [put_put, unlink_put hfree]
  unfold fillAndMove at h
  split at h
  · obtain ⟨rfl, -⟩ := Prod.mk.inj h
    exact hgone _
  · dsimp only at h
    split at h
    · obtain ⟨rfl, -⟩ := Prod.mk.inj h
      exact hgone _
    · split at h
      · cases h
      · obtain ⟨rfl, -⟩ := Prod.mk.inj h
        exact hgone _

/-- A replacement that failed made directories on the way to the log, and left nothing else. -/
theorem replaceBySteps_error [StackRoom] {s : Store} {refused : Refusals} {name : Text}
    {files left : FileTree} {content : Bytes} {reason : FileFailure}
    (h : s.replaceBySteps refused name files content = (left, .error reason)) :
    ∃ n, left = (files.makeFrom (origin s.path) (s.path.names.dropLast.take n)).1 := by
  obtain ⟨n, hn⟩ := files.exists_makeDirectoriesUpTo s.path.parent refused.directories
  refine ⟨n, Eq.trans ?_ hn⟩
  unfold replaceBySteps at h
  split at h
  · rename_i made _ hmade
    rw [hmade]
    exact (congrArg Prod.fst h).symm
  · rename_i made hmade
    rw [hmade]
    split at h
    · exact (congrArg Prod.fst h).symm
    · rename_i temporary hcreated
      split at h
      · rename_i left' other hfilled
        rw [← unlink_of_fillAndMove (node?_of_createTemporary hcreated) hfilled]
        exact (congrArg Prod.fst h).symm
      · cases h

/-- Without refusals, and with a name that is free, the steps come to what replacing comes to. -/
theorem replaceBySteps_none [StackRoom] {s : Store} {files : FileTree} {name : Text}
    (hfree : (files.madeAbove s.path).IsFree s.path.parent name) (content : Bytes) :
    s.replaceBySteps .none name files content = s.replaceLog files content := by
  have hmakes : files.makeDirectoriesUpTo s.path.parent Refusals.none.directories =
      files.makeDirectories s.path.parent := rfl
  unfold replaceBySteps replaceLog
  rw [hmakes]
  rcases hmade : files.makeDirectories s.path.parent with ⟨made, reason | done⟩
  · rfl
  · have habove : files.madeAbove s.path = made := congrArg Prod.fst hmade
    obtain ⟨d, hd⟩ := follow_of_makeDirectories hmade
    rw [habove] at hfree
    have hplace := freePlace?_of_isFree hfree hd
    have hnode := hfree d hd
    dsimp only
    unfold createTemporary
    cases (s.temporaryPath made).fault? with
    | some fault => rfl
    | none =>
      simp only [Refusals.none, Bool.false_or]
      by_cases hlong : (isNameTooLong (temporaryName s.path.name) ||
        (s.temporaryPath made).isTooLong) = true
      · rw [if_pos hlong, if_pos hlong]
      · rw [if_neg hlong, if_neg hlong, hplace]
        simp only [fillAndMove, moveFile, put_put, node?_put, if_pos, unlink_put hnode]
        cases made.write s.path content with
        | ok replaced => rfl
        | error reason => simp [unlink_put hnode]

/-! ## Compactions that fail -/

/-- What a failed compaction leaves behind: the store, all that was among the files, and nothing new
    but directories that were missing on the way to the log. -/
structure LeavesAlone (s : Store) (files : FileTree) (o : Outcome Bool) : Prop where
  store : o.store = s
  silent : o.trace.messages = []
  nodes : files.OnlyAddsDirectories o.files
  way : ∃ n, o.files = (files.makeFrom (origin s.path) (s.path.names.dropLast.take n)).1
  same : files.follow (origin s.path) s.path.names ≠ .unreachable → o.files = files

/-- A compaction leaves all alone when its replacement failed, having made directories at most. -/
theorem leavesAlone_compacted {s : Store} {files : FileTree} {kept : List Event}
    {replaced : FileTree × Except FileFailure Unit}
    (hway : ∀ reason, replaced.2 = .error reason →
      ∃ n, replaced.1 = (files.makeFrom (origin s.path) (s.path.names.dropLast.take n)).1)
    (h : (s.compacted kept replaced).result = false) :
    s.LeavesAlone files (s.compacted kept replaced) := by
  rcases replaced with ⟨left, reason | done⟩
  · obtain ⟨n, hn⟩ := hway reason rfl
    obtain rfl : left = _ := hn
    have hway := files.onlyMakesWay_makeFrom s.path n
    exact ⟨rfl, rfl, hway.nodes, hway.way, hway.same⟩
  · cases h

/-- Replacing at once fails as the steps do that no refusal stops. -/
theorem replaceLog_error [StackRoom] {s : Store} {files : FileTree} {content : Bytes}
    {reason : FileFailure} (h : (s.replaceLog files content).2 = .error reason) :
    ∃ n, (s.replaceLog files content).1 =
      (files.makeFrom (origin s.path) (s.path.names.dropLast.take n)).1 := by
  rcases s.replaceLog_spec files content with ⟨_, hdone, -⟩ | ⟨other, hfailed⟩
  · rw [hdone] at h
    cases h
  · rw [hfailed]
    exact (files.onlyMakesWay_madeAbove s.path).way

/-- A compaction that fails leaves all alone, and so does each that takes the steps one by one,
    whatever the system refuses. With nothing refused these are the same compaction. -/
theorem failed_compaction_keeps [StackRoom] (s : Store) (files : FileTree) :
    ((s.compact files).result = false → s.LeavesAlone files (s.compact files)) ∧
      ∀ refused name,
        ((s.compactBySteps refused name files).result = false →
          s.LeavesAlone files (s.compactBySteps refused name files)) ∧
        ((files.madeAbove s.path).IsFree s.path.parent name →
          s.compactBySteps .none name files = s.compact files) := by
  refine ⟨leavesAlone_compacted fun _ => replaceLog_error, fun refused name => ⟨?_, ?_⟩⟩
  · refine leavesAlone_compacted fun reason hfailed => ?_
    have hpair : s.replaceBySteps refused name files (Log.ofEvents s.kept) =
        ((s.replaceBySteps refused name files (Log.ofEvents s.kept)).1, .error reason) :=
      Prod.ext rfl hfailed
    exact replaceBySteps_error hpair
  · intro hfree
    exact congrArg (s.compacted s.kept) (replaceBySteps_none hfree _)

/-- A disk on which one byte of the new log still fits. -/
def fullDisk : Refusals := { Refusals.none with filling := some 1 }

/-- A log whose own name the system takes, but not the longer one of the temporary file. -/
def crampedStore : Store :=
  Store.new ⟨.workingDirectory, [text "new", List.replicate 250 (CodePoint.ofChar 'x')]⟩ 9 2 true

/-- Where the disk is full the log stays, and the temporary file that was begun is gone. Where no
    temporary file can be made the store stays, and no message is sent. -/
theorem failed_compaction_keeps_fullDisk :
    let after := tiedRun.store.compactBySteps fullDisk (text ".log.tmp") tiedRun.files
    after.result = false ∧
      tiedRun.files.follow (origin tiedRun.store.path) tiedRun.store.path.names ≠ .unreachable ∧
      (tiedRun.files.madeAbove tiedRun.store.path).IsFree tiedRun.store.path.parent
        (text ".log.tmp") ∧
      after.store = tiedRun.store ∧ after.files = tiedRun.files ∧
      tiedRun.store.compactBySteps .none (text ".log.tmp") tiedRun.files =
        tiedRun.store.compact tiedRun.files ∧
      (crampedStore.compact (.empty ⟨.slash, []⟩)).result = false ∧
      (crampedStore.compact (.empty ⟨.slash, []⟩)).store = crampedStore ∧
      (crampedStore.compact (.empty ⟨.slash, []⟩)).trace.messages = [] := by
  intro after
  have hfailed : after.result = false := by decide +kernel
  have hreached : tiedRun.files.follow (origin tiedRun.store.path) tiedRun.store.path.names ≠
      .unreachable := by
    decide +kernel
  have hfree : (tiedRun.files.madeAbove tiedRun.store.path).IsFree tiedRun.store.path.parent
      (text ".log.tmp") := by
    intro d hd
    have hhere : (tiedRun.files.madeAbove tiedRun.store.path).follow
        (origin tiedRun.store.path.parent) tiedRun.store.path.parent.names = .directory [] := by
      decide +kernel
    rw [hhere] at hd
    cases hd
    decide +kernel
  obtain ⟨-, hsteps⟩ := failed_compaction_keeps tiedRun.store tiedRun.files
  obtain ⟨hkeeps, -⟩ := hsteps fullDisk (text ".log.tmp")
  obtain ⟨-, hagree⟩ := hsteps .none (text ".log.tmp")
  have halone := hkeeps hfailed
  have hcramped : (crampedStore.compact (.empty ⟨.slash, []⟩)).result = false := by
    decide +kernel
  obtain ⟨hkeepsAtOnce, -⟩ := failed_compaction_keeps crampedStore (.empty ⟨.slash, []⟩)
  exact ⟨hfailed, hreached, hfree, halone.store, halone.same hreached, hagree hfree, hcramped,
    (hkeepsAtOnce hcramped).store, (hkeepsAtOnce hcramped).silent⟩

/-- A compaction that fails after its first step: the directory it made is left. -/
theorem failed_compaction_adds :
    (crampedStore.compact (.empty ⟨.slash, []⟩)).result = false ∧
      (FileTree.empty ⟨.slash, []⟩).node? [text "new"] = none ∧
      (crampedStore.compact (.empty ⟨.slash, []⟩)).files.node? [text "new"] = some .directory := by
  decide +kernel

end Store

end WindowLayouts
