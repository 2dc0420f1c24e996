import WindowLayouts.Proofs.Quoting

/- What the reader of JSON keeps while it goes through a text. An error stays to the end. And no
   text that is read has a surrogate pair in it, as long as no surrogate stands in the line itself:
   every surrogate was then written as a number, and such pairs are joined.

     `Json.Machine.run_failed`    the first error stays
     `Json.Value.NoPairs`         a value whose texts have no surrogate pair
     `Json.read_noPairs`          what is read has none -/
namespace WindowLayouts.Json

/-! ## Errors stay -/

theorem Place.scalar_failed {p : Place} {reason : ReadError} (h : p.phase = .failed reason)
    (v : Value) : (p.scalar v).phase = .failed reason := by
  rw [Place.scalar, h]
  rfl

theorem Place.string_failed {p : Place} {reason : ReadError} (h : p.phase = .failed reason)
    (t : Text) : (p.string t).phase = .failed reason := by
  rw [Place.string, h]
  exact Place.scalar_failed h _

theorem Place.bare_failed {p : Place} {reason : ReadError} (h : p.phase = .failed reason)
    (t : Text) : (p.bare t).phase = .failed reason := by
  rw [Place.bare, h]
  rfl

theorem Place.mark_failed [StackRoom] {p : Place} {reason : ReadError}
    (h : p.phase = .failed reason) (m : Mark) : (p.mark m).phase = .failed reason := by
  obtain ⟨phase, stack⟩ := p
  obtain rfl : phase = .failed reason := h
  rfl

theorem Machine.malformed_failed {p : Place} {reason : ReadError} (h : p.phase = .failed reason) :
    (malformed p).place.phase = .failed reason := by
  rw [malformed, h]
  rfl

theorem Machine.stepBetween_failed [StackRoom] {p : Place} {reason : ReadError}
    (h : p.phase = .failed reason)
    (c : CodePoint) : (stepBetween p c).place.phase = .failed reason := by
  unfold stepBetween
  split
  · exact h
  · split
    · exact h
    · split
      · exact Place.mark_failed h _
      · exact h

theorem Machine.step_failed [StackRoom] {m : Machine} {reason : ReadError}
    (h : m.place.phase = .failed reason)
    (c : CodePoint) : (m.step c).place.phase = .failed reason := by
  unfold step
  split
  · exact stepBetween_failed h c
  · split
    · exact stepBetween_failed (Place.bare_failed h _) c
    · exact h
  · split
    · exact Place.string_failed h _
    · split
      · exact h
      · split
        · exact malformed_failed h
        · exact h
  · split
    · exact h
    · split
      · exact h
      · exact malformed_failed h
  · split
    · exact malformed_failed h
    · dsimp only
      split <;> exact h

theorem Machine.run_failed [StackRoom] {m : Machine} {reason : ReadError}
    (h : m.place.phase = .failed reason) (t : Text) : (m.run t).place.phase = .failed reason := by
  induction t generalizing m with
  | nil => exact h
  | cons c rest ih => exact ih (step_failed h c)

theorem Machine.finish_failed {m : Machine} {reason : ReadError}
    (h : m.place.phase = .failed reason) : m.finish.phase = .failed reason := by
  unfold finish
  split
  · exact h
  · exact Place.bare_failed h _
  · exact malformed_failed h

/-! ## Texts without surrogate pairs -/

/-- Members whose texts have no surrogate pair. -/
def MembersNoPairs (members : List (Text × Value)) : Prop :=
  ∀ m ∈ members, ∀ t, m.2 = .string t → t.hasPair = false

/-- A value whose texts have no surrogate pair. Texts deeper inside it do not count. -/
def Value.NoPairs : Value → Prop
  | .string t => t.hasPair = false
  | .object members => MembersNoPairs members
  | _ => True

/-- An open object whose texts so far have no surrogate pair. -/
def Frame.NoPairs : Frame → Prop
  | .array _ => True
  | .object members _ => MembersNoPairs members

/-- A phase whose texts so far have no surrogate pair. -/
def Phase.NoPairs : Phase → Prop
  | .key members => MembersNoPairs members
  | .colon members _ => MembersNoPairs members
  | .afterMember members => MembersNoPairs members
  | .done v => v.NoPairs
  | _ => True

/-- A place whose texts so far have no surrogate pair. -/
structure Place.NoPairs (p : Place) : Prop where
  phase : p.phase.NoPairs
  stack : ∀ f ∈ p.stack, f.NoPairs

/-- What is being collected was written as numbers as far as it is surrogates. -/
def Scanner.Numbered : Scanner → Prop
  | .string pieces => SurrogatesNumbered pieces
  | .escape pieces => SurrogatesNumbered pieces
  | .numbered pieces _ _ => SurrogatesNumbered pieces
  | _ => True

/-- What holds of the reader all along a text without surrogates. -/
structure Machine.NoPairs (m : Machine) : Prop where
  scanner : m.scanner.Numbered
  place : m.place.NoPairs

theorem membersNoPairs_nil : MembersNoPairs [] := fun _ hm => nomatch hm

theorem MembersNoPairs.cons {members : List (Text × Value)} {key : Text} {v : Value}
    (hv : v.NoPairs) (h : MembersNoPairs members) : MembersNoPairs ((key, v) :: members) := by
  intro m hm t ht
  rcases List.mem_cons.mp hm with rfl | hm
  · rw [show v = .string t from ht] at hv
    exact hv
  · exact h m hm t ht

theorem MembersNoPairs.reverse {members : List (Text × Value)} (h : MembersNoPairs members) :
    MembersNoPairs members.reverse :=
  fun m hm => h m (List.mem_reverse.mp hm)

theorem noPairs_readNumber {t : Text} {v : Value} (h : readNumber t = .ok v) : v.NoPairs := by
  unfold readNumber at h
  dsimp only at h
  split at h
  · cases h
  · split at h
    · cases hi : readInteger _ _ with
      | error reason => rw [hi] at h; cases h
      | ok i =>
        rw [hi] at h
        simp only [bind, Except.bind] at h
        split at h
        · obtain rfl := Except.ok.inj h
          trivial
        · cases h
    · split at h
      · obtain rfl := Except.ok.inj h
        trivial
      · cases h

theorem noPairs_readScalar {t : Text} {v : Value} (h : readScalar t = .ok v) : v.NoPairs := by
  unfold readScalar at h
  repeat' split at h
  all_goals first
    | exact noPairs_readNumber h
    | (obtain rfl := Except.ok.inj h
       trivial)

namespace Place

theorem noPairs_fail (reason : ReadError) : (fail reason).NoPairs :=
  ⟨trivial, fun _ hf => nomatch hf⟩

theorem noPairs_complete {v : Value} {stack : List Frame} (hv : v.NoPairs)
    (hs : ∀ f ∈ stack, f.NoPairs) : (complete v stack).NoPairs := by
  match stack, hs with
  | [], _ => exact ⟨hv, fun _ hf => nomatch hf⟩
  | .array items :: rest, hs => exact ⟨trivial, fun f hf => hs f (List.mem_cons_of_mem _ hf)⟩
  | .object members key :: rest, hs =>
    have hmembers : MembersNoPairs members := hs _ List.mem_cons_self
    exact ⟨hmembers.cons hv, fun f hf => hs f (List.mem_cons_of_mem _ hf)⟩

theorem noPairs_array_cons {p : Place} (h : p.NoPairs) :
    ∀ f ∈ Frame.array [] :: p.stack, f.NoPairs := by
  intro f hf
  rcases List.mem_cons.mp hf with rfl | hf
  · trivial
  · exact h.stack f hf

theorem NoPairs.scalar {p : Place} (h : p.NoPairs) {v : Value} (hv : v.NoPairs) :
    (p.scalar v).NoPairs := by
  unfold Place.scalar
  split
  · exact noPairs_complete hv h.stack
  · exact noPairs_complete hv (noPairs_array_cons h)
  · exact noPairs_fail _
  · exact noPairs_fail _

theorem NoPairs.string {p : Place} (h : p.NoPairs) {t : Text} (ht : t.hasPair = false) :
    (p.string t).NoPairs := by
  unfold Place.string
  split
  · exact ⟨membersNoPairs_nil, h.stack⟩
  · rename_i members hphase
    have hmembers := h.phase
    rw [hphase] at hmembers
    exact ⟨hmembers, h.stack⟩
  · exact h.scalar ht

theorem NoPairs.bare {p : Place} (h : p.NoPairs) (t : Text) : (p.bare t).NoPairs := by
  unfold Place.bare
  split
  · split
    · rename_i v hv
      exact h.scalar (noPairs_readScalar hv)
    · exact noPairs_fail _
  · split
    · rename_i v hv
      exact h.scalar (noPairs_readScalar hv)
    · exact noPairs_fail _
  · exact noPairs_fail _
  · exact noPairs_fail _

theorem noPairs_inside [StackRoom] (container : Container) {around : List Frame}
    (h : ∀ f ∈ around, f.NoPairs) : (inside container around).NoPairs := by
  unfold inside
  split
  · cases container <;> exact ⟨trivial, h⟩
  · exact noPairs_fail _

theorem NoPairs.mark [StackRoom] {p : Place} (h : p.NoPairs) (m : Mark) : (p.mark m).NoPairs := by
  have hphase := h.phase
  unfold Place.mark
  split
  · exact noPairs_fail _
  · exact noPairs_inside _ h.stack
  · exact noPairs_inside _ h.stack
  · exact noPairs_inside _ (noPairs_array_cons h)
  · exact noPairs_inside _ (noPairs_array_cons h)
  · exact noPairs_complete trivial h.stack
  · exact noPairs_complete membersNoPairs_nil h.stack
  · rename_i members key heq
    rw [heq] at hphase
    refine ⟨trivial, fun f hf => ?_⟩
    rcases List.mem_cons.mp hf with rfl | hf
    · exact hphase
    · exact h.stack f hf
  · refine ⟨trivial, fun f hf => ?_⟩
    rcases List.mem_cons.mp hf with rfl | hf
    · trivial
    · exact h.stack f hf
  · exact noPairs_complete trivial h.stack
  · rename_i members heq
    rw [heq] at hphase
    exact ⟨hphase, h.stack⟩
  · rename_i members heq
    rw [heq] at hphase
    exact noPairs_complete (v := .object members.reverse) hphase.reverse h.stack
  · exact noPairs_fail _

end Place

namespace Machine

theorem noPairs_start : start.NoPairs := ⟨trivial, ⟨trivial, fun _ hf => nomatch hf⟩⟩

theorem noPairs_malformed (p : Place) : (malformed p).NoPairs := by
  unfold malformed
  split
  · exact ⟨trivial, Place.noPairs_fail _⟩
  · exact ⟨trivial, Place.noPairs_fail _⟩

theorem noPairs_stepBetween [StackRoom] {p : Place} (h : p.NoPairs) (c : CodePoint) :
    (stepBetween p c).NoPairs := by
  unfold stepBetween
  split
  · exact ⟨trivial, h⟩
  · split
    · exact ⟨fun _ hp => (nomatch hp), h⟩
    · split
      · exact ⟨trivial, h.mark _⟩
      · exact ⟨trivial, h⟩

theorem surrogatesNumbered_cons {piece : Piece} {pieces : List Piece}
    (hp : piece.point.isSurrogate = true → piece.numbered = true) (h : SurrogatesNumbered pieces) :
    SurrogatesNumbered (piece :: pieces) := by
  intro other ho hs
  rcases List.mem_cons.mp ho with rfl | ho
  · exact hp hs
  · exact h other ho hs

theorem isSurrogate_escaped? {c e : CodePoint} (h : escaped? c = some e) :
    e.isSurrogate = false := by
  unfold escaped? at h
  split at h
  all_goals first
    | (obtain rfl := Option.some.inj h
       rfl)
    | cases h

theorem NoPairs.step [StackRoom] {m : Machine} (h : m.NoPairs) {c : CodePoint}
    (hc : c.isSurrogate = false) :
    (m.step c).NoPairs := by
  obtain ⟨scanner, place⟩ := m
  obtain ⟨hscanner, hplace⟩ := h
  have hraw : ∀ {d : CodePoint}, d.isSurrogate = false → d.isSurrogate = true → false = true := by
    intro d hd hs
    rw [hd] at hs
    exact hs
  cases scanner with
  | between => exact noPairs_stepBetween hplace c
  | bare points =>
    simp only [Machine.step]
    split
    · exact noPairs_stepBetween (hplace.bare _) c
    · exact ⟨trivial, hplace⟩
  | string pieces =>
    have hpieces : SurrogatesNumbered pieces := hscanner
    simp only [Machine.step]
    split
    · exact ⟨trivial, hplace.string (hasPair_joinPieces fun piece hp =>
        hpieces piece (List.mem_reverse.mp hp))⟩
    · split
      · exact ⟨hpieces, hplace⟩
      · split
        · exact noPairs_malformed _
        · exact ⟨surrogatesNumbered_cons (hraw hc) hpieces, hplace⟩
  | escape pieces =>
    have hpieces : SurrogatesNumbered pieces := hscanner
    simp only [Machine.step]
    split
    · exact ⟨hpieces, hplace⟩
    · split
      · rename_i e he
        exact ⟨surrogatesNumbered_cons (hraw (isSurrogate_escaped? he)) hpieces, hplace⟩
      · exact noPairs_malformed _
  | numbered pieces left value =>
    have hpieces : SurrogatesNumbered pieces := hscanner
    simp only [Machine.step]
    split
    · exact noPairs_malformed _
    · split
      · exact ⟨hpieces, hplace⟩
      · exact ⟨surrogatesNumbered_cons (fun _ => rfl) hpieces, hplace⟩

theorem NoPairs.run [StackRoom] {m : Machine} (h : m.NoPairs) {t : Text}
    (ht : ∀ c ∈ t, c.isSurrogate = false) : (m.run t).NoPairs := by
  induction t generalizing m with
  | nil => exact h
  | cons c rest ih =>
    exact ih (h.step (ht c List.mem_cons_self)) fun d hd => ht d (List.mem_cons_of_mem c hd)

theorem NoPairs.finish {m : Machine} (h : m.NoPairs) : m.finish.NoPairs := by
  unfold Machine.finish
  split
  · exact h.place
  · exact h.place.bare _
  · exact (noPairs_malformed _).place

end Machine

/-- What is read of a text without surrogates has no surrogate pair. -/
theorem read_noPairs [StackRoom] {t : Text} {v : Value} (ht : ∀ c ∈ t, c.isSurrogate = false)
    (h : read t = .ok v) : v.NoPairs := by
  have hphase := ((Machine.noPairs_start.run ht).finish).phase
  unfold read at h
  split at h
  · rename_i heq
    obtain rfl := Except.ok.inj h
    rw [heq] at hphase
    exact hphase
  · cases h
  · cases h

end WindowLayouts.Json
