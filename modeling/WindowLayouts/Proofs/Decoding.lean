import WindowLayouts.Text.Utf8

/- Decoding bytes. ASCII bytes are decoded to themselves, and no text that was decoded has a
   surrogate in it.

     `Utf8.decode?_ascii`        ASCII text comes back from its bytes
     `Utf8.decode?_surrogate`    a text that was decoded has no surrogate -/
namespace WindowLayouts

/-- A code point of ASCII as a byte; higher bits are dropped. -/
def CodePoint.toByte (c : CodePoint) : UInt8 := UInt8.ofNat c.val

theorem CodePoint.toNat_toByte {c : CodePoint} (h : c.val < 0x80) : c.toByte.toNat = c.val := by
  rw [CodePoint.toByte, UInt8.toNat_ofNat']
  exact Nat.mod_eq_of_lt (by omega)

namespace Utf8

theorem scalar?_val {c : CodePoint} (h : c.val < 0x80) : scalar? c.val = some c := by
  have hsurrogate : ¬ (0xD800 ≤ c.val && c.val ≤ 0xDFFF) = true := by
    simp only [Bool.and_eq_true, decide_eq_true_eq]
    omega
  rw [scalar?, dif_pos c.isLt, if_neg hsurrogate]

theorem decodeFrom_ascii {t : Text} (h : ∀ c ∈ t, c.val < 0x80) (done : Text) :
    decodeFrom done (t.map CodePoint.toByte) = some (done.reverse ++ t) := by
  induction t generalizing done with
  | nil => simp [decodeFrom]
  | cons c rest ih =>
    have hc := h c List.mem_cons_self
    have hbyte := CodePoint.toNat_toByte hc
    have hrest := ih (fun d hd => h d (List.mem_cons_of_mem c hd)) (c :: done)
    rw [List.map_cons]
    unfold decodeFrom
    rw [hbyte, if_pos hc, scalar?_val hc, Option.bind_some, hrest, List.reverse_cons,
      List.append_assoc, List.singleton_append]

theorem decode?_ascii {t : Text} (h : ∀ c ∈ t, c.val < 0x80) :
    decode? (t.map CodePoint.toByte) = some t := by
  rw [decode?, decodeFrom_ascii h, List.reverse_nil, List.nil_append]

theorem scalar?_surrogate {n : Nat} {c : CodePoint} (h : scalar? n = some c) :
    c.isSurrogate = false := by
  unfold scalar? at h
  split at h
  · split at h
    · cases h
    · rename_i hn
      obtain rfl := Option.some.inj h
      exact Bool.not_eq_true _ ▸ hn
  · cases h

theorem fromTwo?_surrogate {a b : UInt8} {p : CodePoint} (h : fromTwo? a b = some p) :
    p.isSurrogate = false := by
  unfold fromTwo? at h
  split at h
  · exact scalar?_surrogate h
  · cases h

theorem fromThree?_surrogate {a b c : UInt8} {p : CodePoint} (h : fromThree? a b c = some p) :
    p.isSurrogate = false := by
  unfold fromThree? at h
  dsimp only at h
  split at h
  · exact scalar?_surrogate h
  · cases h

theorem fromFour?_surrogate {a b c d : UInt8} {p : CodePoint} (h : fromFour? a b c d = some p) :
    p.isSurrogate = false := by
  unfold fromFour? at h
  dsimp only at h
  split at h
  · exact scalar?_surrogate h
  · cases h

/-- No code point of a text is a surrogate. -/
def NoSurrogate (t : Text) : Prop := ∀ c ∈ t, c.isSurrogate = false

theorem NoSurrogate.cons {p : CodePoint} {t : Text} (hp : p.isSurrogate = false)
    (ht : NoSurrogate t) : NoSurrogate (p :: t) := by
  intro c hc
  rcases List.mem_cons.mp hc with rfl | hc
  · exact hp
  · exact ht c hc

theorem decodeFrom_surrogate {done : Text} {bytes : Bytes} {t : Text}
    (h : decodeFrom done bytes = some t) (hdone : NoSurrogate done) : NoSurrogate t := by
  fun_induction decodeFrom done bytes with
  | case1 done =>
    obtain rfl := Option.some.inj h
    exact fun c hc => hdone c (List.mem_reverse.mp hc)
  | case2 done a rest hn ih =>
    obtain ⟨p, hp, hrest⟩ := Option.bind_eq_some_iff.mp h
    exact ih p hrest (hdone.cons (scalar?_surrogate hp))
  | case3 => cases h
  | case4 done a ha hb hc b rest ih =>
    obtain ⟨p, hp, hrest⟩ := Option.bind_eq_some_iff.mp h
    exact ih p hrest (hdone.cons (fromTwo?_surrogate hp))
  | case5 => cases h
  | case6 done a ha hb hc hd b c rest ih =>
    obtain ⟨p, hp, hrest⟩ := Option.bind_eq_some_iff.mp h
    exact ih p hrest (hdone.cons (fromThree?_surrogate hp))
  | case7 => cases h
  | case8 done a ha hb hc hd he b c d rest ih =>
    obtain ⟨p, hp, hrest⟩ := Option.bind_eq_some_iff.mp h
    exact ih p hrest (hdone.cons (fromFour?_surrogate hp))
  | case9 => cases h
  | case10 => cases h

theorem decode?_surrogate {bytes : Bytes} {t : Text} (h : decode? bytes = some t) :
    NoSurrogate t :=
  decodeFrom_surrogate h fun _ hc => nomatch hc

end Utf8

end WindowLayouts
