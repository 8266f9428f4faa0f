/-
Where characters begin in the bytes of a text.

A byte that goes on with a character can be told from one that begins it, so the boundaries of characters
show in the bytes themselves: they are the lengths of the beginnings of the text. Going back from any
position, byte by byte, ends at one of them, and what stands before it is the longest beginning of the text
that fits.
-/
import ModemLink.Proofs.Text.Fitting
import ModemLink.Proofs.Text.Utf8

set_option autoImplicit false

namespace ModemLink.Utf8

open ModemLink

/-! ## Boundaries -/

/-- Whether a byte goes on with a character that an earlier byte began. -/
def isContinuation (b : UInt8) : Bool := 0x80 ≤ b.toNat && b.toNat < 0xC0

/-- **A boundary of characters:** the start, the end, or a byte that begins a character. -/
def isBoundary (bytes : Bytes) (i : Nat) : Bool :=
  i == 0 ||
    match bytes[i]? with
    | some b => !isContinuation b
    | none => i == bytes.length

/-- Goes back from a position, one byte at a time, to a boundary. Below zero there is none. -/
def boundaryBefore? (bytes : Bytes) : Nat → Option Nat
  | 0 => if isBoundary bytes 0 then some 0 else none
  | i + 1 => if isBoundary bytes (i + 1) then some (i + 1) else boundaryBefore? bytes i

/-! ## One character -/

/-- **The bytes of a character:** one that begins it, and any others go on with it. -/
theorem exists_encodeChar (c : Char) :
    ∃ b more, String.utf8EncodeChar c = b :: more ∧ isContinuation b = false
      ∧ ∀ x ∈ more, isContinuation x = true := by
  have hvalid : c.val.toNat < 0xD800 ∨ 0xDFFF < c.val.toNat ∧ c.val.toNat < 0x110000 := c.valid
  have hfirst {n : Nat} (hn : n < 0x80 ∨ 0xC0 ≤ n ∧ n < 256) :
      isContinuation (UInt8.ofNat n) = false := by
    unfold isContinuation
    rw [toNat_byte (by omega)]
    simp only [Bool.and_eq_false_iff, decide_eq_false_iff_not]
    omega
  have hmore {n : Nat} (hlow : 0x80 ≤ n) (hhigh : n < 0xC0) :
      isContinuation (UInt8.ofNat n) = true := by
    unfold isContinuation
    rw [toNat_byte (by omega)]
    simp only [Bool.and_eq_true, decide_eq_true_eq]
    exact ⟨hlow, hhigh⟩
  unfold String.utf8EncodeChar
  generalize c.val.toNat = v at hvalid
  by_cases h1 : v ≤ 0x7F
  · rw [if_pos h1]
    exact ⟨_, _, rfl, hfirst (by omega), nofun⟩
  by_cases h2 : v ≤ 0x7FF
  · rw [if_neg h1, if_pos h2]
    refine ⟨_, _, rfl, hfirst (by omega), fun x hx => ?_⟩
    rw [List.mem_singleton.mp hx]
    exact hmore (by omega) (by omega)
  by_cases h3 : v ≤ 0xFFFF
  · rw [if_neg h1, if_neg h2, if_pos h3]
    refine ⟨_, _, rfl, hfirst (by omega), fun x hx => ?_⟩
    simp only [List.mem_cons, List.not_mem_nil, or_false] at hx
    rcases hx with rfl | rfl <;> exact hmore (by omega) (by omega)
  · rw [if_neg h1, if_neg h2, if_neg h3]
    refine ⟨_, _, rfl, hfirst (by omega), fun x hx => ?_⟩
    simp only [List.mem_cons, List.not_mem_nil, or_false] at hx
    rcases hx with rfl | rfl | rfl <;> exact hmore (by omega) (by omega)

/-- Inside a character there is no boundary. -/
theorem isBoundary_inside {c : Char} {i : Nat} (hpos : i ≠ 0)
    (hi : i < (String.utf8EncodeChar c).length) (rest : Bytes) :
    isBoundary (String.utf8EncodeChar c ++ rest) i = false := by
  obtain ⟨b, more, hc, -, hmore⟩ := exists_encodeChar c
  obtain ⟨j, rfl⟩ := Nat.exists_eq_succ_of_ne_zero hpos
  rw [hc, List.length_cons] at hi
  have hj : j < more.length := Nat.lt_of_succ_lt_succ hi
  have hbyte : (String.utf8EncodeChar c ++ rest)[j + 1]? = some more[j] := by
    rw [hc, List.cons_append, List.getElem?_cons_succ, List.getElem?_append_left hj,
      List.getElem?_eq_getElem hj]
  unfold isBoundary
  rw [hbyte]
  simp only [hmore _ (List.getElem_mem hj)]
  rfl

/-- Behind a character the boundaries are those of what follows. -/
theorem isBoundary_behind (front rest : Bytes) (i : Nat)
    (h : isBoundary (front ++ rest) (front.length + i) = true) : isBoundary rest i = true := by
  unfold isBoundary at h ⊢
  rw [List.getElem?_append_right (Nat.le_add_right _ _), Nat.add_sub_cancel_left,
    List.length_append] at h
  by_cases hi : i = 0
  · rw [hi]
    rfl
  · have hstart : (front.length + i == 0) = false := by
      rw [beq_eq_false_iff_ne]
      omega
    rw [hstart, Bool.false_or] at h
    rw [Bool.or_eq_true]
    right
    cases hb : rest[i]? with
    | some b =>
      rw [hb] at h
      exact h
    | none =>
      rw [hb] at h
      simpa using h

/-! ## A whole text -/

/-- **The boundaries** in the bytes of a text are the lengths of its beginnings. -/
theorem isBoundary_encode_iff (s : Text) (i : Nat) :
    isBoundary (encode s) i = true ↔ ∃ front : Text, front <+: s ∧ front.byteLength = i := by
  constructor
  · intro h
    induction s generalizing i with
    | nil =>
      refine ⟨[], List.prefix_rfl, ?_⟩
      cases i with
      | zero => rfl
      | succ i => cases h
    | cons c s ih =>
      by_cases hzero : i = 0
      · exact ⟨[], List.nil_prefix, hzero.symm⟩
      by_cases hinside : i < (String.utf8EncodeChar c).length
      · rw [encode_cons, isBoundary_inside hzero hinside] at h
        cases h
      · obtain ⟨j, rfl⟩ := Nat.exists_eq_add_of_le (Nat.le_of_not_lt hinside)
        rw [encode_cons] at h
        obtain ⟨front, hfront, hlength⟩ := ih j (isBoundary_behind _ _ _ h)
        refine ⟨c :: front, List.cons_prefix_cons.mpr ⟨rfl, hfront⟩, ?_⟩
        rw [Text.byteLength_cons, hlength, String.length_utf8EncodeChar]
  · rintro ⟨front, ⟨back, rfl⟩, rfl⟩
    unfold isBoundary
    rw [encode_append, ← length_encode, List.getElem?_append_right (Nat.le_refl _), Nat.sub_self]
    cases back with
    | nil => simp
    | cons c back =>
      obtain ⟨b, more, hc, hfirst, -⟩ := exists_encodeChar c
      rw [encode_cons, hc, List.cons_append, List.getElem?_cons_zero]
      simp [hfirst]

/-! ## Going back -/

/-- Going back ends at the last boundary that is not behind the position. -/
theorem boundaryBefore?_eq_some {bytes : Bytes} {i j : Nat} (hj : isBoundary bytes j = true)
    (hle : j ≤ i) (hlast : ∀ k, isBoundary bytes k = true → k ≤ i → k ≤ j) :
    boundaryBefore? bytes i = some j := by
  induction i with
  | zero =>
    obtain rfl := Nat.le_zero.mp hle
    rw [boundaryBefore?, if_pos hj]
  | succ i ih =>
    by_cases hi : isBoundary bytes (i + 1) = true
    · obtain rfl : j = i + 1 := Nat.le_antisymm hle (hlast (i + 1) hi (Nat.le_refl _))
      rw [boundaryBefore?, if_pos hi]
    · have hne : j ≠ i + 1 := by
        rintro rfl
        exact hi hj
      rw [boundaryBefore?, if_neg hi]
      exact ih (by omega) fun k hk hki => hlast k hk (Nat.le_succ_of_le hki)

/-- **Going back in the bytes of a text** ends behind the longest beginning that fits. -/
theorem boundaryBefore?_encode (s : Text) (room : Nat) :
    boundaryBefore? (encode s) room = some (Text.fitting room s).byteLength := by
  have hlongest := Text.isLongestFit_fitting room s
  apply boundaryBefore?_eq_some
  · exact (isBoundary_encode_iff s _).mpr ⟨_, hlongest.begins, rfl⟩
  · exact hlongest.fits
  · intro k hk hfits
    obtain ⟨front, hfront, rfl⟩ := (isBoundary_encode_iff s k).mp hk
    exact Text.byteLength_le_of_begins (hlongest.longest front hfront hfits)

/-- Up to the length of a beginning, the bytes of a text are those of that beginning. -/
theorem take_encode {front s : Text} (h : front <+: s) :
    (encode s).take front.byteLength = encode front := by
  obtain ⟨back, rfl⟩ := h
  rw [encode_append, ← length_encode, List.take_left]

end ModemLink.Utf8
