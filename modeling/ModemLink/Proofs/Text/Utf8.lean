/-
Reading back what was written.

`Utf8.decode` reads any bytes at all, and this file says what it makes of bytes that are the form
of a text: that text. Each of the four lengths of a character is followed through the reader, whose
bounds for the next byte are exactly those that a character of that length obeys.

The bytes of a text also keep its ASCII characters apart: a byte below 128 is one of them, so that
a line end stands in the bytes only where it stands in the text.
-/
import ModemLink.Proofs.Framer.WireLine
import ModemLink.Text.Utf8

set_option autoImplicit false

namespace ModemLink.Utf8

open ModemLink

/-! ## One byte at a time -/

/-- A byte that opens a longer character adds nothing to the text yet. -/
theorem decodeFrom_opens {b : UInt8} {g : Begun} (h : Lead.ofByte b = .opens g) (rest : Bytes) :
    decodeFrom none (b :: rest) = decodeFrom (some g) rest := by
  simp [decodeFrom, step, start, h]

/-- A byte within the bounds, with more of them to come. -/
theorem decodeFrom_more {value missing low high : Nat} {b : UInt8} (hlow : low ≤ b.toNat)
    (hhigh : b.toNat ≤ high) (hm : missing ≠ 0) (rest : Bytes) :
    decodeFrom (some ⟨value, missing + 1, low, high⟩) (b :: rest)
      = decodeFrom (some ⟨value * 64 + (b.toNat - 0x80), missing, 0x80, 0xBF⟩) rest := by
  simp [decodeFrom, step, hlow, hhigh, hm]

/-- The last byte of a character. -/
theorem decodeFrom_last {value low high : Nat} {b : UInt8} (hlow : low ≤ b.toNat)
    (hhigh : b.toNat ≤ high) (rest : Bytes) :
    decodeFrom (some ⟨value, 1, low, high⟩) (b :: rest)
      = Char.ofNat (value * 64 + (b.toNat - 0x80)) :: decodeFrom none rest := by
  simp [decodeFrom, step, hlow, hhigh]

/-- The number of a byte that was made from a small number. -/
theorem toNat_byte {n : Nat} (h : n < 256) : (UInt8.ofNat n).toNat = n := by
  rw [UInt8.toNat_ofNat']
  exact Nat.mod_eq_of_lt h

/-! ## One character

The number of a character splits into groups of six bits, and the head of the first byte tells how
many there are. -/

theorem ofByte_ascii {n : Nat} (h : n < 0x80) :
    Lead.ofByte (UInt8.ofNat n) = .whole (Char.ofNat n) := by
  unfold Lead.ofByte
  rw [toNat_byte (by omega)]
  simp only [if_pos h]

/-- The first byte of a form of two bytes. -/
theorem ofByte_two {n : Nat} (hlow : 2 ≤ n) (hhigh : n < 0x20) :
    Lead.ofByte (UInt8.ofNat (n + 0xC0)) = .opens ⟨n, 1, 0x80, 0xBF⟩ := by
  unfold Lead.ofByte
  rw [toNat_byte (by omega)]
  simp only [show ¬ n + 0xC0 < 0x80 by omega, show ¬ n + 0xC0 < 0xC2 by omega,
    show n + 0xC0 < 0xE0 by omega, if_false, if_true, Nat.add_sub_cancel]

/-- The first byte of a form of three bytes, and the bounds that it sets for the second one. They
keep out what fits into two bytes, and the surrogates. -/
theorem ofByte_three {n : Nat} (h : n < 0x10) :
    Lead.ofByte (UInt8.ofNat (n + 0xE0))
      = .opens ⟨n, 2, if n = 0 then 0xA0 else 0x80, if n = 0xD then 0x9F else 0xBF⟩ := by
  unfold Lead.ofByte
  rw [toNat_byte (by omega)]
  simp only [show ¬ n + 0xE0 < 0x80 by omega, show ¬ n + 0xE0 < 0xC2 by omega,
    show ¬ n + 0xE0 < 0xE0 by omega, show n + 0xE0 < 0xF0 by omega, if_false, if_true,
    Nat.add_sub_cancel]
  by_cases h0 : n = 0
  · simp [h0]
  · by_cases hD : n = 0xD
    · simp [hD]
    · simp [h0, hD, show ¬ n + 0xE0 = 0xED by omega]

/-- The first byte of a form of four bytes. The bounds keep out what fits into three bytes, and
what is no character. -/
theorem ofByte_four {n : Nat} (h : n ≤ 4) :
    Lead.ofByte (UInt8.ofNat (n + 0xF0))
      = .opens ⟨n, 3, if n = 0 then 0x90 else 0x80, if n = 4 then 0x8F else 0xBF⟩ := by
  unfold Lead.ofByte
  rw [toNat_byte (by omega)]
  simp only [show ¬ n + 0xF0 < 0x80 by omega, show ¬ n + 0xF0 < 0xC2 by omega,
    show ¬ n + 0xF0 < 0xE0 by omega, show ¬ n + 0xF0 = 0xE0 by omega,
    show ¬ n + 0xF0 = 0xED by omega, show ¬ n + 0xF0 < 0xF0 by omega, if_false,
    Nat.add_sub_cancel]
  by_cases h0 : n = 0
  · simp [h0]
  · by_cases h4 : n = 4
    · simp [h4]
    · simp [h0, h4, show n + 0xF0 < 0xF4 by omega]

/-- **A character comes back.** By the length of its form. -/
theorem decodeFrom_encodeChar (c : Char) (rest : Bytes) :
    decodeFrom none (String.utf8EncodeChar c ++ rest) = c :: decodeFrom none rest := by
  have hvalid : c.val.toNat < 0xD800 ∨ 0xDFFF < c.val.toNat ∧ c.val.toNat < 0x110000 := c.valid
  have hback : Char.ofNat c.val.toNat = c := Char.ofNat_toNat c
  unfold String.utf8EncodeChar
  generalize c.val.toNat = v at hvalid hback
  by_cases h1 : v ≤ 0x7F
  · simp [h1, decodeFrom, step, start, ofByte_ascii (show v < 0x80 by omega), hback]
  by_cases h2 : v ≤ 0x7FF
  · simp only [h1, h2, if_false, if_true, List.cons_append, List.nil_append]
    have hb : (UInt8.ofNat (v % 0x40 + 0x80)).toNat = v % 0x40 + 0x80 := toNat_byte (by omega)
    rw [decodeFrom_opens (ofByte_two (by omega) (by omega)),
      decodeFrom_last (by omega) (by omega), hb,
      show v / 64 % 0x20 * 64 + (v % 0x40 + 0x80 - 0x80) = v by omega, hback]
  by_cases h3 : v ≤ 0xFFFF
  · simp only [h1, h2, h3, if_false, if_true, List.cons_append, List.nil_append]
    have hb : (UInt8.ofNat (v / 64 % 0x40 + 0x80)).toNat = v / 64 % 0x40 + 0x80 :=
      toNat_byte (by omega)
    have hc : (UInt8.ofNat (v % 0x40 + 0x80)).toNat = v % 0x40 + 0x80 := toNat_byte (by omega)
    rw [decodeFrom_opens (ofByte_three (by omega)),
      decodeFrom_more (by split <;> omega) (by split <;> omega) (by omega),
      decodeFrom_last (by omega) (by omega), hb, hc,
      show (v / 4096 % 0x10 * 64 + (v / 64 % 0x40 + 0x80 - 0x80)) * 64
        + (v % 0x40 + 0x80 - 0x80) = v by omega, hback]
  · simp only [h1, h2, h3, if_false, List.cons_append, List.nil_append]
    have hb : (UInt8.ofNat (v / 4096 % 0x40 + 0x80)).toNat = v / 4096 % 0x40 + 0x80 :=
      toNat_byte (by omega)
    have hc : (UInt8.ofNat (v / 64 % 0x40 + 0x80)).toNat = v / 64 % 0x40 + 0x80 :=
      toNat_byte (by omega)
    have hd : (UInt8.ofNat (v % 0x40 + 0x80)).toNat = v % 0x40 + 0x80 := toNat_byte (by omega)
    rw [decodeFrom_opens (ofByte_four (by omega)),
      decodeFrom_more (by split <;> omega) (by split <;> omega) (by omega),
      decodeFrom_more (by omega) (by omega) (by omega),
      decodeFrom_last (by omega) (by omega), hb, hc, hd,
      show ((v / 262144 % 0x08 * 64 + (v / 4096 % 0x40 + 0x80 - 0x80)) * 64
        + (v / 64 % 0x40 + 0x80 - 0x80)) * 64 + (v % 0x40 + 0x80 - 0x80) = v by omega, hback]

/-! ## Whole texts -/

/-- **A text comes back** from its bytes. -/
theorem decode_encode (s : Text) : decode (encode s) = s := by
  unfold decode
  induction s with
  | nil => rfl
  | cons c s ih =>
    rw [encode, List.flatMap_cons, decodeFrom_encodeChar]
    rw [encode] at ih
    rw [ih]

/-! ## ASCII in the bytes of a text -/

@[simp] theorem encode_cons (c : Char) (s : Text) :
    encode (c :: s) = String.utf8EncodeChar c ++ encode s := by
  rw [encode, List.flatMap_cons, encode]

/-- The number of an ASCII character. -/
theorem toNat_ofNat {n : Nat} (h : n < 0x80) : (Char.ofNat n).toNat = n := by
  have hvalid : n.isValidChar := .inl (by omega)
  rw [Char.ofNat, dif_pos hvalid]
  rfl

/-- An ASCII character is its number. -/
theorem encodeChar_ascii {c : Char} (h : c.toNat < 0x80) :
    String.utf8EncodeChar c = [UInt8.ofNat c.toNat] := by
  have hle : c.val.toNat ≤ 0x7F := Nat.le_of_lt_succ h
  unfold String.utf8EncodeChar
  rw [if_pos hle]
  rfl

/-- The bytes of any other character are no ASCII. -/
theorem le_of_mem_encodeChar {c : Char} (h : 0x80 ≤ c.toNat) {b : UInt8}
    (hb : b ∈ String.utf8EncodeChar c) : 0x80 ≤ b.toNat := by
  have hlow : 0x80 ≤ c.val.toNat := h
  have hvalid : c.val.toNat < 0xD800 ∨ 0xDFFF < c.val.toNat ∧ c.val.toNat < 0x110000 := c.valid
  unfold String.utf8EncodeChar at hb
  generalize c.val.toNat = v at hlow hvalid hb
  rw [if_neg (by omega)] at hb
  split at hb
  · simp only [List.mem_cons, List.not_mem_nil, or_false] at hb
    rcases hb with rfl | rfl <;> rw [toNat_byte (by omega)] <;> omega
  · split at hb
    · simp only [List.mem_cons, List.not_mem_nil, or_false] at hb
      rcases hb with rfl | rfl | rfl <;> rw [toNat_byte (by omega)] <;> omega
    · simp only [List.mem_cons, List.not_mem_nil, or_false] at hb
      rcases hb with rfl | rfl | rfl | rfl <;> rw [toNat_byte (by omega)] <;> omega

/-- The bytes of a text begin with an ASCII byte exactly if the text begins with that
character. -/
theorem head?_encode_eq_some_iff {b : UInt8} (hb : b.toNat < 0x80) (s : Text) :
    (encode s).head? = some b ↔ s.head? = some (Char.ofNat b.toNat) := by
  cases s with
  | nil => simp
  | cons c s =>
    rw [encode_cons, List.head?_cons, Option.some.injEq]
    by_cases hc : c.toNat < 0x80
    · rw [encodeChar_ascii hc, List.singleton_append, List.head?_cons, Option.some.injEq]
      constructor
      · rintro rfl
        rw [toNat_byte (by omega)]
        exact (Char.ofNat_toNat c).symm
      · rintro rfl
        rw [toNat_ofNat hb]
        exact UInt8.ofNat_toNat
    -- a longer form begins with no ASCII byte, and its character is not in ASCII either
    · have hhigh : 0x80 ≤ c.toNat := Nat.le_of_not_lt hc
      constructor
      · intro h
        obtain ⟨x, xs, hx⟩ := List.exists_cons_of_ne_nil (String.utf8EncodeChar_ne_nil (c := c))
        rw [hx, List.cons_append, List.head?_cons, Option.some.injEq] at h
        have := le_of_mem_encodeChar hhigh (b := x) (by rw [hx]; exact List.mem_cons_self)
        rw [h] at this
        omega
      · rintro rfl
        rw [toNat_ofNat hb] at hc
        exact absurd hb hc

/-- Bytes none of which is a carriage return may stand before a wire line. -/
theorem isWireLine_append {u w : Bytes} (hu : ∀ b ∈ u, b ≠ 13)
    (hw : Terminators.crlf.IsWireLine w) : Terminators.crlf.IsWireLine (u ++ w) := by
  induction u with
  | nil => exact hw
  | cons b u ih =>
    rw [List.cons_append, Terminators.isWireLine_cons]
    refine ⟨?_, ih fun x hx => hu x (List.mem_cons_of_mem b hx)⟩
    intro h
    have := (List.cons_prefix_cons.mp h).1
    exact hu b List.mem_cons_self this.symm

/-- **A text without a line end is a wire line.** Line ends in the bytes are line ends in the
text. -/
theorem isWireLine_encode {s : Text} (hs : ¬ ['\r', '\n'] <:+: s) :
    Terminators.crlf.IsWireLine (encode s) := by
  induction s with
  | nil => exact Terminators.isWireLine_nil _
  | cons c s ih =>
    rw [List.infix_cons_iff, not_or] at hs
    obtain ⟨hhead, htail⟩ := hs
    rw [encode_cons]
    by_cases hc : c.toNat < 0x80
    · rw [encodeChar_ascii hc, List.singleton_append, Terminators.isWireLine_cons]
      refine ⟨?_, ih htail⟩
      intro h
      obtain ⟨hcr, hlf⟩ := List.cons_prefix_cons.mp h
      have hc13 : c = '\r' := by
        have := congrArg (Char.ofNat ∘ UInt8.toNat) hcr
        simp only [Function.comp_apply, toNat_byte (show c.toNat < 256 by omega)] at this
        rw [← Char.ofNat_toNat c, ← this]
        rfl
      cases s with
      | nil => simp [Terminators.bytes, Terminators.crlf] at hlf
      | cons d s =>
        -- the line feed would have to be the next character
        have h10 : (encode (d :: s)).head? = some 10 := by
          obtain ⟨more, hmore⟩ := hlf
          obtain ⟨x, xs, hx⟩ := List.exists_cons_of_ne_nil
            (show encode (d :: s) ≠ [] by simp [String.utf8EncodeChar_ne_nil])
          rw [hx, List.cons_append] at hmore
          rw [hx, List.head?_cons, (List.cons.inj hmore).1]
        have hd := (head?_encode_eq_some_iff (by decide) (d :: s)).mp h10
        rw [List.head?_cons, Option.some.injEq] at hd
        apply hhead
        rw [hc13, hd]
        exact ⟨s, rfl⟩
    · refine isWireLine_append (fun b hb h13 => ?_) (ih htail)
      have := le_of_mem_encodeChar (Nat.le_of_not_lt hc) hb
      rw [h13] at this
      simp at this

end ModemLink.Utf8
