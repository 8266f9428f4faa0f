/-
Decimal numerals.

What a numeral is can be said without reading it: one or more digits, which have a value, and in front of
them a sign or none. Reading finds the value of every numeral, and nothing else can be read; what is written
for a number is a numeral of it. Leading zeros do not matter, and neither does the sign of zero.
-/
import Mathlib
import ModemLink.Proofs.Text.Case

set_option autoImplicit false

namespace ModemLink.Decimal

/-! ## Numerals -/

/-- **Digits** with their value: at least one, and nothing else among them. -/
structure IsDigits (s : Text) (n : Nat) : Prop where
  ne_nil : s ≠ []
  isDigit (c : Char) : c ∈ s → c.isDigit = true
  value : Nat.ofDigitChars 10 s 0 = n

/-- **A numeral** of an integer: digits, with a sign or without one. -/
inductive IsNumeral : Text → Int → Prop where
  | unsigned {s : Text} {n : Nat} (h : IsDigits s n) : IsNumeral s n
  | plus {s : Text} {n : Nat} (h : IsDigits s n) : IsNumeral ('+' :: s) n
  | minus {s : Text} {n : Nat} (h : IsDigits s n) : IsNumeral ('-' :: s) (-n)

/-- A numeral of a number that a signed word of 32 bits can hold. -/
structure IsInt32 (s : Text) (z : Int) : Prop where
  isNumeral : IsNumeral s z
  ge : -2 ^ 31 ≤ z
  lt : z < 2 ^ 31

/-! ## Reading -/

/-- Digits are read if there is nothing else among them. -/
theorem digits?_eq_some_iff (acc : Nat) (s : Text) (n : Nat) :
    digits? acc s = some n ↔ (∀ c ∈ s, c.isDigit = true) ∧ Nat.ofDigitChars 10 s acc = n := by
  induction s generalizing acc with
  | nil => simp [digits?]
  | cons c s ih =>
    rw [digits?, Nat.ofDigitChars_cons, Nat.mul_comm 10 acc]
    by_cases hc : c.isDigit = true
    · simp [hc, ih]
    · simp [hc]

theorem nat?_eq_some_iff (s : Text) (n : Nat) : nat? s = some n ↔ IsDigits s n := by
  constructor
  · intro h
    cases s with
    | nil => cases h
    | cons c s =>
      obtain ⟨hdigits, hvalue⟩ := (digits?_eq_some_iff 0 (c :: s) n).mp h
      exact ⟨List.cons_ne_nil c s, hdigits, hvalue⟩
  · intro h
    cases s with
    | nil => exact absurd rfl h.ne_nil
    | cons c s => exact (digits?_eq_some_iff 0 (c :: s) n).mpr ⟨h.isDigit, h.value⟩

/-- **Reading** finds the value of a numeral, and reads nothing but numerals. Digits do not begin with a
sign, so the three forms of a numeral are told apart by their first character. -/
theorem int?_eq_some_iff (s : Text) (z : Int) : int? s = some z ↔ IsNumeral s z := by
  constructor
  · intro h
    unfold int? at h
    -- in each form the natural number is made an integer before the sign is put to it
    split at h
    · next s =>
      obtain ⟨n, hn, rfl⟩ : ∃ n : Nat, nat? s = some n ∧ -(n : Int) = z := by
        simpa [Option.bind_eq_some_iff] using h
      exact .minus ((nat?_eq_some_iff s n).mp hn)
    · next s =>
      obtain ⟨n, hn, rfl⟩ : ∃ n : Nat, nat? s = some n ∧ (n : Int) = z := by
        simpa [Option.bind_eq_some_iff] using h
      exact .plus ((nat?_eq_some_iff s n).mp hn)
    · obtain ⟨n, hn, rfl⟩ : ∃ n : Nat, nat? s = some n ∧ (n : Int) = z := by
        simpa [Option.bind_eq_some_iff] using h
      exact .unsigned ((nat?_eq_some_iff s n).mp hn)
  · intro h
    cases h with
    | plus h => simp [int?, (nat?_eq_some_iff _ _).mpr h]
    | minus h => simp [int?, (nat?_eq_some_iff _ _).mpr h]
    | @unsigned _ n h =>
      obtain ⟨c, rest, rfl⟩ := List.exists_cons_of_ne_nil h.ne_nil
      have hc := h.isDigit c List.mem_cons_self
      have hminus : c ≠ '-' := by
        rintro rfl
        cases hc
      have hplus : c ≠ '+' := by
        rintro rfl
        cases hc
      rw [int?_of_unsigned hminus hplus, (nat?_eq_some_iff _ _).mpr h]
      rfl

/-- **Reading a word of 32 bits.** -/
theorem int32?_eq_some_iff (s : Text) (z : Int) : int32? s = some z ↔ IsInt32 s z := by
  have hbounds : inInt32 z = true ↔ -2 ^ 31 ≤ z ∧ z < 2 ^ 31 := by
    simp only [inInt32, Bool.and_eq_true, decide_eq_true_eq]
    omega
  unfold int32?
  rw [Option.filter_eq_some_iff, int?_eq_some_iff, hbounds]
  constructor
  · rintro ⟨hnumeral, hge, hlt⟩
    exact ⟨hnumeral, hge, hlt⟩
  · intro h
    exact ⟨h.isNumeral, h.ge, h.lt⟩

theorem int32?_eq_none_iff (s : Text) : int32? s = none ↔ ∀ z, ¬ IsInt32 s z := by
  rw [Option.eq_none_iff_forall_ne_some]
  simp only [ne_eq, int32?_eq_some_iff]

/-! ## Writing -/

/-- **What is written** for an integer is a numeral of it. -/
theorem isNumeral_ofInt (z : Int) : IsNumeral (ofInt z) z := by
  have hdigits (n : Nat) : IsDigits (ofNat n) n := by
    refine ⟨?_, ?_, Nat.ofDigitChars_ten_toDigits⟩
    · unfold ofNat
      rw [Nat.toDigits_eq_if (by decide)]
      split <;> simp
    · intro c hc
      exact Nat.isDigit_of_mem_toDigits (by decide) (by decide) hc
  cases z with
  | ofNat n => exact .unsigned (hdigits n)
  | negSucc n => exact .minus (hdigits (n + 1))

/-! ## Characters -/

/-- A numeral is made of digits and signs. -/
theorem IsNumeral.mem {s : Text} {z : Int} (h : IsNumeral s z) {c : Char} (hc : c ∈ s) :
    c = '+' ∨ c = '-' ∨ c.isDigit = true := by
  cases h with
  | unsigned h => exact .inr (.inr (h.isDigit c hc))
  | plus h => exact (List.mem_cons.mp hc).imp_right fun hc => .inr (h.isDigit c hc)
  | minus h => exact .inr ((List.mem_cons.mp hc).imp_right (h.isDigit c))

/-- So it holds no character that is neither of them: no blank, and no separator. -/
theorem IsNumeral.not_mem {s : Text} {z : Int} (h : IsNumeral s z) {p : Char → Bool}
    (hplus : p '+' = false) (hminus : p '-' = false)
    (hdigits : ∀ n < 128, (Char.ofNat n).isDigit = true → p (Char.ofNat n) = false) {c : Char}
    (hc : c ∈ s) : p c = false := by
  rcases h.mem hc with rfl | rfl | hdigit
  · exact hplus
  · exact hminus
  · have hbound : c.toNat ≤ 57 := (Char.isDigit_iff_toNat.mp hdigit).2
    have happly := hdigits c.toNat (by omega)
    rw [Char.ofNat_toNat] at happly
    exact happly hdigit

end ModemLink.Decimal
