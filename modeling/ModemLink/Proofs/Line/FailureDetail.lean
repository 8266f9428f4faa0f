/-
The detail of a failure.

Behind the token that announces a failure a module writes separators, and then a label, a code, or a label
and a code with a comma between them. Nothing marks which of these it is, and labels are free text, so the
four forms have to be told apart by the comma and by whether a text can be read as a number.

They are: what was written is what is read, for every label and every number of 32 bits. A code that is no
such number, because it is out of range or no number at all, costs the code and never the label.
-/
import ModemLink.Proofs.Text.Numerals

set_option autoImplicit false

namespace ModemLink

namespace Text

/-! ## The first comma -/

theorem splitFirst?_eq_none {mark : Char} {s : Text} (h : mark ∉ s) : splitFirst? mark s = none := by
  induction s with
  | nil => rfl
  | cons c s ih =>
    rw [List.mem_cons, not_or] at h
    rw [splitFirst?, if_neg (Ne.symm h.1), ih h.2]
    rfl

/-- A text is split at the first mark, whatever comes behind it. -/
theorem splitFirst?_append {mark : Char} {front : Text} (h : mark ∉ front) (rest : Text) :
    splitFirst? mark (front ++ mark :: rest) = some (front, rest) := by
  induction front with
  | nil => simp [splitFirst?]
  | cons c front ih =>
    rw [List.mem_cons, not_or] at h
    rw [List.cons_append, splitFirst?, if_neg (Ne.symm h.1), ih h.2]
    rfl

end Text

namespace Failure

open Decimal

/-! ## Labels -/

/-- **A label:** free text without a comma, without blanks around it and without a colon at its beginning.
It may be empty. -/
structure IsLabel (label : Text) : Prop where
  no_comma : ',' ∉ label
  no_colon : label.head? ≠ some ':'
  first (c : Char) : label.head? = some c → Text.isBlank c = false
  last (c : Char) : label.getLast? = some c → Text.isBlank c = false

/-- A numeral would be a label if it stood alone. -/
theorem isLabel_of_isNumeral {number : Text} {code : Int} (h : IsNumeral number code) :
    IsLabel number := by
  have hblank (c : Char) (hc : c ∈ number) : Text.isBlank c = false :=
    h.not_mem (by decide) (by decide) (by decide) hc
  have hseparator (c : Char) (hc : c ∈ number) : (c == ',' || c == ':') = false :=
    h.not_mem (p := fun c => c == ',' || c == ':') (by decide) (by decide) (by decide) hc
  refine ⟨?_, ?_, fun c hc => hblank c (List.mem_of_mem_head? hc),
    fun c hc => hblank c (List.mem_of_getLast? hc)⟩
  · intro hc
    cases hseparator ',' hc
  · intro hc
    cases hseparator ':' (List.mem_of_mem_head? hc)

section

variable {separators label : Text} (hseparators : ∀ c ∈ separators, c = ':' ∨ c = ' ')
include hseparators

/-- **Separators** are left out up to the first character that is none. -/
theorem dropWhile_separators {s : Text} (hfirst : ∀ c, s.head? = some c → isSeparator c = false) :
    (separators ++ s).dropWhile isSeparator = s := by
  have hall : ∀ c ∈ separators, isSeparator c = true := by
    intro c hc
    rcases hseparators c hc with rfl | rfl <;> rfl
  rw [List.dropWhile_append_of_pos hall]
  cases s with
  | nil => rfl
  | cons c s =>
    apply List.dropWhile_cons_of_neg
    rw [hfirst c rfl]
    exact Bool.false_ne_true

/-- A label does not begin with a separator: a space would be a blank. -/
theorem dropWhile_separators_label (hlabel : IsLabel label) {s : Text}
    (hs : ∀ c, s.head? = some c → isSeparator c = false) :
    (separators ++ (label ++ s)).dropWhile isSeparator = label ++ s := by
  apply dropWhile_separators hseparators
  intro c hc
  cases label with
  | nil => exact hs c hc
  | cons d label =>
    obtain rfl : d = c := Option.some.inj hc
    have hcolon : d ≠ ':' := by
      rintro rfl
      exact hlabel.no_colon rfl
    have hspace : d ≠ ' ' := by
      rintro rfl
      cases hlabel.first ' ' rfl
    simp [isSeparator, hcolon, hspace]

/-! ## With and without a comma -/

/-- **With a comma,** the label is what stands before it, and the code what can be read behind it. The comma
is no blank, so trimming the whole detail touches only what follows the comma. -/
theorem ofText_with_comma (hlabel : IsLabel label) (tail : Text) :
    ofText (separators ++ (label ++ ',' :: tail))
      = ⟨label, (int32? (Text.trim tail)).getD 0⟩ := by
  have hdrop : (separators ++ (label ++ ',' :: tail)).dropWhile isSeparator = label ++ ',' :: tail := by
    apply dropWhile_separators_label hseparators hlabel
    intro c hc
    obtain rfl : ',' = c := Option.some.inj hc
    rfl
  have htrim : Text.trim (label ++ ',' :: tail) = label ++ ',' :: Text.trimEnd tail := by
    rw [List.append_cons, Text.trim_append (by simp), ← List.append_cons]
    · intro c hc
      cases label with
      | nil =>
        obtain rfl : ',' = c := Option.some.inj hc
        rfl
      | cons d label => exact hlabel.first c hc
    · intro c hc
      rw [List.getLast?_concat] at hc
      obtain rfl : ',' = c := Option.some.inj hc
      rfl
  have hself : Text.trim label = label := (Text.trim_eq_self_iff label).mpr ⟨hlabel.first, hlabel.last⟩
  simp only [ofText, hdrop, htrim, Text.splitFirst?_append hlabel.no_comma, hself, Text.trim_trimEnd]

/-- **Without a comma,** the detail is a code if it can be read as one, and a label otherwise. -/
theorem ofText_without_comma (hlabel : IsLabel label) :
    ofText (separators ++ label) = ((int32? label).map fun code => ⟨[], code⟩).getD ⟨label, 0⟩ := by
  have hdrop : (separators ++ label).dropWhile isSeparator = label := by
    have h := dropWhile_separators_label hseparators hlabel (s := []) nofun
    rwa [List.append_nil] at h
  have hself : Text.trim label = label := (Text.trim_eq_self_iff label).mpr ⟨hlabel.first, hlabel.last⟩
  simp only [ofText, hdrop, hself, Text.splitFirst?_eq_none hlabel.no_comma]
  cases int32? label <;> rfl

/-- **The detail of a failure is read back** as it was written, whatever separators stand in front of it.

* A label, a comma, blanks and a numeral of a code of 32 bits are that label and that code.
* Such a numeral alone is that code, with no label.
* A label, a comma and a text that is no such numeral, once it is trimmed, are that label and no code.
* A label alone is that label and no code, if it is no such numeral.

What is written for a number of 32 bits is a numeral of it. -/
theorem detail_read_back (hlabel : IsLabel label) :
    (∀ blanks number code, (∀ c ∈ blanks, Text.isBlank c = true) → IsInt32 number code →
        ofText (separators ++ label ++ [','] ++ blanks ++ number) = ⟨label, code⟩)
      ∧ (∀ number code, IsInt32 number code → ofText (separators ++ number) = ⟨[], code⟩)
      ∧ (∀ tail, (∀ code, ¬ IsInt32 (Text.trim tail) code) →
          ofText (separators ++ label ++ [','] ++ tail) = ⟨label, 0⟩)
      ∧ (label ≠ [] → (∀ code, ¬ IsInt32 label code) → ofText (separators ++ label) = ⟨label, 0⟩)
      ∧ ∀ code, -2 ^ 31 ≤ code → code < 2 ^ 31 → IsInt32 (Decimal.ofInt code) code := by
  have hcomma (tail : Text) : separators ++ label ++ [','] ++ tail
      = separators ++ (label ++ ',' :: tail) := by simp
  refine ⟨?_, ?_, ?_, ?_, fun code hge hlt => ⟨isNumeral_ofInt code, hge, hlt⟩⟩
  · intro blanks number code hblanks hnumber
    have hself : Text.trim number = number := by
      have h := isLabel_of_isNumeral hnumber.isNumeral
      exact (Text.trim_eq_self_iff number).mpr ⟨h.first, h.last⟩
    rw [List.append_assoc _ blanks, hcomma, ofText_with_comma hseparators hlabel,
      Text.trim_blanks_append hblanks, hself, (int32?_eq_some_iff number code).mpr hnumber]
    rfl
  · intro number code hnumber
    rw [ofText_without_comma hseparators (isLabel_of_isNumeral hnumber.isNumeral),
      (int32?_eq_some_iff number code).mpr hnumber]
    rfl
  · intro tail htail
    rw [hcomma, ofText_with_comma hseparators hlabel, (int32?_eq_none_iff _).mpr htail]
    rfl
  · intro _ hnone
    rw [ofText_without_comma hseparators hlabel, (int32?_eq_none_iff label).mpr hnone]
    rfl

end

/-- A label that ends like a number, with the least code and with one that is just too large; and a code
with a sign and zeros in front. -/
theorem detail_read_back_least_code :
    let separators : Text := [':', ' ']
    let label : Text := "SIM +1"
    ofText (separators ++ label ++ [','] ++ [' '] ++ "-2147483648".toList) = ⟨label, -2147483648⟩
      ∧ ofText (separators ++ "+007".toList) = ⟨[], 7⟩
      ∧ ofText (separators ++ label ++ [','] ++ "2147483648 ".toList) = ⟨label, 0⟩
      ∧ ofText (separators ++ label) = ⟨label, 0⟩ := by
  intro separators label
  have hseparators : ∀ c ∈ separators, c = ':' ∨ c = ' ' := by simp [separators]
  have hlabel : IsLabel label := by
    refine ⟨by decide, by decide, ?_, ?_⟩
    · intro c hc
      cases hc
      decide
    · intro c hc
      cases hc
      decide
  obtain ⟨hboth, hcode, hother, halone, -⟩ := detail_read_back hseparators hlabel
  have hleast : IsInt32 "-2147483648".toList (-2147483648) := (int32?_eq_some_iff _ _).mp (by decide)
  have hseven : IsInt32 "+007".toList 7 := (int32?_eq_some_iff _ _).mp (by decide)
  have hlarge : ∀ code, ¬ IsInt32 (Text.trim "2147483648 ".toList) code :=
    (int32?_eq_none_iff _).mp (by decide)
  have hnone : ∀ code, ¬ IsInt32 label code := (int32?_eq_none_iff _).mp (by decide)
  have hspace : ∀ c ∈ [' '], Text.isBlank c = true := List.forall_mem_singleton.mpr rfl
  exact ⟨hboth _ _ _ hspace hleast, hcode _ _ hseven, hother _ hlarge, halone (by decide) hnone⟩

end Failure

end ModemLink
