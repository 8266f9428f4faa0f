/-
Texts without regard to case.

`folded` writes the ASCII letters of a text small, so two texts are equal up to case exactly if they are
folded to the same one. Everything that is done to a line or to a failure detail goes along with folding:
blanks, separators and digits are no letters, so a text is cut and read at the same places whichever case
its letters have.
-/
import Mathlib
import ModemLink.Proofs.Text.Words
import ModemLink.Text.Decimal

set_option autoImplicit false

namespace ModemLink

namespace Text

/-! ## Folding -/

/-- A text with its ASCII letters written small. -/
def folded (s : Text) : Text := s.map Char.toLower

@[simp] theorem folded_nil : folded [] = [] := rfl

@[simp] theorem folded_cons (c : Char) (s : Text) : folded (c :: s) = c.toLower :: folded s := rfl

@[simp] theorem length_folded (s : Text) : (folded s).length = s.length := List.length_map _

/-- Equal up to case is folded to the same text. -/
theorem equalFolded_iff {s t : Text} : equalFolded s t = true ↔ folded s = folded t := beq_iff_eq

/-- A character that is no letter is the small form of no other one. -/
theorem toLower_eq_iff {c mark : Char} (hmark : mark.isAlpha = false) :
    c.toLower = mark ↔ c = mark := by
  by_cases hupper : c.isUpper = true
  · have hletter : c.isAlpha = true := by
      unfold Char.isAlpha
      rw [hupper, Bool.true_or]
    constructor
    · rintro rfl
      rw [Char.isAlpha_toLower_eq_isAlpha, hletter] at hmark
      cases hmark
    · rintro rfl
      cases hletter.symm.trans hmark
  · rw [Char.toLower_eq_of_not_isUpper hupper]

/-! ## Blanks and separators -/

/-- Leaving out a beginning of characters that are no letters, or of any others that do not depend on
case. -/
theorem dropWhile_folded {p : Char → Bool} (hp : ∀ c, p c.toLower = p c) (s : Text) :
    (folded s).dropWhile p = folded (s.dropWhile p) := by
  have hsame : p ∘ Char.toLower = p := funext hp
  unfold folded
  rw [List.dropWhile_map, hsame]

theorem isBlank_toLower (c : Char) : isBlank c.toLower = isBlank c :=
  apply_toLower isBlank (by decide) c

/-- **Trimming** does not depend on case. -/
theorem trim_folded (s : Text) : trim (folded s) = folded (trim s) := by
  have hend (t : Text) : trimEnd (folded t) = folded (trimEnd t) := by
    have hreverse (u : Text) : (folded u).reverse = folded u.reverse := List.map_reverse.symm
    unfold trimEnd
    rw [hreverse, dropWhile_folded isBlank_toLower, hreverse]
  unfold trim trimStart
  rw [dropWhile_folded isBlank_toLower, hend]

/-- **Splitting** at a mark that is no letter does not depend on case. -/
theorem splitFirst?_folded {mark : Char} (hmark : mark.isAlpha = false) (s : Text) :
    splitFirst? mark (folded s) = (splitFirst? mark s).map (Prod.map folded folded) := by
  induction s with
  | nil => rfl
  | cons c s ih =>
    by_cases hc : c = mark
    · rw [folded_cons, splitFirst?, splitFirst?, if_pos ((toLower_eq_iff hmark).mpr hc), if_pos hc]
      rfl
    · rw [folded_cons, splitFirst?, splitFirst?, if_neg (mt (toLower_eq_iff hmark).mp hc), if_neg hc,
        ih, Option.map_map, Option.map_map]
      rfl

/-! ## Heads and names -/

/-- **What follows a head** does not depend on the case of the text. -/
theorem afterFolded?_folded (head s : Text) :
    afterFolded? head (folded s) = (afterFolded? head s).map folded := by
  induction head generalizing s with
  | nil => rfl
  | cons h head ih =>
    cases s with
    | nil => rfl
    | cons c s =>
      rw [folded_cons, afterFolded?, afterFolded?, Char.toLower_toLower_eq_toLower]
      by_cases hc : h.toLower = c.toLower
      · rw [if_pos hc, if_pos hc, ih]
      · rw [if_neg hc, if_neg hc]
        rfl

/-- Nor on the case of the head. -/
theorem afterFolded?_folded_head (head s : Text) : afterFolded? (folded head) s = afterFolded? head s := by
  induction head generalizing s with
  | nil => rfl
  | cons h head ih =>
    cases s with
    | nil => rfl
    | cons c s => rw [folded_cons, afterFolded?, afterFolded?, Char.toLower_toLower_eq_toLower, ih]

/-- **Repeating a name** depends neither on the case of the text nor on that of the name. -/
theorem namesCommand_folded (text name : Text) :
    namesCommand (folded text) (folded name) = namesCommand text name := by
  have hempty : (folded name).isEmpty = name.isEmpty := by
    cases name with
    | nil => rfl
    | cons c name => rfl
  unfold namesCommand
  rw [hempty, afterFolded?_folded_head, afterFolded?_folded]
  rcases afterFolded? name text with - | (- | ⟨c, rest⟩)
  · rfl
  · rfl
  · rw [Option.map_some, folded_cons]
    simp only [isWordChar_toLower]

end Text

/-! ## Numbers -/

namespace Decimal

open Text

theorem toLower_of_isDigit {c : Char} (hc : c.isDigit = true) : c.toLower = c := by
  apply Char.toLower_eq_of_not_isUpper
  simp only [Char.isDigit, Char.isUpper, Bool.and_eq_true, decide_eq_true_eq, not_and] at hc ⊢
  intro hlow hhigh
  exact absurd (UInt32.le_trans hlow hc.2) (by decide)

theorem digits?_folded (acc : Nat) (s : Text) : digits? acc (folded s) = digits? acc s := by
  induction s generalizing acc with
  | nil => rfl
  | cons c s ih =>
    rw [folded_cons, digits?, digits?, apply_toLower Char.isDigit (by decide) c]
    by_cases hc : c.isDigit = true
    · rw [if_pos hc, if_pos hc, toLower_of_isDigit hc, ih]
    · rw [if_neg hc, if_neg hc]

theorem nat?_folded (s : Text) : nat? (folded s) = nat? s := by
  cases s with
  | nil => rfl
  | cons c s => exact digits?_folded 0 (c :: s)

/-- A number without a sign in front. -/
theorem int?_of_unsigned {c : Char} (hminus : c ≠ '-') (hplus : c ≠ '+') (s : Text) :
    int? (c :: s) = (nat? (c :: s)).map fun n => (n : Int) := by
  unfold int?
  split
  · rename_i hs
    exact absurd (List.cons.inj hs).1 hminus
  · rename_i hs
    exact absurd (List.cons.inj hs).1 hplus
  · rfl

/-- **Reading a number** does not depend on case: letters make it none. -/
theorem int32?_folded (s : Text) : int32? (folded s) = int32? s := by
  have hint : int? (folded s) = int? s := by
    cases s with
    | nil => rfl
    | cons c s =>
      by_cases hminus : c = '-'
      · rw [hminus]
        show (nat? (folded s)).map (fun n => -(n : Int)) = (nat? s).map fun n => -(n : Int)
        rw [nat?_folded]
      · by_cases hplus : c = '+'
        · rw [hplus]
          show (nat? (folded s)).map (fun n => (n : Int)) = (nat? s).map fun n => (n : Int)
          rw [nat?_folded]
        · have hminus' : c.toLower ≠ '-' := mt (toLower_eq_iff rfl).mp hminus
          have hplus' : c.toLower ≠ '+' := mt (toLower_eq_iff rfl).mp hplus
          rw [folded_cons, int?_of_unsigned hminus' hplus', int?_of_unsigned hminus hplus,
            ← folded_cons, nat?_folded]
  unfold int32?
  rw [hint]

end Decimal

end ModemLink
