/-
The longest beginning of a text that fits into so many bytes.

`Text.fitting` takes characters as long as there is room for them. Here it is told apart from how it is
computed: it is the one beginning that is within the room and is begun by every other such beginning. What
follows a text matters to it only if the text fits completely.
-/
import ModemLink.Text.Basic

set_option autoImplicit false

namespace ModemLink.Text

/-- **The longest beginning that fits:** it begins the text and is within the capacity, and any other
beginning within the capacity begins it. -/
structure IsLongestFit (capacity : Nat) (full part : Text) : Prop where
  begins : part <+: full
  fits : part.byteLength ≤ capacity
  longest (other : Text) : other <+: full → other.byteLength ≤ capacity → other <+: part

theorem IsLongestFit.unique {capacity : Nat} {full part part' : Text}
    (h : IsLongestFit capacity full part) (h' : IsLongestFit capacity full part') : part = part' := by
  have hle := (h'.longest part h.begins h.fits).length_le
  have hge := h.longest part' h'.begins h'.fits
  exact (hge.eq_of_length (Nat.le_antisymm hge.length_le hle)).symm

theorem byteLength_le_of_begins {s t : Text} (h : s <+: t) : s.byteLength ≤ t.byteLength := by
  obtain ⟨rest, rfl⟩ := h
  rw [byteLength_append]
  exact Nat.le_add_right _ _

/-- What fits completely is not cut. -/
theorem fitting_of_le {room : Nat} {s : Text} (h : s.byteLength ≤ room) : fitting room s = s := by
  induction s generalizing room with
  | nil => rfl
  | cons c s ih =>
    rw [byteLength_cons] at h
    rw [fitting, if_pos (by omega), ih (by omega)]

/-- Without room there is not even one character. -/
theorem fitting_zero (s : Text) : fitting 0 s = [] := by
  cases s with
  | nil => rfl
  | cons c s =>
    have hpos := c.utf8Size_pos
    rw [fitting, if_neg (by omega)]

/-- What follows a text that is cut does not matter. -/
theorem fitting_append_of_lt {room : Nat} {s : Text} (h : room < s.byteLength) (t : Text) :
    fitting room (s ++ t) = fitting room s := by
  induction s generalizing room with
  | nil => exact absurd h (Nat.not_lt_zero room)
  | cons c s ih =>
    rw [byteLength_cons] at h
    rw [List.cons_append, fitting, fitting]
    by_cases hc : c.utf8Size ≤ room
    · rw [if_pos hc, if_pos hc, ih (by omega)]
    · rw [if_neg hc, if_neg hc]

/-- What follows a text that fits has the room that is left. -/
theorem fitting_append_of_le {room : Nat} {s : Text} (h : s.byteLength ≤ room) (t : Text) :
    fitting room (s ++ t) = s ++ fitting (room - s.byteLength) t := by
  induction s generalizing room with
  | nil => rfl
  | cons c s ih =>
    rw [byteLength_cons] at h
    rw [List.cons_append, fitting, if_pos (by omega), ih (by omega), byteLength_cons, Nat.sub_sub]
    rfl

/-- A text that does not fit is cut before a character that is too long for the room left. -/
theorem exists_of_lt {room : Nat} {s : Text} (h : room < s.byteLength) :
    ∃ c rest, s = fitting room s ++ c :: rest
      ∧ room - (fitting room s).byteLength < c.utf8Size := by
  induction s generalizing room with
  | nil => exact absurd h (Nat.not_lt_zero room)
  | cons c s ih =>
    rw [byteLength_cons] at h
    by_cases hc : c.utf8Size ≤ room
    · have hleft : room - c.utf8Size < byteLength s := by omega
      obtain ⟨d, rest, hs, hd⟩ := ih hleft
      refine ⟨d, rest, ?_, ?_⟩
      · rw [fitting, if_pos hc, List.cons_append, ← hs]
      · rw [fitting, if_pos hc, byteLength_cons]
        omega
    · refine ⟨c, s, ?_, ?_⟩
      · rw [fitting, if_neg hc]
        rfl
      · rw [fitting, if_neg hc, byteLength_nil]
        omega

/-- **Cutting yields the longest beginning that fits.** -/
theorem isLongestFit_fitting (capacity : Nat) (s : Text) :
    IsLongestFit capacity s (fitting capacity s) := by
  by_cases h : s.byteLength ≤ capacity
  · rw [fitting_of_le h]
    exact ⟨List.prefix_rfl, h, fun _ hother _ => hother⟩
  · obtain ⟨c, rest, hs, hc⟩ := exists_of_lt (Nat.lt_of_not_le h)
    refine ⟨⟨c :: rest, hs.symm⟩, byteLength_fitting_le capacity s, fun other hother hfits => ?_⟩
    -- a longer beginning would hold the character that is too long
    rcases List.prefix_or_prefix_of_prefix hother ⟨c :: rest, hs.symm⟩ with hle | ⟨more, rfl⟩
    · exact hle
    · cases more with
      | nil => exact ⟨[], (List.append_nil _).trans (List.append_nil _)⟩
      | cons d more =>
        generalize fitting capacity s = part at *
        rw [hs, List.prefix_append_right_inj] at hother
        obtain ⟨rfl, -⟩ := List.cons_prefix_cons.mp hother
        rw [byteLength_append, byteLength_cons] at hfits
        omega

end ModemLink.Text
