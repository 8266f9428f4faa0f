/-
One more entry.

The first entry that heads a text takes it, so an entry that is added behind all others gets what none of them
heads, and nothing else. A table with one more call for an event or a category answers every other text as
before: what an earlier entry heads stays with this entry, even if the lookup fails further down, and what the
new token does not head is still left to the event for the rest, or unknown.
-/
import ModemLink.Proofs.Event.Making

set_option autoImplicit false

namespace ModemLink

variable {ε : Type}

/-! ## One level -/

namespace Level

/-- **A level with one more entry,** behind the others. -/
structure Appended (l : Level ε) (token : Text) (entry : Entry ε) (l' : Level ε) : Prop where
  delimiters_eq : l'.delimiters = l.delimiters
  otherwise_eq : l'.otherwise = l.otherwise
  toList_eq : l'.entries.toList = l.entries.toList ++ [(token, entry)]

namespace Appended

variable {l l' : Level ε} {token text : Text} {entry : Entry ε}

/-- The entry is tested last. -/
theorem first?_eq (h : l.Appended token entry l') (text : Text) :
    l'.first? text = (l.first? text).or (test l.delimiters text (token, entry)) := by
  unfold first?
  rw [h.toList_eq, h.delimiters_eq, List.findSome?_append, List.findSome?_singleton]

theorem resolve?_eq_of_first?_eq (h : l.Appended token entry l')
    (hfirst : l'.first? text = l.first? text) : l'.resolve? text = l.resolve? text := by
  rw [resolve?_eq_first?, resolve?_eq_first?, hfirst, h.otherwise_eq]

/-- What the level does not pass over stays as it is. -/
theorem resolve?_of_not_passes (h : l.Appended token entry l') (htaken : ¬ l.Passes text) :
    l'.resolve? text = l.resolve? text := by
  apply h.resolve?_eq_of_first?_eq
  obtain ⟨found, hfound⟩ := Option.ne_none_iff_exists'.mp (mt first?_eq_none_iff.mp htaken)
  rw [h.first?_eq, hfound, Option.some_or]

/-- So does what the new token does not head. -/
theorem resolve?_of_not_heads (h : l.Appended token entry l')
    (hother : ∀ left, ¬ Heads l.delimiters token text left) :
    l'.resolve? text = l.resolve? text := by
  apply h.resolve?_eq_of_first?_eq
  rw [h.first?_eq, test_eq_none_iff.mpr hother, Option.or_none]

end Appended

end Level

/-! ## Calls that append -/

/-- The token of the entry that a call appends to its level. -/
def LevelCall.token? : LevelCall ε → Option Text
  | .event token _ _ => some token
  | .category token _ => some token
  | .otherwise _ => none
  | .delimiters _ => none

namespace Draft

theorem appended_of_addEntry {d : Draft ε} {token : Text} {entries : Entries ε} {entry : Entry ε}
    (hentries : entries.toList = [(token, entry)]) (h : (d.addEntry token entries).fault = none) :
    d.level.Appended token entry (d.addEntry token entries).level := by
  obtain ⟨-, -, hadded⟩ := addEntry_of_fault_eq_none h
  rw [hadded]
  refine ⟨rfl, rfl, ?_⟩
  rw [Entries.toList_append, hentries]

theorem appended_of_apply {d : Draft ε} {call : LevelCall ε} {token : Text}
    (htoken : call.token? = some token) (h : (apply call d).fault = none) :
    ∃ entry, d.level.Appended token entry (apply call d).level := by
  cases call with
  | event t event trailing =>
    cases htoken
    rw [apply] at h ⊢
    exact ⟨_, appended_of_addEntry rfl h⟩
  | category t calls =>
    cases htoken
    rw [apply] at h ⊢
    obtain ⟨-, hcategory⟩ := addCategory_of_fault_eq_none h
    rw [hcategory] at h ⊢
    exact ⟨_, appended_of_addEntry rfl h⟩
  | otherwise | delimiters => cases htoken

end Draft

/-! ## Tables -/

namespace EventTable

variable {calls : List (TableCall ε)} {call : LevelCall ε} {token : Text} {t u : EventTable ε}

theorem appended_of_ofCalls (htoken : call.token? = some token) (ht : ofCalls calls = .ok t)
    (hu : ofCalls (calls ++ [.level call]) = .ok u) :
    (∃ entry, t.root.Appended token entry u.root) ∧ u.bare = t.bare := by
  obtain ⟨-, -, rfl⟩ := (ofCalls_eq_ok_iff calls t).mp ht
  obtain ⟨-, hroot, rfl⟩ := (ofCalls_eq_ok_iff _ u).mp hu
  rw [TableDraft.applyAll_concat] at hroot ⊢
  exact ⟨Draft.appended_of_apply htoken hroot, rfl⟩

theorem resolve_eq_of_root {text : Text} (h : u.root.resolve? text = t.root.resolve? text) :
    u.resolve text = t.resolve text := by
  unfold resolve
  rw [h]

/-- What the top level passes over is left to its event for the rest, or unknown. -/
theorem resolve_of_passes {text : Text} (h : t.root.Passes text) :
    (∃ spec, t.root.otherwise = some spec ∧ t.resolve text = .ok (spec.matched text))
      ∨ t.root.otherwise = none ∧ t.resolve text = .error (.unknownEvent text) := by
  have hanswer := h.resolve?_eq
  cases hotherwise : t.root.otherwise with
  | some spec =>
    rw [hotherwise, Option.map_some] at hanswer
    exact .inl ⟨spec, rfl, (t.resolve_eq_ok_iff text _).mpr hanswer⟩
  | none =>
    rw [hotherwise, Option.map_none] at hanswer
    exact .inr ⟨rfl, (t.resolve_eq_error_iff text _).mpr ⟨rfl, hanswer⟩⟩

/-- **One more entry changes no answer** to a text that an earlier entry of the top level heads, or that the new
one does not head. A text with another answer is headed by the new token and by no earlier one, and was left to
the event for the rest of the level before, or was unknown. Bare lines are looked up as before. -/
theorem appending_conservative (htoken : call.token? = some token) (ht : ofCalls calls = .ok t)
    (hu : ofCalls (calls ++ [.level call]) = .ok u) :
    (∀ text, (∃ e ∈ t.root.entries.toList, ∃ left, Heads t.root.delimiters e.1 text left) →
        u.resolve text = t.resolve text)
      ∧ (∀ text, (∀ left, ¬ Heads t.root.delimiters token text left) →
        u.resolve text = t.resolve text)
      ∧ (∀ text, u.resolve text ≠ t.resolve text →
        (∃ left, Heads t.root.delimiters token text left) ∧ t.root.Passes text
          ∧ ((∃ spec, t.root.otherwise = some spec ∧ t.resolve text = .ok (spec.matched text))
            ∨ t.root.otherwise = none ∧ t.resolve text = .error (.unknownEvent text)))
      ∧ ∀ line, u.resolveBare line = t.resolveBare line := by
  obtain ⟨⟨entry, happended⟩, hbare⟩ := appended_of_ofCalls htoken ht hu
  refine ⟨?_, ?_, ?_, ?_⟩
  · rintro text ⟨e, he, left, hheads⟩
    exact resolve_eq_of_root (happended.resolve?_of_not_passes fun hpasses => hpasses e he left hheads)
  · intro text hother
    exact resolve_eq_of_root (happended.resolve?_of_not_heads hother)
  · intro text hchanged
    have hpasses : t.root.Passes text := by
      by_contra htaken
      exact hchanged (resolve_eq_of_root (happended.resolve?_of_not_passes htaken))
    refine ⟨?_, hpasses, resolve_of_passes hpasses⟩
    by_contra hother
    exact hchanged (resolve_eq_of_root (happended.resolve?_of_not_heads (not_exists.mp hother)))
  · intro line
    unfold resolveBare
    rw [hbare]

/-- A category takes texts from the event for the rest, and leaves some of them unknown; what an earlier event
heads is not touched. -/
theorem appending_category_conservative :
    let calls : List (TableCall Nat) := [.event "RX".toList 1, .otherwise 2, .bare "ready".toList 3]
    let call : LevelCall Nat := .category "TX".toList [.event "OK".toList 4]
    ∃ t u, ofCalls calls = .ok t ∧ ofCalls (calls ++ [.level call]) = .ok u
      ∧ u.resolve "RX:TX".toList = t.resolve "RX:TX".toList
      ∧ u.resolve "UP".toList = t.resolve "UP".toList
      ∧ (∀ line, u.resolveBare line = t.resolveBare line)
      ∧ t.resolve "TX:OK".toList = .ok ⟨2, "TX:OK".toList, 0⟩
      ∧ u.resolve "TX:OK".toList = .ok ⟨4, [], 0⟩
      ∧ u.resolve "TX:NO".toList = .error (.unknownEvent "TX:NO".toList) := by
  intro calls call
  obtain ⟨hheaded, hother, -, hbare⟩ :=
    @appending_conservative Nat calls call _ _ _ rfl rfl rfl
  refine ⟨_, _, rfl, rfl, ?_, ?_, hbare, rfl, rfl, rfl⟩
  · exact hheaded _ ⟨("RX".toList, .event ⟨1, 0⟩), List.mem_cons_self, "TX".toList,
      headed?_eq_some_iff.mp rfl⟩
  · exact hother _ (headed?_eq_none_iff.mp rfl)

end EventTable

end ModemLink
