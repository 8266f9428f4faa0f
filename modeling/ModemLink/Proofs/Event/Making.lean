/-
How calls make a table.

A table that is built has carried out all of its calls. What each of them has done to its level is said here by
one case for each kind of call, so that whatever holds of the tables that are built can be shown by induction on
their making: of the empty level, and of one more call. A category is made by calls of its own before it comes to
its level, and patterns may lead into it later.

The bare lines stand apart from the tree. They are no more than a list.
-/
import Mathlib
import ModemLink.Proofs.Event.FirstFault
import ModemLink.Proofs.Event.Levels

set_option autoImplicit false

namespace ModemLink

variable {ε : Type}

/-! ## Calls on the tree -/

/-- **Calls make a level.** Each call on it is one of these, and finds the level as it must be. -/
inductive Level.Made : List (TableCall ε) → Level ε → Prop where
  | nil : Made [] {}
  | event {calls : List (TableCall ε)} {l : Level ε} {token : Text} {event : ε} {trailing : Nat}
    (hmade : Made calls l) (hne : token ≠ []) (hnew : token ∉ l.entries.tokens) :
    Made (calls ++ [.level (.event token event trailing)])
      { l with entries := l.entries.append (.event token ⟨event, trailing⟩ .nil) }
  | category {calls : List (TableCall ε)} {inner : List (LevelCall ε)} {l child : Level ε}
    {token : Text} (hmade : Made calls l) (hchild : Made (inner.map .level) child) (hne : token ≠ [])
    (hnew : token ∉ l.entries.tokens) :
    Made (calls ++ [.level (.category token inner)])
      { l with
        entries := l.entries.append
          (.category token child.delimiters child.otherwise child.entries .nil) }
  | otherwise {calls : List (TableCall ε)} {l : Level ε} {event : ε} (hmade : Made calls l)
    (hnone : l.otherwise = none) :
    Made (calls ++ [.level (.otherwise event)]) { l with otherwise := some ⟨event, 0⟩ }
  | delimiters {calls : List (TableCall ε)} {l : Level ε} {chars : List Char} (hmade : Made calls l)
    (hne : chars ≠ []) :
    Made (calls ++ [.level (.delimiters chars)]) { l with delimiters := chars }
  | pattern {calls : List (TableCall ε)} {l : Level ε} {path token : Text} {more : List Text}
    {event : ε} {trailing : Nat} (hmade : Made calls l) (htokens : patternTokens path = token :: more)
    (hadded : (l.entries.insert ⟨event, trailing⟩ token more).2 = none) :
    Made (calls ++ [.pattern path event trailing])
      { l with entries := (l.entries.insert ⟨event, trailing⟩ token more).1 }
  | bare {calls : List (TableCall ε)} {l : Level ε} {text : Text} {event : ε} {trailing : Nat}
    (hmade : Made calls l) : Made (calls ++ [.bare text event trailing]) l

namespace Draft

/-! ### What a call that did not fail has done -/

theorem addEntry_of_fault_eq_none {d : Draft ε} {token : Text} {entry : Entries ε}
    (h : (d.addEntry token entry).fault = none) :
    token ≠ [] ∧ token ∉ d.level.entries.tokens
      ∧ d.addEntry token entry
          = { d with level := { d.level with entries := d.level.entries.append entry } } := by
  unfold addEntry at h ⊢
  by_cases hempty : token = []
  · rw [if_pos hempty] at h
    exact absurd h (fault_fail _ d)
  · rw [if_neg hempty] at h ⊢
    by_cases htwice : token ∈ d.level.entries.tokens
    · rw [if_pos htwice] at h
      exact absurd h (fault_fail _ d)
    · rw [if_neg htwice]
      exact ⟨hempty, htwice, rfl⟩

theorem addCategory_of_fault_eq_none {d child : Draft ε} {token : Text}
    (h : (addCategory token child d).fault = none) :
    child.fault = none
      ∧ addCategory token child d = d.addEntry token
          (.category token child.level.delimiters child.level.otherwise child.level.entries .nil) := by
  unfold addCategory at h ⊢
  cases hchild : child.fault with
  | some f =>
    rw [hchild] at h
    exact absurd h (fault_fail f d)
  | none => exact ⟨rfl, rfl⟩

/-- There was no fault before, if it would have been kept and there is none now. -/
theorem eq_none_of_kept {before after : Option TableFault}
    (hkept : ∀ f, before = some f → after = some f) (h : after = none) : before = none := by
  cases before with
  | none => rfl
  | some f =>
    rw [hkept f rfl] at h
    cases h

open Level (Made)

mutual

/-- **One call** that does not fail goes on with the making of its level. -/
theorem made_apply {d : Draft ε} {before : List (TableCall ε)} (hmade : Made before d.level) :
    (call : LevelCall ε) → (apply call d).fault = none →
      Made (before ++ [.level call]) (apply call d).level
  | .event token event trailing, h => by
    rw [apply] at h ⊢
    obtain ⟨hne, hnew, hadded⟩ := addEntry_of_fault_eq_none h
    rw [hadded]
    exact .event hmade hne hnew
  | .category token inner, h => by
    rw [apply] at h ⊢
    obtain ⟨hinner, hcategory⟩ := addCategory_of_fault_eq_none h
    rw [hcategory] at h ⊢
    obtain ⟨hne, hnew, hadded⟩ := addEntry_of_fault_eq_none h
    have hchild := made_applyAll (d := {}) .nil inner hinner
    rw [List.nil_append] at hchild
    rw [hadded]
    exact .category hmade hchild hne hnew
  | .otherwise event, h => by
    rw [apply, setOtherwise] at h ⊢
    cases hset : d.level.otherwise with
    | some spec =>
      rw [hset] at h
      exact absurd h (fault_fail _ d)
    | none => exact .otherwise hmade hset
  | .delimiters chars, h => by
    rw [apply, setDelimiters] at h ⊢
    by_cases hempty : chars = []
    · rw [if_pos hempty] at h
      exact absurd h (fault_fail _ d)
    · rw [if_neg hempty]
      exact .delimiters hmade hempty

/-- **Calls in a row** that do not fail, one after the other. -/
theorem made_applyAll {d : Draft ε} {before : List (TableCall ε)} (hmade : Made before d.level) :
    (calls : List (LevelCall ε)) → (applyAll calls d).fault = none →
      Made (before ++ calls.map .level) (applyAll calls d).level
  | [], _ => by
    rw [List.map_nil, List.append_nil]
    exact hmade
  | call :: calls, h => by
    rw [applyAll] at h ⊢
    have hnone := eq_none_of_kept (fun _ hf => applyAll_fault hf calls) h
    have hfirst := made_apply hmade call hnone
    have hmore := made_applyAll hfirst calls h
    rw [List.append_assoc] at hmore
    exact hmore

end

theorem made_addPattern {d : Draft ε} {before : List (TableCall ε)} (hmade : Made before d.level)
    {path : Text} {event : ε} {trailing : Nat}
    (h : (TableDraft.addPattern path ⟨event, trailing⟩ d).fault = none) :
    Made (before ++ [.pattern path event trailing])
      (TableDraft.addPattern path ⟨event, trailing⟩ d).level := by
  unfold TableDraft.addPattern at h ⊢
  cases htokens : patternTokens path with
  | nil =>
    rw [htokens] at h
    exact absurd h (fault_fail _ d)
  | cons token more =>
    rw [htokens] at h
    simp only at h ⊢
    cases hadded : (d.level.entries.insert ⟨event, trailing⟩ token more).2 with
    | some f =>
      rw [hadded] at h
      cases f <;> exact absurd h (fault_fail _ _)
    | none => exact .pattern hmade htokens hadded

end Draft

/-! ## Bare lines -/

/-- The entry of a bare line. -/
def TableCall.bareEntry? : TableCall ε → Option (Text × Entry ε)
  | .bare text event trailing => some (text, .event ⟨event, trailing⟩)
  | _ => none

/-- **Calls make a list of bare lines.** It has nothing else, and no line twice. -/
structure Level.BareOf (l : Level ε) (calls : List (TableCall ε)) : Prop where
  delimiters_eq : l.delimiters = []
  otherwise_eq : l.otherwise = none
  toList_eq : l.entries.toList = calls.filterMap TableCall.bareEntry?
  proper : l.entries.Proper

namespace TableDraft

theorem addBare_of_fault_eq_none {d : Draft ε} {text : Text} {spec : EventSpec ε}
    (h : (addBare text spec d).fault = none) :
    text ≠ [] ∧ text ∉ d.level.entries.tokens
      ∧ addBare text spec d = { d with level :=
          { d.level with entries := d.level.entries.append (.event text spec .nil) } } := by
  unfold addBare at h ⊢
  by_cases hempty : text = []
  · rw [if_pos hempty] at h
    exact absurd h (Draft.fault_fail _ d)
  · rw [if_neg hempty] at h ⊢
    by_cases htwice : text ∈ d.level.entries.tokens
    · rw [if_pos htwice] at h
      exact absurd h (Draft.fault_fail _ d)
    · rw [if_neg htwice]
      exact ⟨hempty, htwice, rfl⟩

theorem bareOf_addBare {d : Draft ε} {before : List (TableCall ε)} (hbare : d.level.BareOf before)
    {text : Text} {event : ε} {trailing : Nat} (h : (addBare text ⟨event, trailing⟩ d).fault = none) :
    (addBare text ⟨event, trailing⟩ d).level.BareOf (before ++ [.bare text event trailing]) := by
  obtain ⟨hne, hnew, hadded⟩ := addBare_of_fault_eq_none h
  rw [hadded]
  refine ⟨hbare.delimiters_eq, hbare.otherwise_eq, ?_, ?_⟩
  · rw [Entries.toList_append, hbare.toList_eq, List.filterMap_append]
    rfl
  · exact hbare.proper.append_entry (.event hne List.not_mem_nil .nil) rfl hnew

/-! ## Tables -/

/-- Calls that do not fail have made the tree. -/
theorem made_root {calls : List (TableCall ε)} (h : (applyAll calls {}).root.fault = none) :
    Level.Made calls (applyAll calls {}).root.level := by
  induction calls using List.reverseRecOn with
  | nil => exact .nil
  | append_singleton calls call ih =>
    rw [applyAll_concat] at h ⊢
    have hnone := Draft.eq_none_of_kept (fun _ hf => tracks_root.kept hf call) h
    have hbefore := ih hnone
    cases call with
    | level call => exact Draft.made_apply hbefore call h
    | pattern path event trailing => exact Draft.made_addPattern hbefore h
    | bare text event trailing => exact .bare hbefore

/-- And the bare lines. -/
theorem bareOf_bare {calls : List (TableCall ε)} (h : (applyAll calls {}).bare.fault = none) :
    (applyAll calls {}).bare.level.BareOf calls := by
  induction calls using List.reverseRecOn with
  | nil => exact ⟨rfl, rfl, rfl, .nil⟩
  | append_singleton calls call ih =>
    rw [applyAll_concat] at h ⊢
    have hnone := Draft.eq_none_of_kept (fun _ hf => tracks_bare.kept hf call) h
    have hbefore := ih hnone
    cases call with
    | bare text event trailing => exact bareOf_addBare hbefore h
    | level call | pattern path event trailing =>
      refine ⟨hbefore.delimiters_eq, hbefore.otherwise_eq, ?_, hbefore.proper⟩
      rw [List.filterMap_append]
      exact hbefore.toList_eq.trans (List.append_nil _).symm

end TableDraft

namespace EventTable

theorem ofCalls_eq_ok_iff (calls : List (TableCall ε)) (t : EventTable ε) :
    ofCalls calls = .ok t
      ↔ (TableDraft.applyAll calls {}).bare.fault = none
        ∧ (TableDraft.applyAll calls {}).root.fault = none
        ∧ ⟨(TableDraft.applyAll calls {}).root.level, (TableDraft.applyAll calls {}).bare.level⟩ = t :=
  TableDraft.build_eq_ok_iff _ t

variable {calls : List (TableCall ε)} {t : EventTable ε}

/-- **A table that is built is made by its calls.** -/
theorem made_of_ofCalls (h : ofCalls calls = .ok t) : t.root.Made calls ∧ t.bare.BareOf calls := by
  obtain ⟨hbare, hroot, rfl⟩ := (ofCalls_eq_ok_iff calls t).mp h
  exact ⟨TableDraft.made_root hroot, TableDraft.bareOf_bare hbare⟩

end EventTable

end ModemLink
