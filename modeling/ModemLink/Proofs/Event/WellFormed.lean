/-
What holds of every table that is built.

However the entries have come to a level, by a call of their own, with a category or along a pattern, its tokens
are not empty and no two of them are the same, and a level that was restricted to delimiters has some. The bare
lines are a list of events. The lookup relies on all of this: it never tests an entry without a token, a bare line
never leads into a category, and the way down ends at the deepest level at the latest.
-/
import Mathlib
import ModemLink.Proofs.Event.Making

set_option autoImplicit false

namespace ModemLink

variable {ε : Type}

/-! ## Levels that calls restrict -/

mutual

/-- The paths of the levels that a call restricts to delimiters. -/
def LevelCall.restricted : LevelCall ε → List (List Text)
  | .event _ _ _ => []
  | .category token calls => (restrictedByAll calls).map (token :: ·)
  | .otherwise _ => []
  | .delimiters _ => [[]]

/-- The paths of the levels that several calls restrict. -/
def LevelCall.restrictedByAll : List (LevelCall ε) → List (List Text)
  | [] => []
  | call :: calls => call.restricted ++ restrictedByAll calls

end

/-- The paths of the levels that a call on a table restricts. -/
def TableCall.restricted : TableCall ε → List (List Text)
  | .level call => call.restricted
  | _ => []

theorem LevelCall.flatMap_restricted (calls : List (LevelCall ε)) :
    (calls.map TableCall.level).flatMap TableCall.restricted = restrictedByAll calls := by
  induction calls with
  | nil => rfl
  | cons call calls ih =>
    rw [List.map_cons, List.flatMap_cons, ih, restrictedByAll, TableCall.restricted]

namespace Level.Made

variable {calls : List (TableCall ε)} {l : Level ε}

/-- **The tree is proper,** in whatever way its entries have come to it. -/
theorem proper (h : l.Made calls) : l.entries.Proper := by
  induction h with
  | nil => exact .nil
  | event _ hne hnew ih => exact ih.append_entry (.event hne List.not_mem_nil .nil) rfl hnew
  | category _ _ hne hnew ih ihchild =>
    exact ih.append_entry (.category hne List.not_mem_nil ihchild .nil) rfl hnew
  | otherwise _ _ ih | delimiters _ _ ih | bare _ ih => exact ih
  | @pattern _ _ path _ _ _ _ _ htokens _ ih =>
    apply ih.insert
    intro w hw
    rw [← htokens] at hw
    exact (isWord_of_mem_patternTokens hw).ne_nil

/-- **A level has delimiters of its own** exactly if a call has restricted it. -/
theorem mem_restricted_iff (h : l.Made calls) (path : List Text) :
    path ∈ l.restricted ↔ path ∈ calls.flatMap TableCall.restricted := by
  induction h generalizing path with
  | nil => simp [Level.restricted, ownPath, Entries.restricted]
  | @event calls l token _ _ _ _ _ ih =>
    rw [List.flatMap_append, List.mem_append, ← ih]
    simp [Level.restricted, Entries.restricted, TableCall.restricted, LevelCall.restricted]
  | @category calls inner l child token _ _ _ _ ih ihchild =>
    have hchild (path : List Text) :
        path ∈ child.restricted ↔ path ∈ LevelCall.restrictedByAll inner := by
      rw [ihchild, LevelCall.flatMap_restricted]
    rw [List.flatMap_append, List.mem_append, ← ih]
    simp only [Level.restricted, Entries.restricted_append, Entries.restricted, TableCall.restricted,
      List.flatMap_singleton, LevelCall.restricted, List.mem_append, List.mem_map, ← hchild,
      List.append_nil, or_assoc]
  | otherwise _ _ ih =>
    rw [List.flatMap_append, List.mem_append, ← ih]
    simp [Level.restricted, TableCall.restricted, LevelCall.restricted]
  | @delimiters calls l chars _ hne ih =>
    rw [List.flatMap_append, List.mem_append, ← ih]
    simp only [Level.restricted, List.mem_append, mem_ownPath_iff, TableCall.restricted,
      List.flatMap_singleton, LevelCall.restricted, List.mem_singleton]
    tauto
  | pattern _ _ _ ih =>
    rw [List.flatMap_append, List.mem_append, ← ih]
    simp [Level.restricted, Entries.restricted_insert, TableCall.restricted]
  | bare _ ih =>
    rw [List.flatMap_append, List.mem_append, ← ih]
    simp [TableCall.restricted]

end Level.Made

/-! ## Tested entries -/

/-- **A level tests an entry** against a text, if no entry before it heads the text. -/
def Level.Tests (l : Level ε) (text : Text) (e : Text × Entry ε) : Prop :=
  ∃ before behind, l.entries.toList = before ++ e :: behind
    ∧ ∀ e' ∈ before, ∀ left, ¬ Heads l.delimiters e'.1 text left

theorem Level.Tests.token_ne_nil {l : Level ε} {text : Text} {e : Text × Entry ε}
    (h : l.Tests text e) (hproper : l.entries.Proper) : e.1 ≠ [] := by
  obtain ⟨before, behind, hlist, -⟩ := h
  have hmem : e ∈ l.entries.toList := by
    rw [hlist]
    exact List.mem_append_right before List.mem_cons_self
  intro hnil
  apply hproper.nil_not_mem_tokens
  rw [← hnil]
  exact Entries.mem_tokens_of_mem hmem

/-- A list of bare lines has nothing but events. -/
theorem Level.BareOf.exists_event {l : Level ε} {calls : List (TableCall ε)} (h : l.BareOf calls)
    {e : Text × Entry ε} (he : e ∈ l.entries.toList) : ∃ spec, e.2 = .event spec := by
  rw [h.toList_eq, List.mem_filterMap] at he
  obtain ⟨call, -, hcall⟩ := he
  cases call with
  | bare text event trailing =>
    cases hcall
    exact ⟨_, rfl⟩
  | level call | pattern path event trailing => cases hcall

/-! ## Tables -/

namespace EventTable

/-- **A well-formed table** of these calls. -/
structure WellFormed (calls : List (TableCall ε)) (t : EventTable ε) : Prop where
  /-- on no level of the tree is a token empty or there twice -/
  tokens (path : List Text) (l : Level ε) (hl : t.root.Has path l) :
    [] ∉ l.entries.tokens ∧ l.entries.tokens.Nodup
  /-- the levels with delimiters of their own are those that calls have restricted -/
  restricted (path : List Text) (l : Level ε) (hl : t.root.Has path l) :
    l.delimiters ≠ [] ↔ path ∈ calls.flatMap TableCall.restricted
  /-- and all of these are there -/
  exists_restricted (path : List Text) (hpath : path ∈ calls.flatMap TableCall.restricted) :
    ∃ l, t.root.Has path l
  bare_tokens : [] ∉ t.bare.entries.tokens ∧ t.bare.entries.tokens.Nodup
  bare_events (e : Text × Entry ε) (he : e ∈ t.bare.entries.toList) : ∃ spec, e.2 = .event spec
  bare_otherwise : t.bare.otherwise = none
  bare_delimiters : t.bare.delimiters = []

variable {calls : List (TableCall ε)} {t : EventTable ε}

theorem wellFormed_of_made (hroot : t.root.Made calls) (hbare : t.bare.BareOf calls) :
    t.WellFormed calls where
  tokens path l hl :=
    have hproper := hl.proper hroot.proper
    ⟨hproper.nil_not_mem_tokens, hproper.tokens_nodup⟩
  restricted path l hl := by
    rw [← hroot.mem_restricted_iff, Level.mem_restricted_iff]
    constructor
    · intro hown
      exact ⟨l, hl, hown⟩
    · rintro ⟨l', hl', hown⟩
      rw [hl.unique hroot.proper hl']
      exact hown
  exists_restricted path hpath := by
    obtain ⟨l, hl, -⟩ := Level.mem_restricted_iff.mp ((hroot.mem_restricted_iff path).mpr hpath)
    exact ⟨l, hl⟩
  bare_tokens := ⟨hbare.proper.nil_not_mem_tokens, hbare.proper.tokens_nodup⟩
  bare_events e he := hbare.exists_event he
  bare_otherwise := hbare.otherwise_eq
  bare_delimiters := hbare.delimiters_eq

/-- **Every table that is built is well-formed.** On the way of a text through the tree, and among the bare lines,
no entry without a token is tested; a bare line does not lead into a category; and every text ends its way no
further down than the tree is deep. -/
theorem well_formed_of_ofCalls (h : ofCalls calls = .ok t) :
    t.WellFormed calls
      ∧ (∀ text path l left e, t.root.Walk text path l left → l.Tests left e → e.1 ≠ [])
      ∧ (∀ line e, t.bare.Tests line e → e.1 ≠ [])
      ∧ (∀ line token child left, ¬ t.bare.Takes line token (.category child) left)
      ∧ (∃ path l, t.root.Has path l ∧ path.length = t.root.depth)
      ∧ ∀ text, (∃ path l left answer, t.root.Walk text path l left ∧ l.Ends left answer)
          ∧ ∀ path l left, t.root.Walk text path l left → path.length ≤ t.root.depth := by
  obtain ⟨hroot, hbare⟩ := made_of_ofCalls h
  have hwell := wellFormed_of_made hroot hbare
  refine ⟨hwell, ?_, ?_, ?_, t.root.exists_has_depth, fun text => ⟨t.root.exists_walk text, ?_⟩⟩
  · intro text path l left e hwalk htests
    exact htests.token_ne_nil (hwalk.has.proper hroot.proper)
  · intro line e htests
    exact htests.token_ne_nil hbare.proper
  · intro line token child left htakes
    obtain ⟨spec, hspec⟩ := hwell.bare_events _ htakes.mem
    cases hspec
  · intro path l left hwalk
    exact hwalk.has.length_le_depth

/-- A restricted category that patterns lead into, and one that only patterns have made. -/
theorem well_formed_with_patterns :
    let calls : List (TableCall Nat) :=
      [.category "EVT".toList
          [.delimiters [':'], .event "JOINED".toList 1, .category "RX".toList [.otherwise 2]],
        .pattern "+EVT,RX,1".toList 3, .pattern "+A,1".toList 4 2, .bare "ready".toList 5]
    ∃ t, ofCalls calls = .ok t ∧ t.WellFormed calls
      ∧ (∃ l, t.root.Has ["EVT".toList] l ∧ l.delimiters ≠ [])
      ∧ ∀ text path l left, t.root.Walk text path l left → path.length ≤ 2 := by
  intro calls
  have hbuilt : ∃ t, ofCalls calls = .ok t ∧ t.root.depth = 2 := by
    refine ⟨_, rfl, ?_⟩
    decide +kernel
  obtain ⟨t, ht, hdepth⟩ := hbuilt
  obtain ⟨hwell, -, -, -, -, hwalks⟩ := well_formed_of_ofCalls ht
  refine ⟨t, ht, hwell, ?_, ?_⟩
  · have hpath : ["EVT".toList] ∈ calls.flatMap TableCall.restricted := by decide
    obtain ⟨l, hl⟩ := hwell.exists_restricted _ hpath
    exact ⟨l, hl, (hwell.restricted _ l hl).mpr hpath⟩
  · intro text path l left hwalk
    rw [← hdepth]
    exact (hwalks text).2 path l left hwalk

end EventTable

end ModemLink
