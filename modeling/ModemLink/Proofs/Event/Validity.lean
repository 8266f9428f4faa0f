/-
Which calls are valid.

Whether a call can be carried out is said here from the calls before it, without a table: they have set tokens
and paths, events for the rest of a level, and bare texts, and the call must not set again what they have set.
The calls inside a category start afresh, and the first invalid one of them makes the category invalid.

A draft that has carried out valid calls has exactly their places, so the next call fails exactly if it is
invalid, with the fault that is said here.
-/
import ModemLink.Proofs.Event.Patterns
import ModemLink.Proofs.Event.Places

set_option autoImplicit false

namespace ModemLink

variable {ε : Type}

/-! ## What calls set -/

mutual

/-- The places that a call takes on its level and below it. -/
def LevelCall.places : LevelCall ε → List Place
  | .event token _ _ => [⟨[token], .event⟩]
  | .category token calls => ⟨[token], .category⟩ :: (placesOfAll calls).map (Place.below token)
  | .otherwise _ => []
  | .delimiters _ => []

/-- The places that several calls take. -/
def LevelCall.placesOfAll : List (LevelCall ε) → List Place
  | [] => []
  | call :: calls => call.places ++ placesOfAll calls

end

namespace TableCall

/-- The places that a call takes. A bare line takes none. -/
def places : TableCall ε → List Place
  | .level call => call.places
  | .pattern path _ _ => pathPlaces (patternTokens path)
  | .bare _ _ _ => []

/-- Whether a call sets the event for the rest of its level. -/
def isOtherwise : TableCall ε → Bool
  | .level (.otherwise _) => true
  | _ => false

/-- The text of a bare line. -/
def bareText? : TableCall ε → Option Text
  | .bare text _ _ => some text
  | _ => none

/-- Whether a call adds a bare line. -/
def isBare (call : TableCall ε) : Bool := call.bareText?.isSome

end TableCall

theorem LevelCall.flatMap_places (calls : List (LevelCall ε)) :
    (calls.map TableCall.level).flatMap TableCall.places = placesOfAll calls := by
  induction calls with
  | nil => rfl
  | cons call calls ih => rw [List.map_cons, List.flatMap_cons, ih, placesOfAll, TableCall.places]

/-! ## Valid calls -/

mutual

/-- **Why a call on a level is invalid** behind the calls that were made there before. -/
def LevelCall.fault? : LevelCall ε → (before : List (TableCall ε)) → Option TableFault
  | .event token _ _, before => tokenFault? (before.flatMap TableCall.places) token
  | .category token calls, before =>
    firstFault? calls [] <|> tokenFault? (before.flatMap TableCall.places) token
  | .otherwise _, before => if before.any TableCall.isOtherwise then some .otherwiseTwice else none
  | .delimiters chars, _ => if chars = [] then some .delimitersEmpty else none

/-- The fault of the first invalid one of several calls on a level. -/
def LevelCall.firstFault? : List (LevelCall ε) → (before : List (TableCall ε)) → Option TableFault
  | [], _ => none
  | call :: calls, before => call.fault? before <|> firstFault? calls (before ++ [.level call])

end

/-- **Why a call is invalid** behind the calls before it. -/
def TableCall.fault? (call : TableCall ε) (before : List (TableCall ε)) : Option TableFault :=
  match call with
  | .level call => call.fault? before
  | .pattern path _ _ =>
    if patternTokens path = [] then some (.patternEmpty path)
    else (pathFault? (before.flatMap places) (patternTokens path)).map fun
      | .through token => .patternThroughEvent path token
      | .taken => .patternTwice path
  | .bare text _ _ =>
    if text = [] then some .bareEmpty
    else if (before.filterMap bareText?).contains text then some (.bareTwice text)
    else none

/-! ## Drafts of levels -/

namespace Draft

/-- **A draft holds calls** that it has carried out: it has their places and no others, no token twice, and
an event for the rest if one of them has set it. -/
structure Holds (d : Draft ε) (calls : List (TableCall ε)) : Prop where
  fault_eq : d.fault = none
  proper : d.level.entries.Proper
  mem_places (p : Place) : p ∈ d.level.entries.places ↔ p ∈ calls.flatMap TableCall.places
  isSome_otherwise : d.level.otherwise.isSome = calls.any TableCall.isOtherwise

/-- What has become of a draft behind calls with this first fault: it remembers the fault, and without one
it holds the calls. -/
def Shows (holds : Draft ε → List (TableCall ε) → Prop) (d : Draft ε) (calls : List (TableCall ε)) :
    Option TableFault → Prop
  | none => holds d calls
  | some f => d.fault = some f

theorem holds_nil : ({} : Draft ε).Holds [] where
  fault_eq := rfl
  proper := .nil
  mem_places _ := iff_of_false List.not_mem_nil List.not_mem_nil
  isSome_otherwise := rfl

theorem Shows.fault_eq {d : Draft ε} {calls : List (TableCall ε)} {fault : Option TableFault}
    (h : Shows Holds d calls fault) : d.fault = fault := by
  cases fault with
  | none => exact Holds.fault_eq h
  | some f => exact h

/-! ### The first fault is kept -/

theorem addEntry_fault {d : Draft ε} {f : TableFault} (h : d.fault = some f) (token : Text)
    (entry : Entries ε) : (d.addEntry token entry).fault = some f := by
  unfold addEntry
  split
  · exact fail_fault h _
  · split
    · exact fail_fault h _
    · exact h

theorem apply_fault {d : Draft ε} {f : TableFault} (h : d.fault = some f) (call : LevelCall ε) :
    (apply call d).fault = some f := by
  cases call with
  | event token event trailing => exact addEntry_fault h token _
  | category token calls =>
    rw [apply, addCategory]
    split
    · exact fail_fault h _
    · exact addEntry_fault h token _
  | otherwise event =>
    rw [apply, setOtherwise]
    split
    · exact fail_fault h _
    · exact h
  | delimiters chars =>
    rw [apply, setDelimiters]
    split
    · exact fail_fault h _
    · exact h

theorem applyAll_fault {d : Draft ε} {f : TableFault} (h : d.fault = some f)
    (calls : List (LevelCall ε)) : (applyAll calls d).fault = some f := by
  induction calls generalizing d with
  | nil => exact h
  | cons call calls ih => exact ih (apply_fault h call)

/-! ### What one call does -/

namespace Holds

variable {d : Draft ε} {before : List (TableCall ε)}

theorem mem_paths (h : d.Holds before) (path : List Text) :
    path ∈ d.level.entries.places.map Place.path
      ↔ path ∈ (before.flatMap TableCall.places).map Place.path := by
  simp only [mem_paths_iff, h.mem_places]

/-- **An entry is added** if its token is not empty and free. -/
theorem addEntry (h : d.Holds before) {token : Text} {entry : Entries ε} {call : LevelCall ε}
    (htokens : entry.tokens = [token]) (hproper : token ≠ [] → entry.Proper)
    (hplaces : ∀ p, p ∈ entry.places ↔ p ∈ call.places)
    (hother : (TableCall.level call).isOtherwise = false) :
    Shows Holds (d.addEntry token entry) (before ++ [.level call])
      (tokenFault? (before.flatMap TableCall.places) token) := by
  unfold Draft.addEntry tokenFault?
  by_cases hempty : token = []
  · rw [if_pos hempty, if_pos hempty]
    exact fail_fault_of_none h.fault_eq _
  · rw [if_neg hempty, if_neg hempty]
    have htaken : token ∈ d.level.entries.tokens
        ↔ [token] ∈ (before.flatMap TableCall.places).map Place.path := by
      rw [Entries.mem_tokens_iff, h.mem_paths]
    by_cases htwice : token ∈ d.level.entries.tokens
    · rw [if_pos htwice, if_pos (htaken.mp htwice)]
      exact fail_fault_of_none h.fault_eq _
    · rw [if_neg htwice, if_neg (mt htaken.mpr htwice)]
      refine ⟨h.fault_eq, ?_, fun p => ?_, ?_⟩
      · apply h.proper.append (hproper hempty)
        rw [htokens]
        intro t ht hmem
        rw [List.mem_singleton.mp hmem] at ht
        exact htwice ht
      · simp [h.mem_places, hplaces, TableCall.places]
      · simp [h.isSome_otherwise, hother]

/-- **The event for the rest** is set if it has not been set. -/
theorem setOtherwise (h : d.Holds before) (event : ε) :
    Shows Holds (d.setOtherwise event) (before ++ [.level (.otherwise event)])
      ((LevelCall.otherwise event).fault? before) := by
  have hsome := h.isSome_otherwise
  unfold Draft.setOtherwise
  rw [LevelCall.fault?]
  cases hset : d.level.otherwise with
  | some spec =>
    rw [hset] at hsome
    rw [← hsome]
    exact fail_fault_of_none h.fault_eq _
  | none =>
    rw [hset] at hsome
    rw [← hsome]
    refine ⟨h.fault_eq, h.proper, fun p => ?_, ?_⟩
    · simp [h.mem_places, TableCall.places, LevelCall.places]
    · simp [TableCall.isOtherwise]

theorem setDelimiters (h : d.Holds before) (chars : List Char) :
    Shows Holds (d.setDelimiters chars) (before ++ [.level (.delimiters chars)])
      ((LevelCall.delimiters chars).fault? before) := by
  unfold Draft.setDelimiters
  rw [LevelCall.fault?]
  by_cases hempty : chars = []
  · rw [if_pos hempty, if_pos hempty]
    exact fail_fault_of_none h.fault_eq _
  · rw [if_neg hempty, if_neg hempty]
    refine ⟨h.fault_eq, h.proper, fun p => ?_, ?_⟩
    · simp [h.mem_places, TableCall.places, LevelCall.places]
    · simp [h.isSome_otherwise, TableCall.isOtherwise]

end Holds

mutual

/-- **One call** on a level fails exactly if it is invalid, and with its fault. A category is made by a draft
of its own, which holds the calls inside it. -/
theorem Holds.apply {d : Draft ε} {before : List (TableCall ε)} (h : d.Holds before) :
    (call : LevelCall ε) →
      Shows Holds (apply call d) (before ++ [.level call]) (call.fault? before)
  | .event token event trailing => by
    rw [Draft.apply, LevelCall.fault?]
    apply h.addEntry rfl
    · intro hne
      exact .event hne List.not_mem_nil .nil
    · intro p
      rfl
    · rfl
  | .category token calls => by
    have hinside := holds_nil.applyAll calls
    rw [List.nil_append] at hinside
    rw [Draft.apply, LevelCall.fault?, addCategory]
    cases hfault : LevelCall.firstFault? calls [] with
    | some f =>
      rw [hfault] at hinside
      rw [hinside.fault_eq]
      exact fail_fault_of_none h.fault_eq f
    | none =>
      rw [hfault] at hinside
      rw [hinside.fault_eq]
      apply h.addEntry rfl
      · intro hne
        exact .category hne List.not_mem_nil hinside.proper .nil
      · intro p
        simp only [Entries.places, LevelCall.places, List.append_nil, List.mem_cons, List.mem_map,
          hinside.mem_places, LevelCall.flatMap_places]
      · rfl
  | .otherwise event => by
    rw [Draft.apply]
    exact h.setOtherwise event
  | .delimiters chars => by
    rw [Draft.apply]
    exact h.setDelimiters chars

/-- **Calls in a row** on a level fail with the fault of the first invalid one. -/
theorem Holds.applyAll {d : Draft ε} {before : List (TableCall ε)} (h : d.Holds before) :
    (calls : List (LevelCall ε)) →
      Shows Holds (applyAll calls d) (before ++ calls.map .level)
        (LevelCall.firstFault? calls before)
  | [] => by
    rw [List.map_nil, List.append_nil]
    exact h
  | call :: calls => by
    have hfirst := Holds.apply h call
    rw [Draft.applyAll, LevelCall.firstFault?]
    cases hfault : call.fault? before with
    | some f =>
      rw [hfault] at hfirst
      exact applyAll_fault hfirst calls
    | none =>
      rw [hfault] at hfirst
      have hmore := Holds.applyAll hfirst calls
      rw [List.append_assoc] at hmore
      exact hmore

end

/-! ### Patterns -/

/-- A path can be added to a draft exactly if the calls before leave it free. -/
theorem Holds.insert_fault_eq {d : Draft ε} {before : List (TableCall ε)} (h : d.Holds before)
    (spec : EventSpec ε) (token : Text) (more : List Text) :
    (d.level.entries.insert spec token more).2
      = pathFault? (before.flatMap TableCall.places) (token :: more) := by
  rw [Entries.insert_fault_eq h.proper]
  apply pathFault?_congr
  intro path kind
  exact h.mem_places _

/-- **A pattern** fails exactly if it is invalid, and with its fault. -/
theorem Holds.addPattern {d : Draft ε} {before : List (TableCall ε)} (h : d.Holds before)
    (path : Text) (event : ε) (trailing : Nat) :
    Shows Holds (TableDraft.addPattern path ⟨event, trailing⟩ d)
      (before ++ [.pattern path event trailing])
      ((TableCall.pattern path event trailing).fault? before) := by
  unfold TableDraft.addPattern
  rw [TableCall.fault?]
  cases htokens : patternTokens path with
  | nil => exact fail_fault_of_none h.fault_eq _
  | cons token more =>
    have hfault := h.insert_fault_eq ⟨event, trailing⟩ token more
    rw [if_neg (List.cons_ne_nil token more), ← hfault]
    simp only
    cases hadded : (d.level.entries.insert ⟨event, trailing⟩ token more).2 with
    | some f =>
      cases f <;> exact fail_fault_of_none (by exact h.fault_eq) _
    | none =>
      have hwords : ∀ w ∈ token :: more, w ≠ [] := by
        intro w hw
        rw [← htokens] at hw
        exact (isWord_of_mem_patternTokens hw).ne_nil
      refine ⟨h.fault_eq, h.proper.insert hwords, fun p => ?_, ?_⟩
      · simp [Entries.mem_places_insert hadded, h.mem_places, TableCall.places, htokens]
      · simp [h.isSome_otherwise, TableCall.isOtherwise]

end Draft

end ModemLink
