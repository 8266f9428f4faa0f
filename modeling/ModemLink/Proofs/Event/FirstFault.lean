/-
Which fault a table reports.

A table is built exactly if all of its calls are valid. Otherwise it reports a fault, which need not be that of
the first invalid call: the tree and the bare lines each remember their own first fault, and that of the bare
lines is reported before that of the tree. The two never share a fault, so the first invalid call is the one
that is reported exactly if it adds a bare line, or if no bare line is at fault.
-/
import ModemLink.Proofs.Event.Validity

set_option autoImplicit false

namespace ModemLink

variable {ε : Type}

/-! ## The first invalid call -/

namespace TableCall

/-- Whether a call is on the tree, as every one is that does not add a bare line. -/
def isOfTree (call : TableCall ε) : Bool := !call.isBare

/-- **No call of a kind is invalid** behind those before it. -/
def Valid (kind : TableCall ε → Bool) (calls : List (TableCall ε)) : Prop :=
  ∀ before call after, calls = before ++ call :: after → kind call → call.fault? before = none

/-- **The first invalid call of a kind** has this fault. -/
def FirstFault (kind : TableCall ε → Bool) (calls : List (TableCall ε)) (f : TableFault) : Prop :=
  ∃ before call after, calls = before ++ call :: after ∧ Valid kind before ∧ kind call
    ∧ call.fault? before = some f

section

variable {kind : TableCall ε → Bool} {calls : List (TableCall ε)} {call : TableCall ε}

theorem valid_nil : Valid kind [] := by
  intro before call after hsplit
  cases before <;> cases hsplit

/-- One more call at the end. -/
theorem valid_concat_iff :
    Valid kind (calls ++ [call]) ↔ Valid kind calls ∧ (kind call → call.fault? calls = none) := by
  constructor
  · intro h
    refine ⟨fun before c after hsplit => ?_, h calls call [] rfl⟩
    apply h before c (after ++ [call])
    rw [hsplit, List.append_assoc, List.cons_append]
  · rintro ⟨hcalls, hcall⟩ before c after hsplit
    rcases List.eq_nil_or_concat after with rfl | ⟨after, last, rfl⟩
    · obtain ⟨rfl, hlast⟩ := List.append_inj' hsplit rfl
      rw [← List.head_eq_of_cons_eq hlast]
      exact hcall
    · rw [List.concat_eq_append, ← List.cons_append, ← List.append_assoc] at hsplit
      exact hcalls before c after (List.append_inj' hsplit rfl).1

/-- The calls are all valid, or one of them is the first that is not. -/
theorem valid_or_firstFault (kind : TableCall ε → Bool) (calls : List (TableCall ε)) :
    Valid kind calls ∨ ∃ f, FirstFault kind calls f := by
  induction calls using List.reverseRecOn with
  | nil => exact .inl valid_nil
  | append_singleton calls call ih =>
    rcases ih with hvalid | ⟨f, before, c, after, hsplit, hfirst⟩
    · rw [valid_concat_iff]
      by_cases hkind : kind call
      · cases hfault : call.fault? calls with
        | none => exact .inl ⟨hvalid, fun _ => rfl⟩
        | some f => exact .inr ⟨f, calls, call, [], rfl, hvalid, hkind, hfault⟩
      · exact .inl ⟨hvalid, fun h => absurd h hkind⟩
    · refine .inr ⟨f, before, c, after ++ [call], ?_, hfirst⟩
      rw [hsplit, List.append_assoc, List.cons_append]

end

end TableCall

/-! ## Faults of the tree and of bare lines -/

/-- Whether a fault is that of a bare line. -/
def TableFault.isBare : TableFault → Bool
  | .bareEmpty => true
  | .bareTwice _ => true
  | _ => false

theorem isBare_of_tokenFault? {places : List Place} {token : Text} {f : TableFault}
    (h : tokenFault? places token = some f) : f.isBare = false := by
  unfold tokenFault? at h
  split at h
  · cases h
    rfl
  · split at h <;> cases h
    rfl

mutual

theorem LevelCall.isBare_of_fault? {f : TableFault} : (call : LevelCall ε) →
    (before : List (TableCall ε)) → call.fault? before = some f → f.isBare = false
  | .event _ _ _, before, h => by
    rw [LevelCall.fault?] at h
    exact isBare_of_tokenFault? h
  | .category token calls, before, h => by
    rw [LevelCall.fault?, Option.orElse_eq_orElse, Option.orElse_eq_or] at h
    rcases Option.or_eq_some_iff.mp h with hinside | ⟨-, htoken⟩
    · exact LevelCall.isBare_of_firstFault? calls [] hinside
    · exact isBare_of_tokenFault? htoken
  | .otherwise _, before, h => by
    rw [LevelCall.fault?] at h
    split at h <;> cases h
    rfl
  | .delimiters chars, before, h => by
    rw [LevelCall.fault?] at h
    split at h <;> cases h
    rfl

theorem LevelCall.isBare_of_firstFault? {f : TableFault} : (calls : List (LevelCall ε)) →
    (before : List (TableCall ε)) → LevelCall.firstFault? calls before = some f → f.isBare = false
  | [], before, h => by cases h
  | call :: calls, before, h => by
    rw [LevelCall.firstFault?, Option.orElse_eq_orElse, Option.orElse_eq_or] at h
    rcases Option.or_eq_some_iff.mp h with hfirst | ⟨-, hmore⟩
    · exact LevelCall.isBare_of_fault? call before hfirst
    · exact LevelCall.isBare_of_firstFault? calls _ hmore

end

/-- **A bare line is at fault exactly by faults of its own.** -/
theorem TableCall.isBare_of_fault? {call : TableCall ε} {before : List (TableCall ε)} {f : TableFault}
    (h : call.fault? before = some f) : f.isBare = call.isBare := by
  cases call with
  | level call => exact LevelCall.isBare_of_fault? call before h
  | pattern path event trailing =>
    rw [TableCall.fault?] at h
    split at h
    · cases h
      rfl
    · obtain ⟨fault, -, rfl⟩ := Option.map_eq_some_iff.mp h
      cases fault <;> rfl
  | bare text event trailing =>
    rw [TableCall.fault?] at h
    split at h
    · cases h
      rfl
    · split at h <;> cases h
      rfl

/-! ## What a run of calls leaves -/

/-- **A draft holds bare lines** that calls have set: it has their texts as tokens. -/
structure Draft.HoldsBare (d : Draft ε) (calls : List (TableCall ε)) : Prop where
  fault_eq : d.fault = none
  tokens_eq : d.level.entries.tokens = calls.filterMap TableCall.bareText?

namespace TableDraft

open TableCall

theorem applyAll_concat (calls : List (TableCall ε)) (call : TableCall ε) (d : TableDraft ε) :
    applyAll (calls ++ [call]) d = apply call (applyAll calls d) := by
  unfold applyAll
  rw [List.foldl_append, List.foldl_cons, List.foldl_nil]

/-- **A part of a table draft keeps track of the calls of a kind:** one of them fails exactly if it is
invalid, the others make no difference, and the first fault is kept. -/
structure Tracks (part : TableDraft ε → Draft ε) (kind : TableCall ε → Bool)
    (holds : Draft ε → List (TableCall ε) → Prop) : Prop where
  start : holds (part {}) []
  unfailed {d : Draft ε} {calls : List (TableCall ε)} : holds d calls → d.fault = none
  step {d : TableDraft ε} {before : List (TableCall ε)} (h : holds (part d) before)
    {call : TableCall ε} (hkind : kind call) :
    Draft.Shows holds (part (apply call d)) (before ++ [call]) (call.fault? before)
  other {d : TableDraft ε} {before : List (TableCall ε)} (h : holds (part d) before)
    {call : TableCall ε} (hkind : ¬ kind call) : holds (part (apply call d)) (before ++ [call])
  kept {d : TableDraft ε} {f : TableFault} (h : (part d).fault = some f) (call : TableCall ε) :
    (part (apply call d)).fault = some f

namespace Tracks

variable {part : TableDraft ε → Draft ε} {kind : TableCall ε → Bool}
  {holds : Draft ε → List (TableCall ε) → Prop}

/-- Calls that are all valid are held. -/
theorem holds_of_valid (h : Tracks part kind holds) {calls : List (TableCall ε)}
    (hvalid : Valid kind calls) : holds (part (applyAll calls {})) calls := by
  induction calls using List.reverseRecOn with
  | nil => exact h.start
  | append_singleton calls call ih =>
    obtain ⟨hcalls, hcall⟩ := valid_concat_iff.mp hvalid
    rw [applyAll_concat]
    by_cases hkind : kind call
    · have hstep := h.step (ih hcalls) hkind
      rw [hcall hkind] at hstep
      exact hstep
    · exact h.other (ih hcalls) hkind

theorem applyAll_kept (h : Tracks part kind holds) {d : TableDraft ε} {f : TableFault}
    (hfault : (part d).fault = some f) (calls : List (TableCall ε)) :
    (part (applyAll calls d)).fault = some f := by
  induction calls generalizing d with
  | nil => exact hfault
  | cons call calls ih => exact ih (h.kept hfault call)

/-- The first fault is the one that is remembered. -/
theorem fault_of_firstFault (h : Tracks part kind holds) {calls : List (TableCall ε)} {f : TableFault}
    (hfirst : FirstFault kind calls f) : (part (applyAll calls {})).fault = some f := by
  obtain ⟨before, call, after, rfl, hvalid, hkind, hfault⟩ := hfirst
  have hstep := h.step (h.holds_of_valid hvalid) hkind
  rw [hfault] at hstep
  have hall : applyAll (before ++ call :: after) {}
      = applyAll after (apply call (applyAll before {})) := by
    unfold applyAll
    rw [List.foldl_append, List.foldl_cons]
  rw [hall]
  exact h.applyAll_kept hstep after

theorem fault_eq_none_iff (h : Tracks part kind holds) (calls : List (TableCall ε)) :
    (part (applyAll calls {})).fault = none ↔ Valid kind calls := by
  constructor
  · intro hnone
    rcases valid_or_firstFault kind calls with hvalid | ⟨f, hfirst⟩
    · exact hvalid
    · rw [h.fault_of_firstFault hfirst] at hnone
      cases hnone
  · intro hvalid
    exact h.unfailed (h.holds_of_valid hvalid)

theorem fault_eq_some_iff (h : Tracks part kind holds) (calls : List (TableCall ε)) (f : TableFault) :
    (part (applyAll calls {})).fault = some f ↔ FirstFault kind calls f := by
  constructor
  · intro hsome
    rcases valid_or_firstFault kind calls with hvalid | ⟨g, hfirst⟩
    · rw [(h.fault_eq_none_iff calls).mpr hvalid] at hsome
      cases hsome
    · rw [h.fault_of_firstFault hfirst] at hsome
      cases hsome
      exact hfirst
  · exact h.fault_of_firstFault

end Tracks

/-! ### The tree -/

/-- **The tree** keeps track of all calls but those that add a bare line. -/
theorem tracks_root :
    Tracks (TableDraft.root : TableDraft ε → Draft ε) isOfTree Draft.Holds where
  start := Draft.holds_nil
  unfailed h := h.fault_eq
  step {d before} h call htree := by
    cases call with
    | level call => exact h.apply call
    | pattern path event trailing => exact h.addPattern path event trailing
    | bare text event trailing => cases htree
  other {d before} h call htree := by
    cases call with
    | level call => exact absurd rfl htree
    | pattern path event trailing => exact absurd rfl htree
    | bare text event trailing =>
      refine ⟨h.fault_eq, h.proper, fun p => ?_, ?_⟩
      · simp [apply, h.mem_places, TableCall.places]
      · simp [apply, h.isSome_otherwise, TableCall.isOtherwise]
  kept {d f} h call := by
    cases call with
    | level call => exact Draft.apply_fault h call
    | pattern path event trailing => exact addPattern_fault h path _
    | bare text event trailing => exact h

/-! ### The bare lines -/

theorem addBare_fault {d : Draft ε} {f : TableFault} (h : d.fault = some f) (text : Text)
    (spec : EventSpec ε) : (addBare text spec d).fault = some f := by
  unfold addBare
  split
  · exact Draft.fail_fault h _
  · split
    · exact Draft.fail_fault h _
    · exact h

theorem addBare_shows {d : Draft ε} {before : List (TableCall ε)} (h : d.HoldsBare before)
    (text : Text) (event : ε) (trailing : Nat) :
    Draft.Shows Draft.HoldsBare (addBare text ⟨event, trailing⟩ d)
      (before ++ [.bare text event trailing])
      ((TableCall.bare text event trailing).fault? before) := by
  have htexts := h.tokens_eq
  unfold addBare
  rw [TableCall.fault?]
  by_cases hempty : text = []
  · rw [if_pos hempty, if_pos hempty]
    exact Draft.fail_fault_of_none h.fault_eq _
  · rw [if_neg hempty, if_neg hempty]
    by_cases htwice : text ∈ d.level.entries.tokens
    · rw [if_pos htwice, if_pos (List.contains_iff_mem.mpr (htexts ▸ htwice))]
      exact Draft.fail_fault_of_none h.fault_eq _
    · have hnew : ¬ (before.filterMap TableCall.bareText?).contains text := by
        rw [List.contains_iff_mem, ← htexts]
        exact htwice
      rw [if_neg htwice, if_neg hnew]
      refine ⟨h.fault_eq, ?_⟩
      simp [Entries.tokens, htexts, TableCall.bareText?]

/-- **The bare lines** are kept track of apart from the tree. -/
theorem tracks_bare :
    Tracks (TableDraft.bare : TableDraft ε → Draft ε) isBare Draft.HoldsBare where
  start := ⟨rfl, rfl⟩
  unfailed h := h.fault_eq
  step {d before} h call hbare := by
    cases call with
    | level call => cases hbare
    | pattern path event trailing => cases hbare
    | bare text event trailing => exact addBare_shows h text event trailing
  other {d before} h call hbare := by
    cases call with
    | level call => exact ⟨h.fault_eq, by simp [apply, h.tokens_eq, bareText?]⟩
    | pattern path event trailing => exact ⟨h.fault_eq, by simp [apply, h.tokens_eq, bareText?]⟩
    | bare text event trailing => exact absurd rfl hbare
  kept {d f} h call := by
    cases call with
    | level call => exact h
    | pattern path event trailing => exact h
    | bare text event trailing => exact addBare_fault h text _

end TableDraft

/-! ## The fault that is reported -/

namespace TableCall

/-- All calls are valid where those on the tree are, and the bare lines. -/
theorem valid_iff_of_tree_of_bare (calls : List (TableCall ε)) :
    Valid (fun _ => true) calls ↔ Valid isOfTree calls ∧ Valid isBare calls := by
  constructor
  · intro h
    exact ⟨fun before call after hsplit _ => h before call after hsplit rfl,
      fun before call after hsplit _ => h before call after hsplit rfl⟩
  · rintro ⟨htree, hbare⟩ before call after hsplit -
    cases hkind : call.isBare with
    | true => exact hbare before call after hsplit hkind
    | false =>
      apply htree before call after hsplit
      rw [isOfTree, hkind]
      rfl

theorem FirstFault.fault_isBare {calls : List (TableCall ε)} {f : TableFault}
    (h : FirstFault isBare calls f) : f.isBare = true := by
  obtain ⟨before, call, after, -, -, hkind, hfault⟩ := h
  rw [isBare_of_fault? hfault, hkind]

end TableCall

namespace EventTable

open TableCall

theorem exists_ofCalls_eq_ok_iff (calls : List (TableCall ε)) :
    (∃ t, ofCalls calls = .ok t) ↔ Valid (fun _ => true) calls := by
  unfold ofCalls
  simp only [TableDraft.build_eq_ok_iff, TableDraft.tracks_root.fault_eq_none_iff,
    TableDraft.tracks_bare.fault_eq_none_iff, exists_and_left, exists_eq', and_true]
  rw [valid_iff_of_tree_of_bare, and_comm]

/-- **The fault that is reported** is the first one of the bare lines, and the first one of the tree if the
bare lines are all valid. -/
theorem ofCalls_eq_error_iff (calls : List (TableCall ε)) (f : TableFault) :
    ofCalls calls = .error f
      ↔ FirstFault isBare calls f ∨ Valid isBare calls ∧ FirstFault isOfTree calls f := by
  rw [← TableDraft.tracks_bare.fault_eq_some_iff, ← TableDraft.tracks_bare.fault_eq_none_iff,
    ← TableDraft.tracks_root.fault_eq_some_iff]
  unfold ofCalls TableDraft.build
  cases (TableDraft.applyAll calls {}).bare.fault with
  | some g => simp
  | none => cases (TableDraft.applyAll calls {}).root.fault <;> simp

/-- **Which invalid call is reported.** A table is built exactly if no call is invalid behind those before it,
where a category is invalid at its place if a call inside it is. Otherwise the fault of the first invalid call
is the one that is reported exactly if the call adds a bare line, or no bare line is at fault. -/
theorem first_invalid_call_reported_iff (calls : List (TableCall ε)) :
    ((∃ t, ofCalls calls = .ok t)
        ↔ ∀ before call after, calls = before ++ call :: after → call.fault? before = none)
      ∧ ∀ before call after f, calls = before ++ call :: after → Valid (fun _ => true) before →
          call.fault? before = some f →
            (ofCalls calls = .error f ↔ call.isBare ∨ Valid isBare calls) := by
  refine ⟨?_, ?_⟩
  · rw [exists_ofCalls_eq_ok_iff]
    unfold Valid
    simp only [forall_const]
  · intro before call after f hsplit hbefore hfault
    obtain ⟨htree, hbare⟩ := (valid_iff_of_tree_of_bare before).mp hbefore
    have hf := isBare_of_fault? hfault
    rw [ofCalls_eq_error_iff]
    cases hkind : call.isBare with
    | true =>
      exact iff_of_true (.inl ⟨before, call, after, hsplit, hbare, hkind, hfault⟩) (.inl rfl)
    | false =>
      have hfirst : FirstFault isOfTree calls f := by
        refine ⟨before, call, after, hsplit, htree, ?_, hfault⟩
        rw [isOfTree, hkind]
        rfl
      constructor
      · rintro (hother | ⟨hvalid, -⟩)
        -- a bare line is never at fault by a fault of the tree
        · rw [hkind, hother.fault_isBare] at hf
          cases hf
        · exact .inr hvalid
      · rintro (hnot | hvalid)
        · cases hnot
        · exact .inr ⟨hvalid, hfirst⟩

/-- A category with an event twice comes before the event that takes the category's own token. -/
theorem first_invalid_call_reported_within_category :
    let ready : TableCall Nat := .bare "ready".toList 1
    let evt : TableCall Nat :=
      .category "EVT".toList [.event "JOINED".toList 2, .event "JOINED".toList 3]
    let again : TableCall Nat := .event "EVT".toList 4
    ofCalls [ready, evt, again] = .error (.tokenTwice "JOINED".toList) := by
  intro ready evt again
  have hready : Valid (fun _ => true) ([] ++ [ready]) :=
    valid_concat_iff.mpr ⟨valid_nil, fun _ => rfl⟩
  have hbare : Valid isBare ([] ++ [ready] ++ [evt] ++ [again]) := by
    rw [valid_concat_iff, valid_concat_iff, valid_concat_iff]
    exact ⟨⟨⟨valid_nil, by decide⟩, by decide⟩, by decide⟩
  have hfault : evt.fault? [ready] = some (.tokenTwice "JOINED".toList) := by decide +kernel
  have hreported := (first_invalid_call_reported_iff [ready, evt, again]).2
  exact (hreported [ready] evt [again] _ rfl hready hfault).mpr (.inr hbare)

/-- The bare line without text is reported, though the event without a token is the first invalid call. -/
theorem bare_fault_reported_first :
    let unnamed : TableCall Nat := .event [] 1
    let calls := [unnamed, .bare [] 2]
    unnamed.fault? [] = some .tokenEmpty
      ∧ ofCalls calls = .error .bareEmpty ∧ ofCalls calls ≠ .error .tokenEmpty := by
  refine ⟨?_, ?_, ?_⟩ <;> decide +kernel

end EventTable

end ModemLink
