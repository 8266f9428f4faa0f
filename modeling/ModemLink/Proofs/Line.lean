/-
What a line can be.

The kind of a line depends on the command in flight in one point only: whether a line with a
sentinel is a piece of its reply or an event. A configuration that passes its check has no empty
token, so a blank line confirms nothing, and every confirmation ends its command.
-/
import ModemLink.Config
import ModemLink.Line

set_option autoImplicit false

namespace ModemLink

/-! ## Usable vocabularies -/

/-- **A usable vocabulary.** No token is empty, and every confirmation ends a command. -/
structure Vocabulary.Usable (v : Vocabulary) : Prop where
  success_ne_nil : v.success ≠ []
  failure_ne_nil (token : Text) : token ∈ v.failures → token ≠ []
  extra_ne_nil (e : Text × Status) : e ∈ v.extras → e.1 ≠ []
  extra_isTerminal (e : Text × Status) : e ∈ v.extras → e.2.isTerminal = true

/-- The check of a configuration makes sure of it. -/
theorem Config.usable_of_validate {c : Config} (h : c.validate = .ok ()) :
    c.vocabulary.Usable := by
  have hnone : c.fault? = none := by
    unfold Config.validate at h
    cases hf : c.fault? with
    | none => rfl
    | some fault =>
      rw [hf] at h
      cases h
  unfold Config.fault? at hnone
  -- the faults are looked for in turn, and none of them was found
  by_cases hlimit : c.framing.lineLimit = 0
  · rw [if_pos hlimit] at hnone
    cases hnone
  rw [if_neg hlimit] at hnone
  by_cases hstep : c.timing.pollStep = 0
  · rw [if_pos hstep] at hnone
    cases hnone
  rw [if_neg hstep] at hnone
  by_cases hsuccess : c.vocabulary.success = []
  · rw [if_pos hsuccess] at hnone
    cases hnone
  rw [if_neg hsuccess] at hnone
  by_cases hfailures : c.vocabulary.failures.any List.isEmpty = true
  · rw [if_pos hfailures] at hnone
    cases hnone
  rw [if_neg hfailures] at hnone
  cases hextras : c.vocabulary.extras.find? Vocabulary.extraUnusable with
  | some e =>
    rw [hextras] at hnone
    cases hnone
  | none =>
    have hextra (e : Text × Status) (he : e ∈ c.vocabulary.extras) :
        e.1 ≠ [] ∧ e.2.isTerminal = true := by
      have hgood := List.find?_eq_none.mp hextras e he
      simpa [Vocabulary.extraUnusable] using hgood
    refine ⟨hsuccess, ?_, fun e he => (hextra e he).1, fun e he => (hextra e he).2⟩
    intro token htoken hempty
    apply hfailures
    rw [List.any_eq_true]
    exact ⟨token, htoken, List.isEmpty_iff.mpr hempty⟩

namespace Text

/-- Nothing but the empty head stands at the start of the empty text. -/
theorem afterFolded?_nil {head : Text} (h : head ≠ []) : afterFolded? head [] = none := by
  cases head with
  | nil => exact absurd rfl h
  | cons c head => rfl

end Text

/-- Whether a line is one that nobody asked for. -/
def Line.isUnsolicited : Line → Bool
  | .event _ => true
  | .plain _ => true
  | _ => false

namespace Vocabulary

variable {v : Vocabulary}

/-- The words that confirm a command. -/
def confirmationTokens (v : Vocabulary) : List Text :=
  v.extras.map Prod.fst ++ v.success :: v.failures

/-- A line that none of them heads confirms nothing. -/
theorem confirmation?_eq_none {line : Text}
    (h : ∀ token ∈ v.confirmationTokens, Text.afterFolded? token line = none) :
    v.confirmation? line = none := by
  have hextra : v.extra? line = none := by
    unfold extra?
    rw [Option.map_eq_none_iff, List.find?_eq_none]
    intro e he
    rw [h e.1 (List.mem_append_left _ (List.mem_map_of_mem he))]
    exact Bool.false_ne_true
  have hsuccess : Text.afterFolded? v.success line = none :=
    h v.success (List.mem_append_right _ List.mem_cons_self)
  have hfailure : v.failureDetail? line = none := by
    have hnone : v.failures.filterMap (Text.afterFolded? · line) = [] := by
      rw [List.filterMap_eq_nil_iff]
      exact fun token htoken =>
        h token (List.mem_append_right _ (List.mem_cons_of_mem _ htoken))
    unfold failureDetail?
    rw [hnone]
    rfl
  unfold confirmation?
  rw [hextra, hsuccess, hfailure]
  rfl

theorem ne_nil_of_mem_confirmationTokens (h : v.Usable) {token : Text}
    (htoken : token ∈ v.confirmationTokens) : token ≠ [] := by
  rcases List.mem_append.mp htoken with hextra | hother
  · obtain ⟨e, he, rfl⟩ := List.mem_map.mp hextra
    exact h.extra_ne_nil e he
  · rcases List.mem_cons.mp hother with rfl | hfailure
    · exact h.success_ne_nil
    · exact h.failure_ne_nil token hfailure

theorem confirmation?_nil (h : v.Usable) : v.confirmation? [] = none :=
  confirmation?_eq_none fun _ htoken =>
    Text.afterFolded?_nil (ne_nil_of_mem_confirmationTokens h htoken)

theorem isTerminal_of_confirmation? (h : v.Usable) {line : Text} {status : Status}
    {failure : Option Failure} (hc : v.confirmation? line = some (status, failure)) :
    status.isTerminal = true := by
  unfold confirmation? at hc
  cases hextra : v.extra? line with
  | some s =>
    rw [hextra] at hc
    cases hc
    unfold extra? at hextra
    obtain ⟨e, he, rfl⟩ := Option.map_eq_some_iff.mp hextra
    exact h.extra_isTerminal e (List.mem_of_find?_eq_some he)
  | none =>
    rw [hextra] at hc
    by_cases hs : (Text.afterFolded? v.success line).isSome = true
    · simp only [if_pos hs] at hc
      cases hc
      rfl
    · simp only [if_neg hs] at hc
      obtain ⟨rest, -, hrest⟩ := Option.map_eq_some_iff.mp hc
      cases hrest
      rfl

/-! ## The kinds of lines -/

section Kinds

variable {line : Text} {pending : Option Text}

/-- A token at the head of a line makes it a confirmation, whatever else it may be. -/
theorem classify_of_confirmation? {status : Status} {failure : Option Failure}
    (hc : v.confirmation? (Text.trim line) = some (status, failure)) :
    v.classify line pending = .confirmation status failure := by
  unfold classify
  simp only [hc]

/-- A line with a sentinel is a piece of the reply or an event. -/
theorem classify_of_sentinel {c : Char} {text : Text} (hc : v.confirmation? (c :: text) = none)
    (htrim : Text.trim line = c :: text) (hs : c ∈ v.sentinels) :
    v.classify line pending
      = if pending.any (Text.namesCommand text) then .body text else .event text := by
  unfold classify
  rw [htrim]
  simp only [hc, if_pos hs]

/-- A line without one is plain. -/
theorem classify_of_not_sentinel (hc : v.confirmation? (Text.trim line) = none)
    (hs : ∀ c, (Text.trim line).head? = some c → c ∉ v.sentinels) :
    v.classify line pending = .plain (Text.trim line) := by
  unfold classify
  simp only [hc]
  cases htrim : Text.trim line with
  | nil => rfl
  | cons c text =>
    rw [htrim] at hs
    exact if_neg (hs c rfl)

/-- **There are no other kinds.** -/
theorem classify_cases (v : Vocabulary) (line : Text) (pending : Option Text) :
    (∃ status failure, v.confirmation? (Text.trim line) = some (status, failure)
        ∧ v.classify line pending = .confirmation status failure)
      ∨ (∃ c text, v.confirmation? (c :: text) = none ∧ Text.trim line = c :: text
        ∧ c ∈ v.sentinels)
      ∨ (v.confirmation? (Text.trim line) = none
        ∧ ∀ c, (Text.trim line).head? = some c → c ∉ v.sentinels) := by
  cases hc : v.confirmation? (Text.trim line) with
  | some outcome => exact .inl ⟨outcome.1, outcome.2, rfl, classify_of_confirmation? hc⟩
  | none =>
    cases htrim : Text.trim line with
    | nil => exact .inr (.inr ⟨rfl, fun c h => nomatch h⟩)
    | cons c text =>
      rw [htrim] at hc
      by_cases hs : c ∈ v.sentinels
      · exact .inr (.inl ⟨c, text, hc, rfl, hs⟩)
      · refine .inr (.inr ⟨rfl, fun d hd => ?_⟩)
        rw [List.head?_cons, Option.some.injEq] at hd
        rw [← hd]
        exact hs

/-- **A confirmation ends its command,** and is no blank line. -/
theorem classify_confirmation (h : v.Usable) {status : Status} {failure : Option Failure}
    (hk : v.classify line pending = .confirmation status failure) :
    status.isTerminal = true ∧ Text.trim line ≠ [] := by
  rcases classify_cases v line pending with ⟨s, f, hc, hk'⟩ | ⟨c, text, hc, htrim, hs⟩ | ⟨hc, hs⟩
  · rw [hk'] at hk
    cases hk
    refine ⟨isTerminal_of_confirmation? h hc, fun hblank => ?_⟩
    rw [hblank, confirmation?_nil h] at hc
    cases hc
  · rw [classify_of_sentinel hc htrim hs] at hk
    split at hk <;> cases hk
  · rw [classify_of_not_sentinel hc hs] at hk
    cases hk

/-- A piece of a reply is no blank line. -/
theorem trim_ne_nil_of_classify_body {text : Text} (hk : v.classify line pending = .body text) :
    Text.trim line ≠ [] := by
  rcases classify_cases v line pending with ⟨s, f, hc, hk'⟩ | ⟨c, text, hc, htrim, hs⟩ | ⟨hc, hs⟩
  · rw [hk'] at hk
    cases hk
  · rw [htrim]
    exact List.cons_ne_nil c text
  · rw [classify_of_not_sentinel hc hs] at hk
    cases hk

/-- **What nobody asked for** is the same whether or not a command is in flight. -/
theorem classify_eq_of_isUnsolicited (h : (v.classify line pending).isUnsolicited = true) :
    v.classify line pending = v.classify line none := by
  rcases classify_cases v line pending with ⟨s, f, hc, hk⟩ | ⟨c, text, hc, htrim, hs⟩ | ⟨hc, hs⟩
  · rw [hk, classify_of_confirmation? hc]
  · rw [classify_of_sentinel hc htrim hs] at h ⊢
    rw [classify_of_sentinel hc htrim hs]
    -- a piece of a reply would have been asked for
    by_cases hnamed : pending.any (Text.namesCommand text) = true
    · rw [if_pos hnamed] at h
      cases h
    · rw [if_neg hnamed]
      rfl
  · rw [classify_of_not_sentinel hc hs, classify_of_not_sentinel hc hs]

end Kinds

end Vocabulary

end ModemLink
