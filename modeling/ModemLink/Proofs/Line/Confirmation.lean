/-
Which token confirms a command.

A confirmation is a line that begins with one of the configured tokens, up to case. Several may head the
same line, and then one of them decides: the first extra token in the order in which they are listed, else
the success token, else the longest of the failure tokens, whose detail is what follows it.

The last choice is made by comparing what is left of the line. Two tokens that head one line and are equally
long are the same up to case, so they leave the same rest; which of the two is taken cannot be seen, and the
order of the failure tokens does not matter.
-/
import ModemLink.Proofs.Line.CommandWord
import ModemLink.Proofs.Text.Case
import ModemLink.Proofs.Text.Fitting

set_option autoImplicit false

namespace ModemLink

namespace Text

/-! ## Lengths up to case -/

/-- Only letters of ASCII have two forms, and both forms take one byte. -/
@[simp] theorem byteLength_folded (s : Text) : (folded s).byteLength = s.byteLength := by
  induction s with
  | nil => rfl
  | cons c s ih =>
    have hsize : c.toLower.utf8Size = c.utf8Size := apply_toLower Char.utf8Size (by decide) c
    rw [folded_cons, byteLength_cons, byteLength_cons, hsize, ih]

theorem byteLength_eq_of_equalFolded {s t : Text} (h : equalFolded s t = true) :
    s.byteLength = t.byteLength := by
  rw [← byteLength_folded s, equalFolded_iff.mp h, byteLength_folded]

/-- Of two beginnings of one text the longer one leaves the shorter rest, whether lengths are counted in
bytes or in characters. -/
theorem length_le_iff_byteLength_le {front front' rest rest' : Text}
    (h : front ++ rest = front' ++ rest') :
    rest.length ≤ rest'.length ↔ front'.byteLength ≤ front.byteLength := by
  have hlength := congrArg List.length h
  rw [List.length_append, List.length_append] at hlength
  have hprefix : front <+: front' ++ rest' := ⟨rest, h⟩
  have hprefix' : front' <+: front' ++ rest' := List.prefix_append front' rest'
  constructor
  · intro hle
    apply byteLength_le_of_begins
    exact List.prefix_of_prefix_length_le hprefix' hprefix (by omega)
  · intro hbytes
    by_contra hlt
    obtain ⟨more, rfl⟩ := List.prefix_of_prefix_length_le hprefix hprefix' (by omega)
    cases more with
    | nil => simp at hlength; omega
    | cons c more =>
      have hpos := c.utf8Size_pos
      rw [byteLength_append, byteLength_cons] at hbytes
      omega

/-! ## The shortest of several texts -/

theorem shortest?_eq_none_iff {texts : List Text} : shortest? texts = none ↔ texts = [] := by
  cases texts with
  | nil => simp [shortest?]
  | cons s texts =>
    rw [shortest?]
    split
    · simp
    · split <;> simp

theorem of_shortest?_eq_some {texts : List Text} {rest : Text} (h : shortest? texts = some rest) :
    rest ∈ texts ∧ ∀ s ∈ texts, rest.length ≤ s.length := by
  induction texts generalizing rest with
  | nil => cases h
  | cons s texts ih =>
    rw [shortest?] at h
    cases hshortest : shortest? texts with
    | none =>
      rw [shortest?_eq_none_iff.mp hshortest] at h ⊢
      cases h
      simp
    | some t =>
      obtain ⟨ht, hle⟩ := ih hshortest
      simp only [hshortest] at h
      split at h
      · obtain rfl : s = rest := Option.some.inj h
        refine ⟨List.mem_cons_self, List.forall_mem_cons.mpr ⟨Nat.le_refl _, fun u hu => ?_⟩⟩
        have := hle u hu
        omega
      · obtain rfl : t = rest := Option.some.inj h
        exact ⟨List.mem_cons_of_mem s ht, List.forall_mem_cons.mpr ⟨by omega, hle⟩⟩

/-- **Among the ends of one text** there is only one of each length, so the shortest is not a matter of
order. -/
theorem shortest?_eq_some_iff {line : Text} {texts : List Text} (hends : ∀ s ∈ texts, s <:+ line)
    (rest : Text) :
    shortest? texts = some rest ↔ rest ∈ texts ∧ ∀ s ∈ texts, rest.length ≤ s.length := by
  refine ⟨of_shortest?_eq_some, ?_⟩
  rintro ⟨hrest, hle⟩
  cases hshortest : shortest? texts with
  | none =>
    rw [shortest?_eq_none_iff.mp hshortest] at hrest
    cases hrest
  | some t =>
    obtain ⟨ht, hle'⟩ := of_shortest?_eq_some hshortest
    have hlength : t.length = rest.length := Nat.le_antisymm (hle' rest hrest) (hle t ht)
    have hsuffix := List.suffix_of_suffix_length_le (hends t ht) (hends rest hrest) hlength.le
    rw [hsuffix.eq_of_length hlength]

/-! ## Beginnings up to case -/

/-- **What follows** a token that a text begins with, up to the case of ASCII letters. -/
def FollowsFolded (token text rest : Text) : Prop :=
  ∃ front, text = front ++ rest ∧ equalFolded front token = true

theorem afterFolded?_eq_some_iff_follows {token text rest : Text} :
    afterFolded? token text = some rest ↔ FollowsFolded token text rest := by
  unfold FollowsFolded equalFolded
  simp only [afterFolded?_eq_some_iff, beq_iff_eq]

theorem beginsFolded_iff {token text : Text} :
    BeginsFolded token text ↔ ∃ rest, FollowsFolded token text rest := by
  constructor
  · rintro ⟨front, ⟨rest, hrest⟩, hfolded⟩
    exact ⟨rest, front, hrest.symm, hfolded⟩
  · rintro ⟨rest, front, hrest, hfolded⟩
    exact ⟨front, ⟨rest, hrest.symm⟩, hfolded⟩

theorem isSome_afterFolded?_iff {token text : Text} :
    (afterFolded? token text).isSome = true ↔ BeginsFolded token text := by
  rw [Option.isSome_iff_exists, beginsFolded_iff]
  simp only [afterFolded?_eq_some_iff_follows]

/-- Of two tokens at the head of a line the longer one leaves the shorter rest. -/
theorem FollowsFolded.length_le_iff {line token token' rest rest' : Text}
    (h : FollowsFolded token line rest) (h' : FollowsFolded token' line rest') :
    rest.length ≤ rest'.length ↔ token'.byteLength ≤ token.byteLength := by
  obtain ⟨front, hline, hfolded⟩ := h
  obtain ⟨front', hline', hfolded'⟩ := h'
  rw [length_le_iff_byteLength_le (hline.symm.trans hline'), byteLength_eq_of_equalFolded hfolded,
    byteLength_eq_of_equalFolded hfolded']

end Text

namespace Vocabulary

open Text

variable {v : Vocabulary}

/-! ## What confirms a command -/

/-- **The longest failure token** that heads a line up to case, and what follows it. Tokens are as long as
they have bytes. -/
structure IsLongestFailure (v : Vocabulary) (line token rest : Text) : Prop where
  mem : token ∈ v.failures
  follows : FollowsFolded token line rest
  longest (other : Text) : other ∈ v.failures → BeginsFolded other line →
    other.byteLength ≤ token.byteLength

/-- **What a line confirms.** The first extra token that heads the line decides, then the success token,
then the longest failure token. -/
inductive Confirms (v : Vocabulary) (line : Text) : Status → Option Failure → Prop where
  | extra {before after : List (Text × Status)} {token : Text} {status : Status}
    (hextras : v.extras = before ++ (token, status) :: after) (hheads : BeginsFolded token line)
    (hfirst : ∀ e ∈ before, ¬ BeginsFolded e.1 line) : Confirms v line status none
  | success (hextras : ∀ e ∈ v.extras, ¬ BeginsFolded e.1 line)
    (hheads : BeginsFolded v.success line) : Confirms v line .success none
  | failure {token rest : Text} (hextras : ∀ e ∈ v.extras, ¬ BeginsFolded e.1 line)
    (hsuccess : ¬ BeginsFolded v.success line) (hlongest : v.IsLongestFailure line token rest) :
    Confirms v line .failure (some (Failure.ofText rest))

/-! ## The three kinds of tokens -/

theorem extra?_eq_some_iff (line : Text) (status : Status) :
    v.extra? line = some status ↔ ∃ before token after,
      v.extras = before ++ (token, status) :: after ∧ BeginsFolded token line
        ∧ ∀ e ∈ before, ¬ BeginsFolded e.1 line := by
  unfold extra?
  rw [Option.map_eq_some_iff]
  constructor
  · rintro ⟨⟨token, _⟩, hfind, rfl⟩
    obtain ⟨hheads, before, after, hextras, hfirst⟩ := List.find?_eq_some_iff_append.mp hfind
    refine ⟨before, token, after, hextras, isSome_afterFolded?_iff.mp hheads, fun e he hbegins => ?_⟩
    have hnot := hfirst e he
    rw [isSome_afterFolded?_iff.mpr hbegins] at hnot
    cases hnot
  · rintro ⟨before, token, after, hextras, hheads, hfirst⟩
    refine ⟨(token, status), List.find?_eq_some_iff_append.mpr ?_, rfl⟩
    refine ⟨isSome_afterFolded?_iff.mpr hheads, before, after, hextras, fun e he => ?_⟩
    rw [Bool.not_eq_true', Bool.eq_false_iff, ne_eq, isSome_afterFolded?_iff]
    exact hfirst e he

theorem extra?_eq_none_iff (line : Text) :
    v.extra? line = none ↔ ∀ e ∈ v.extras, ¬ BeginsFolded e.1 line := by
  unfold extra?
  simp only [Option.map_eq_none_iff, List.find?_eq_none, isSome_afterFolded?_iff]

/-- **The detail of a failure** is what follows the longest failure token. -/
theorem failureDetail?_eq_some_iff (line rest : Text) :
    v.failureDetail? line = some rest ↔ ∃ token, v.IsLongestFailure line token rest := by
  have hmem (s : Text) : s ∈ v.failures.filterMap (afterFolded? · line)
      ↔ ∃ token ∈ v.failures, FollowsFolded token line s := by
    simp only [List.mem_filterMap, afterFolded?_eq_some_iff_follows]
  have hends : ∀ s ∈ v.failures.filterMap (afterFolded? · line), s <:+ line := by
    intro s hs
    obtain ⟨token, -, front, hline, -⟩ := (hmem s).mp hs
    exact ⟨front, hline.symm⟩
  unfold failureDetail?
  rw [shortest?_eq_some_iff hends, hmem]
  constructor
  · rintro ⟨⟨token, htoken, hfollows⟩, hshortest⟩
    refine ⟨token, htoken, hfollows, fun other hother hbegins => ?_⟩
    obtain ⟨rest', hfollows'⟩ := beginsFolded_iff.mp hbegins
    rw [← hfollows.length_le_iff hfollows']
    exact hshortest rest' ((hmem rest').mpr ⟨other, hother, hfollows'⟩)
  · rintro ⟨token, htoken, hfollows, hlongest⟩
    refine ⟨⟨token, htoken, hfollows⟩, fun rest' hrest' => ?_⟩
    obtain ⟨other, hother, hfollows'⟩ := (hmem rest').mp hrest'
    rw [hfollows.length_le_iff hfollows']
    exact hlongest other hother (beginsFolded_iff.mpr ⟨rest', hfollows'⟩)

/-! ## The decision -/

/-- **The decision** between the tokens is the one that the listing describes. -/
theorem confirmation?_eq_some_iff (line : Text) (status : Status) (detail : Option Failure) :
    v.confirmation? line = some (status, detail) ↔ v.Confirms line status detail := by
  unfold confirmation?
  constructor
  · intro h
    cases hextra : v.extra? line with
    | some s =>
      rw [hextra] at h
      cases h
      obtain ⟨before, token, after, hextras, hheads, hfirst⟩ := (extra?_eq_some_iff line _).mp hextra
      exact .extra hextras hheads hfirst
    | none =>
      have hextras := (extra?_eq_none_iff line).mp hextra
      simp only [hextra] at h
      split at h
      · next hsuccess =>
        cases h
        exact .success hextras (isSome_afterFolded?_iff.mp hsuccess)
      · next hsuccess =>
        rw [isSome_afterFolded?_iff] at hsuccess
        obtain ⟨rest, hrest, hdetail⟩ := Option.map_eq_some_iff.mp h
        cases hdetail
        obtain ⟨token, hlongest⟩ := (failureDetail?_eq_some_iff line rest).mp hrest
        exact .failure hextras hsuccess hlongest
  · intro h
    cases h with
    | extra hextras hheads hfirst =>
      rw [(extra?_eq_some_iff line status).mpr ⟨_, _, _, hextras, hheads, hfirst⟩]
    | success hextras hheads =>
      simp only [(extra?_eq_none_iff line).mpr hextras, isSome_afterFolded?_iff.mpr hheads]
      rfl
    | @failure token rest hextras hsuccess hlongest =>
      rw [← isSome_afterFolded?_iff] at hsuccess
      simp only [(extra?_eq_none_iff line).mpr hextras, if_neg hsuccess,
        (failureDetail?_eq_some_iff line rest).mpr ⟨token, hlongest⟩, Option.map_some]

/-- **Nothing is confirmed** exactly if no token heads the line. -/
theorem confirmation?_eq_none_iff (line : Text) :
    v.confirmation? line = none ↔ ∀ token ∈ v.confirmationTokens, ¬ BeginsFolded token line := by
  constructor
  · intro h
    unfold confirmation? at h
    cases hextra : v.extra? line with
    | some status =>
      rw [hextra] at h
      cases h
    | none =>
      simp only [hextra] at h
      split at h
      · cases h
      · next hsuccess =>
        rw [Option.map_eq_none_iff] at h
        unfold failureDetail? at h
        rw [shortest?_eq_none_iff, List.filterMap_eq_nil_iff] at h
        intro token htoken
        rcases List.mem_append.mp htoken with hmem | hmem
        · obtain ⟨e, he, rfl⟩ := List.mem_map.mp hmem
          exact (extra?_eq_none_iff line).mp hextra e he
        · rcases List.mem_cons.mp hmem with rfl | hmem
          · exact mt isSome_afterFolded?_iff.mpr hsuccess
          · exact afterFolded?_eq_none_iff.mp (h token hmem)
  · intro h
    exact confirmation?_eq_none fun token htoken => afterFolded?_eq_none_iff.mpr (h token htoken)

theorem classify_eq_confirmation_iff (line : Text) (pending : Option Text) (status : Status)
    (detail : Option Failure) :
    v.classify line pending = .confirmation status detail
      ↔ v.Confirms (trim line) status detail := by
  rw [← confirmation?_eq_some_iff]
  refine ⟨fun h => ?_, classify_of_confirmation?⟩
  rcases classify_cases v line pending with ⟨s, d, hc, hk⟩ | ⟨c, text, hc, htrim, hs⟩ | ⟨hc, hs⟩
  · rw [hk] at h
    cases h
    exact hc
  · rw [classify_of_sentinel hc htrim hs] at h
    split at h <;> cases h
  · rw [classify_of_not_sentinel hc hs] at h
    cases h

/-! ## The order of the failure tokens -/

/-- The same failure tokens in another order have the same longest one. -/
theorem failureDetail?_perm {failures : List Text} (h : failures.Perm v.failures) (line : Text) :
    ({ v with failures := failures } : Vocabulary).failureDetail? line = v.failureDetail? line := by
  apply Option.ext
  intro rest
  rw [failureDetail?_eq_some_iff, failureDetail?_eq_some_iff]
  refine exists_congr fun token => ⟨fun hlongest => ?_, fun hlongest => ?_⟩
  · exact ⟨h.mem_iff.mp hlongest.mem, hlongest.follows,
      fun other hother => hlongest.longest other (h.mem_iff.mpr hother)⟩
  · exact ⟨h.mem_iff.mpr hlongest.mem, hlongest.follows,
      fun other hother => hlongest.longest other (h.mem_iff.mp hother)⟩

/-- **The order of the failure tokens does not matter** for what a line is. A failure token decides exactly
if one heads the trimmed line, up to case, and neither an extra token nor the success token does. The line
is then a failure, and its detail is that of the text behind the longest failure token that heads it. -/
theorem failure_order_irrelevant {failures : List Text} (h : failures.Perm v.failures) (line : Text)
    (pending : Option Text) :
    ({ v with failures := failures } : Vocabulary).classify line pending = v.classify line pending
      ∧ ∀ status detail, v.classify line pending = .confirmation status (some detail)
        ↔ status = .failure ∧ (∀ e ∈ v.extras, ¬ BeginsFolded e.1 (trim line))
          ∧ ¬ BeginsFolded v.success (trim line)
          ∧ ∃ token rest, v.IsLongestFailure (trim line) token rest ∧ detail = Failure.ofText rest := by
  constructor
  · have hconfirmation : ({ v with failures := failures } : Vocabulary).confirmation? (trim line)
        = v.confirmation? (trim line) := by
      unfold confirmation?
      rw [failureDetail?_perm h]
      rfl
    unfold classify
    simp only [hconfirmation]
  · intro status detail
    rw [classify_eq_confirmation_iff]
    constructor
    · rintro (_ | _ | ⟨hextras, hsuccess, hlongest⟩)
      exact ⟨rfl, hextras, hsuccess, _, _, hlongest, rfl⟩
    · rintro ⟨rfl, hextras, hsuccess, token, rest, hlongest, rfl⟩
      exact .failure hextras hsuccess hlongest

/-- Three failure tokens head the line, two of them equally long, and the longest decides in either order. -/
theorem failure_order_irrelevant_cme :
    let v : Vocabulary := { failures := ["+CME", "+CME ERROR", "+cme error"] }
    let w : Vocabulary := { failures := ["+cme error", "+CME ERROR", "+CME"] }
    w.classify " +Cme Error: SIM, 10" none = v.classify " +Cme Error: SIM, 10" none
      ∧ v.classify " +Cme Error: SIM, 10" none = .confirmation .failure (some ⟨"SIM", 10⟩) := by
  intro v w
  have hperm : w.failures.Perm v.failures := List.reverse_perm v.failures
  obtain ⟨hsame, hdetail⟩ := failure_order_irrelevant hperm " +Cme Error: SIM, 10" none
  refine ⟨hsame, (hdetail .failure _).mpr ⟨rfl, nofun, ?_, "+CME ERROR", ": SIM, 10", ?_, by decide⟩⟩
  · rw [← afterFolded?_eq_none_iff]
    decide
  · have hlength : ∀ other ∈ v.failures, other.byteLength ≤ byteLength "+CME ERROR" := by decide
    exact ⟨by decide, afterFolded?_eq_some_iff_follows.mp (by decide), fun other hother _ =>
      hlength other hother⟩

end Vocabulary

end ModemLink
