/-
What a line is does not depend on the case of its letters.

A line is sorted by its blanks, by tokens that are compared up to case, by its first character, by the name
of the command in flight, and by the numbers and separators in the detail of a failure. Each of these goes
along with folding, so the kind of a folded line is the folded kind of the line. The first character is
compared exactly, and there it matters that no sentinel is a letter.

The choice among several failure tokens goes along with folding too: it is made by the length of what
follows them, and folding keeps lengths.
-/
import ModemLink.Proofs.Text.Case

set_option autoImplicit false

namespace ModemLink

/-! ## Equal up to case -/

/-- Details of a failure with the same code, and labels that are equal up to case. -/
structure Failure.SameUpToCase (f f' : Failure) : Prop where
  label : Text.equalFolded f.label f'.label = true
  code : f.code = f'.code

/-- **Equal up to case:** the same kind of line, with the same status and code, and with texts and labels
that are equal up to the case of ASCII letters. -/
inductive Line.SameUpToCase : Line → Line → Prop where
  | confirmation (status : Status) {failure failure' : Option Failure}
    (h : Option.Rel Failure.SameUpToCase failure failure') :
    SameUpToCase (.confirmation status failure) (.confirmation status failure')
  | body {text text' : Text} (h : Text.equalFolded text text' = true) :
    SameUpToCase (.body text) (.body text')
  | event {text text' : Text} (h : Text.equalFolded text text' = true) :
    SameUpToCase (.event text) (.event text')
  | plain {text text' : Text} (h : Text.equalFolded text text' = true) :
    SameUpToCase (.plain text) (.plain text')

/-- A detail with its label written small. -/
def Failure.folded (f : Failure) : Failure := { f with label := Text.folded f.label }

/-- A line with its texts written small. -/
def Line.folded : Line → Line
  | .confirmation status failure => .confirmation status (failure.map Failure.folded)
  | .body text => .body (Text.folded text)
  | .event text => .event (Text.folded text)
  | .plain text => .plain (Text.folded text)

theorem Failure.sameUpToCase_of_folded_eq {f f' : Failure} (h : f.folded = f'.folded) :
    f.SameUpToCase f' := by
  have hlabel := congrArg Failure.label h
  have hcode := congrArg Failure.code h
  exact ⟨Text.equalFolded_iff.mpr hlabel, hcode⟩

/-- Lines that are folded to the same one are equal up to case. -/
theorem Line.sameUpToCase_of_folded_eq {l l' : Line} (h : l.folded = l'.folded) :
    l.SameUpToCase l' := by
  cases l with
  | confirmation status failure =>
    cases l' with
    | confirmation status' failure' =>
      obtain ⟨rfl, hfailure⟩ := Line.confirmation.inj h
      refine .confirmation status ?_
      rcases failure with - | f <;> rcases failure' with - | f'
      · exact .none
      · cases hfailure
      · cases hfailure
      · exact .some (Failure.sameUpToCase_of_folded_eq (Option.some.inj hfailure))
    | _ => cases h
  | body text =>
    cases l' with
    | body text' => exact .body (Text.equalFolded_iff.mpr (Line.body.inj h))
    | _ => cases h
  | event text =>
    cases l' with
    | event text' => exact .event (Text.equalFolded_iff.mpr (Line.event.inj h))
    | _ => cases h
  | plain text =>
    cases l' with
    | plain text' => exact .plain (Text.equalFolded_iff.mpr (Line.plain.inj h))
    | _ => cases h

/-! ## Failures -/

/-- **The detail** of a folded text is the folded detail. -/
theorem Failure.ofText_folded (text : Text) :
    Failure.ofText (Text.folded text) = (Failure.ofText text).folded := by
  have hseparator (c : Char) : isSeparator c.toLower = isSeparator c :=
    Text.apply_toLower isSeparator (by decide) c
  unfold ofText
  rw [Text.dropWhile_folded hseparator, Text.trim_folded]
  generalize Text.trim (text.dropWhile isSeparator) = detail
  dsimp only
  rw [Text.splitFirst?_folded rfl]
  cases Text.splitFirst? ',' detail with
  | some parts =>
    obtain ⟨label, code⟩ := parts
    simp only [Option.map_some, Prod.map_apply, Text.trim_folded, Decimal.int32?_folded]
    rfl
  | none =>
    simp only [Option.map_none, Decimal.int32?_folded]
    cases Decimal.int32? detail with
    | some code => rfl
    | none => rfl

/-- The shortest of folded texts is the folded one: folding keeps lengths. -/
theorem Text.shortest?_map_folded (texts : List Text) :
    Text.shortest? (texts.map Text.folded) = (Text.shortest? texts).map Text.folded := by
  induction texts with
  | nil => rfl
  | cons s texts ih =>
    rw [List.map_cons, Text.shortest?, Text.shortest?, ih]
    cases Text.shortest? texts with
    | none => rfl
    | some t =>
      simp only [Option.map_some, Text.length_folded]
      split <;> rfl

namespace Vocabulary

variable (v : Vocabulary)

/-! ## Confirmations -/

theorem extra?_folded (line : Text) : v.extra? (Text.folded line) = v.extra? line := by
  unfold extra?
  simp only [Text.afterFolded?_folded, Option.isSome_map]

theorem failureDetail?_folded (line : Text) :
    v.failureDetail? (Text.folded line) = (v.failureDetail? line).map Text.folded := by
  unfold failureDetail?
  rw [← Text.shortest?_map_folded, List.map_filterMap]
  simp only [Text.afterFolded?_folded]

/-- **The confirmation** that a folded line is. -/
theorem confirmation?_folded (line : Text) :
    v.confirmation? (Text.folded line)
      = (v.confirmation? line).map fun c => (c.1, c.2.map Failure.folded) := by
  unfold confirmation?
  rw [extra?_folded, Text.afterFolded?_folded, Option.isSome_map, failureDetail?_folded]
  cases v.extra? line with
  | some status => rfl
  | none =>
    by_cases hsuccess : (Text.afterFolded? v.success line).isSome = true
    · simp only [if_pos hsuccess]
      rfl
    · simp only [if_neg hsuccess]
      cases v.failureDetail? line with
      | none => rfl
      | some rest => simp only [Option.map_some, Failure.ofText_folded]

/-! ## Lines -/

variable {v}

/-- A letter is no sentinel in either form, and what is no letter has one form only. -/
theorem toLower_mem_sentinels_iff (hsentinels : ∀ c ∈ v.sentinels, c.isAlpha = false) (c : Char) :
    c.toLower ∈ v.sentinels ↔ c ∈ v.sentinels := by
  constructor
  · intro h
    rw [(Text.toLower_eq_iff (hsentinels _ h)).mp rfl]
    exact h
  · intro h
    rw [(Text.toLower_eq_iff (hsentinels c h)).mpr rfl]
    exact h

/-- **The kind of a folded line** is the folded kind of the line. -/
theorem classify_folded (hsentinels : ∀ c ∈ v.sentinels, c.isAlpha = false) (line : Text)
    (pending : Option Text) :
    v.classify (Text.folded line) (pending.map Text.folded) = (v.classify line pending).folded := by
  unfold classify
  rw [Text.trim_folded]
  generalize Text.trim line = line
  dsimp only
  rw [confirmation?_folded]
  cases v.confirmation? line with
  | some outcome => rfl
  | none =>
    cases line with
    | nil => rfl
    | cons c text =>
      have hpending : (pending.map Text.folded).any (Text.namesCommand (Text.folded text))
          = pending.any (Text.namesCommand text) := by
        cases pending with
        | none => rfl
        | some name => exact Text.namesCommand_folded text name
      simp only [Option.map_none, Text.folded_cons, toLower_mem_sentinels_iff hsentinels, hpending]
      split
      · split <;> rfl
      · rfl

/-- **What a line is does not depend on case.** With no letter among the sentinels, two lines that are
equal up to the case of ASCII letters are of the same kind, with the same status and code, and with texts
and labels that are equal up to case. The name of the command in flight may be written in either case
too. -/
theorem classify_ignores_case (hsentinels : ∀ c ∈ v.sentinels, c.isAlpha = false)
    {line line' : Text} (hline : Text.equalFolded line line' = true) {pending pending' : Option Text}
    (hpending : Option.Rel (fun name name' => Text.equalFolded name name' = true) pending pending') :
    (v.classify line pending).SameUpToCase (v.classify line' pending') := by
  have hnames : pending.map Text.folded = pending'.map Text.folded := by
    cases hpending with
    | none => rfl
    | some h => exact congrArg some (Text.equalFolded_iff.mp h)
  apply Line.sameUpToCase_of_folded_eq
  rw [← classify_folded hsentinels, ← classify_folded hsentinels, Text.equalFolded_iff.mp hline, hnames]

/-- A failure and a piece of a reply, each in capital and in small letters. The failure begins with two
tokens. -/
theorem answers_in_small_letters :
    let v : Vocabulary := { failures := ["+CME", "+CME ERROR"] }
    (v.classify "+CME ERROR: SIM, 10" (some "CPIN".toList)).SameUpToCase
        (v.classify "+cme error: sim, 10" (some "cpin".toList))
      ∧ v.classify "+cme error: sim, 10" (some "cpin".toList)
        = .confirmation .failure (some ⟨"sim", 10⟩)
      ∧ (v.classify "+CPIN: Ready\r" (some "CPIN".toList)).SameUpToCase
        (v.classify "+cpin: READY\r" (some "cpin".toList))
      ∧ v.classify "+cpin: READY\r" (some "cpin".toList) = .body "cpin: READY" := by
  intro v
  have hsentinels : ∀ c ∈ v.sentinels, c.isAlpha = false := List.forall_mem_singleton.mpr rfl
  have hpending : Option.Rel (fun name name' : Text => Text.equalFolded name name' = true)
      (some "CPIN".toList) (some "cpin".toList) := .some (by decide)
  refine ⟨?_, by decide, ?_, by decide⟩
  · exact classify_ignores_case hsentinels (by decide) hpending
  · exact classify_ignores_case hsentinels (by decide) hpending

end Vocabulary

end ModemLink
