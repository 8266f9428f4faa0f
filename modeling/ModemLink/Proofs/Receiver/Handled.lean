/-
What one item of the framer can do to a receive path.

`Receiver.handle` is a chain of choices: is an event being continued, is the line blank, what kind
of line is it, is there a command in flight, does the table know it. `Handled` lists the outcomes
side by side, each with the choices that lead to it and with the whole state behind it.
`handle_handled` says that these are all, so that whatever else is shown of the receive path is
shown case by case of `Handled` and does not open the functions again.

The rest of the file goes from items to bytes. What an item does has nothing to do with the framer,
so bytes do what the items do that the framer makes of them, and a line from the start of a line is
handled as it stands.
-/
import ModemLink.Proofs.Framer.WireLine
import ModemLink.Receiver

set_option autoImplicit false

namespace ModemLink.Receiver

open ModemLink

variable {ε : Type}

/-! ## The cases -/

/-- The receive path once a complete line is counted. -/
def counted (r : Receiver ε) : Receiver ε := r.count fun s => { s with lines := s.lines + 1 }

/-- What a line is for a receive path in its present state. -/
def kind (r : Receiver ε) (raw : Bytes) : Line :=
  r.vocabulary.classify (Utf8.decode raw) r.tracker.pendingName?

/-- A line that is neither taken in by a continued event nor blank. -/
structure IsLookedAt (r : Receiver ε) (raw : Bytes) : Prop where
  capture_eq_none : r.capture = none
  not_blank : Text.trim (Utf8.decode raw) ≠ []

/-- The table knows the line. -/
def Knows (r : Receiver ε) (raw : Bytes) (m : EventMatch ε) : Prop :=
  (∃ text, r.kind raw = .event text ∧ r.table.resolve text = .ok m)
    ∨ ∃ text, r.kind raw = .plain text ∧ r.table.resolveBare text = .ok m

/-- A continued event with a line added to it. -/
def continued (r : Receiver ε) (c : Capture ε) (raw : Bytes) : Text :=
  c.args ++ r.vocabulary.continuation :: Utf8.decode raw

/-- **The outcomes of one item.** -/
inductive Handled (r : Receiver ε) : Framed → Receiver ε → Option (Output ε) → Prop where
  /-- the framer gave up a line -/
  | overlong (limit : Nat) :
    Handled r (.overlong limit) (r.count fun s => { s with overflows := s.overflows + 1 }) none
  /-- a continued event takes the line in and waits for more -/
  | taken (raw : Bytes) (c : Capture ε) (hc : r.capture = some c) (hmore : c.remaining - 1 ≠ 0) :
    Handled r (.line raw)
      { r.counted with capture := some ⟨c.event, r.continued c raw, c.remaining - 1⟩ } none
  /-- a continued event takes its last line in -/
  | completed (raw : Bytes) (c : Capture ε) (hc : r.capture = some c)
    (hlast : c.remaining - 1 = 0) :
    Handled r (.line raw)
      ({ r.counted with capture := none }.count fun s => { s with events := s.events + 1 })
      (some (.event ⟨c.event, r.continued c raw⟩))
  | blank (raw : Bytes) (hc : r.capture = none) (hb : Text.trim (Utf8.decode raw) = []) :
    Handled r (.line raw) r.counted none
  /-- a confirmation ends the command in flight -/
  | confirmed (raw : Bytes) (p : Pending) (status : Status) (failure : Option Failure)
    (hl : r.IsLookedAt raw) (hk : r.kind raw = .confirmation status failure)
    (hp : r.tracker.current = some p) (ht : status.isTerminal = true) :
    Handled r (.line raw)
      ({ r.counted with tracker := { r.tracker with current := none } }.count
        fun s => { s with confirmations := s.confirmations + 1 })
      (some (.resolved (p.resolve status failure)))
  /-- a confirmation finds nothing to end -/
  | stray (raw : Bytes) (status : Status) (failure : Option Failure) (hl : r.IsLookedAt raw)
    (hk : r.kind raw = .confirmation status failure)
    (hp : status.isTerminal = true → r.tracker.current = none) :
    Handled r (.line raw)
      (r.counted.count fun s => { s with strayConfirmations := s.strayConfirmations + 1 }) none
  /-- a piece of the reply -/
  | body (raw : Bytes) (text : Text) (hl : r.IsLookedAt raw) (hk : r.kind raw = .body text) :
    Handled r (.line raw)
      ({ r.counted with tracker := r.tracker.append text }.count
        fun s => { s with bodyLines := s.bodyLines + 1 }) none
  /-- an event of one line -/
  | announced (raw : Bytes) (m : EventMatch ε) (hl : r.IsLookedAt raw) (hm : r.Knows raw m)
    (hz : m.trailing = 0) :
    Handled r (.line raw) (r.counted.count fun s => { s with events := s.events + 1 })
      (some (.event ⟨m.event, m.args⟩))
  /-- an event that goes on with the next line -/
  | opened (raw : Bytes) (m : EventMatch ε) (hl : r.IsLookedAt raw) (hm : r.Knows raw m)
    (hz : m.trailing ≠ 0) :
    Handled r (.line raw) { r.counted with capture := some ⟨m.event, m.args, m.trailing⟩ } none
  /-- a line with a sentinel that the table does not know -/
  | unknown (raw : Bytes) (text : Text) (err : Error) (hl : r.IsLookedAt raw)
    (hk : r.kind raw = .event text) (hm : r.table.resolve text = .error err) :
    Handled r (.line raw)
      (r.counted.count fun s => { s with unknownEvents := s.unknownEvents + 1 }) none
  /-- a plain line that the table does not know -/
  | dropped (raw : Bytes) (text : Text) (err : Error) (hl : r.IsLookedAt raw)
    (hk : r.kind raw = .plain text) (hm : r.table.resolveBare text = .error err) :
    Handled r (.line raw)
      (r.counted.count fun s => { s with droppedLines := s.droppedLines + 1 }) none

/-! ## There are no others -/

/-- A line that the table knows is announced, or goes on with the next line. -/
theorem handled_matched (r : Receiver ε) (raw : Bytes) (m : EventMatch ε) (hl : r.IsLookedAt raw)
    (hm : r.Knows raw m) :
    Handled r (.line raw) (r.counted.matched m).1 (r.counted.matched m).2 := by
  unfold matched
  by_cases hz : m.trailing = 0
  · rw [if_pos hz]
    exact .announced raw m hl hm hz
  · rw [if_neg hz]
    exact .opened raw m hl hm hz

/-- A line that is looked at ends in one of the cases of its kind. -/
theorem handled_dispatch (r : Receiver ε) (raw : Bytes) (hl : r.IsLookedAt raw) :
    Handled r (.line raw) (r.counted.dispatch (r.kind raw)).1
      (r.counted.dispatch (r.kind raw)).2 := by
  have htracker : r.counted.tracker = r.tracker := rfl
  have htable : r.counted.table = r.table := rfl
  cases hk : r.kind raw with
  | confirmation status failure =>
    simp only [dispatch, Tracker.resolve?, htracker]
    by_cases ht : status.isTerminal = true
    · rw [if_pos ht]
      cases hp : r.tracker.current with
      | none => exact .stray raw status failure hl hk fun _ => hp
      | some p => exact .confirmed raw p status failure hl hk hp ht
    · rw [if_neg ht]
      exact .stray raw status failure hl hk fun h => absurd h ht
  | body text => exact .body raw text hl hk
  | event text =>
    simp only [dispatch, htable]
    cases hm : r.table.resolve text with
    | ok m => exact handled_matched r raw m hl (.inl ⟨text, hk, hm⟩)
    | error err => exact .unknown raw text err hl hk hm
  | plain text =>
    simp only [dispatch, htable]
    cases hm : r.table.resolveBare text with
    | ok m => exact handled_matched r raw m hl (.inr ⟨text, hk, hm⟩)
    | error err => exact .dropped raw text err hl hk hm

/-- **There are no other outcomes** than those of `Handled`. -/
theorem handle_handled (r : Receiver ε) (item : Framed) :
    Handled r item (r.handle item).1 (r.handle item).2 := by
  cases item with
  | overlong limit => exact .overlong limit
  | line raw =>
    have hcapture : r.counted.capture = r.capture := rfl
    show Handled r (.line raw) (r.counted.handleText (Utf8.decode raw)).1
      (r.counted.handleText (Utf8.decode raw)).2
    unfold handleText
    rw [hcapture]
    cases hc : r.capture with
    | some c =>
      simp only [continueCapture]
      by_cases hlast : c.remaining - 1 = 0
      · rw [if_pos hlast]
        exact .completed raw c hc hlast
      · rw [if_neg hlast]
        exact .taken raw c hc hlast
    | none =>
      by_cases hb : Text.trim (Utf8.decode raw) = []
      · simp only [if_pos hb]
        exact .blank raw hc hb
      · simp only [if_neg hb]
        exact handled_dispatch r raw ⟨hc, hb⟩

/-! ## From items to bytes -/

/-- The configuration and the framer are not touched. -/
theorem Handled.fixed {r r' : Receiver ε} {item : Framed} {out : Option (Output ε)}
    (h : Handled r item r' out) :
    r'.vocabulary = r.vocabulary ∧ r'.table = r.table ∧ r'.framer = r.framer := by
  cases h <;> exact ⟨rfl, rfl, rfl⟩

/-- A byte that completes no item only moves the framer on. -/
theorem push_of_none {r : Receiver ε} {b : UInt8} (h : (r.framer.push b).2 = none) :
    r.push b = ({ r with framer := (r.framer.push b).1 }, none) := by
  simp only [push, h]

/-- A byte that completes an item does what the item does. -/
theorem push_of_some {r : Receiver ε} {b : UInt8} {item : Framed}
    (h : (r.framer.push b).2 = some item) :
    r.push b = ({ r with framer := (r.framer.push b).1 } : Receiver ε).handle item := by
  simp only [push, h]

theorem feed_cons (r : Receiver ε) (b : UInt8) (bytes : Bytes) :
    r.feed (b :: bytes)
      = (((r.push b).1.feed bytes).1, (r.push b).2.toList ++ ((r.push b).1.feed bytes).2) := rfl

/-- A byte changes neither the vocabulary nor the table. -/
theorem push_fixed (r : Receiver ε) (b : UInt8) :
    (r.push b).1.vocabulary = r.vocabulary ∧ (r.push b).1.table = r.table := by
  cases h : (r.framer.push b).2 with
  | none =>
    rw [push_of_none h]
    exact ⟨rfl, rfl⟩
  | some item =>
    rw [push_of_some h]
    obtain ⟨hv, ht, -⟩ := (handle_handled { r with framer := (r.framer.push b).1 } item).fixed
    exact ⟨hv, ht⟩

theorem feed_fixed (r : Receiver ε) (bytes : Bytes) :
    (r.feed bytes).1.vocabulary = r.vocabulary ∧ (r.feed bytes).1.table = r.table := by
  induction bytes generalizing r with
  | nil => exact ⟨rfl, rfl⟩
  | cons b bytes ih =>
    obtain ⟨hv, ht⟩ := push_fixed r b
    obtain ⟨hv', ht'⟩ := ih (r.push b).1
    exact ⟨hv'.trans hv, ht'.trans ht⟩

/-! ## Lines in a row -/

/-- Deals with items one after the other and collects what they produce. -/
def handleAll : Receiver ε → List Framed → Receiver ε × List (Output ε)
  | r, [] => (r, [])
  | r, item :: items =>
    let (r', out) := r.handle item
    let (r'', outs) := r'.handleAll items
    (r'', out.toList ++ outs)

theorem matched_framer (r : Receiver ε) (f : Framer) (m : EventMatch ε) :
    ({ r with framer := f } : Receiver ε).matched m
      = ({ (r.matched m).1 with framer := f }, (r.matched m).2) := by
  unfold matched
  split <;> rfl

theorem dispatch_framer (r : Receiver ε) (f : Framer) (line : Line) :
    ({ r with framer := f } : Receiver ε).dispatch line
      = ({ (r.dispatch line).1 with framer := f }, (r.dispatch line).2) := by
  cases line with
  | confirmation status failure =>
    simp only [dispatch]
    split <;> rfl
  | body text => rfl
  | event text =>
    simp only [dispatch]
    split
    · exact matched_framer r f _
    · rfl
  | plain text =>
    simp only [dispatch]
    split
    · exact matched_framer r f _
    · rfl

/-- What an item does has nothing to do with the framer. -/
theorem handle_framer (r : Receiver ε) (f : Framer) (item : Framed) :
    ({ r with framer := f } : Receiver ε).handle item
      = ({ (r.handle item).1 with framer := f }, (r.handle item).2) := by
  cases item with
  | overlong limit => rfl
  | line raw =>
    show ({ r.counted with framer := f } : Receiver ε).handleText (Utf8.decode raw)
      = ({ (r.counted.handleText (Utf8.decode raw)).1 with framer := f },
        (r.counted.handleText (Utf8.decode raw)).2)
    simp only [handleText]
    split
    · simp only [continueCapture]
      split <;> rfl
    · split
      · rfl
      · exact dispatch_framer r.counted f _

theorem handleAll_framer (r : Receiver ε) (f : Framer) (items : List Framed) :
    ({ r with framer := f } : Receiver ε).handleAll items
      = ({ (r.handleAll items).1 with framer := f }, (r.handleAll items).2) := by
  induction items generalizing r with
  | nil => rfl
  | cons item items ih => simp only [handleAll, handle_framer, ih]

/-- **Framing, then handling.** Bytes do what the items do that the framer makes of them. -/
theorem feed_eq_handleAll (r : Receiver ε) (bytes : Bytes) :
    r.feed bytes
      = ({ (r.handleAll (r.framer.feed bytes).2).1 with framer := (r.framer.feed bytes).1 },
        (r.handleAll (r.framer.feed bytes).2).2) := by
  induction bytes generalizing r with
  | nil => rfl
  | cons b bytes ih =>
    cases h : (r.framer.push b).2 with
    | none =>
      simp only [feed, Framer.feed, push_of_none h, h, ih, handleAll_framer, Option.toList_none,
        List.nil_append]
    | some item =>
      simp only [feed, Framer.feed, push_of_some h, h, ih, handle_framer, handleAll_framer,
        Option.toList_some, List.singleton_append, handleAll]

/-- **A line of text,** within the limit and from the start of a line, is handled as it stands. -/
theorem feed_line (r : Receiver ε) (hf : r.framer.reset = r.framer) (w : Bytes)
    (hw : r.framer.terminators.IsWireLine w)
    (hp : ∀ b, w.head? = some b → r.framer.prompt ≠ some b)
    (hlength : w.length ≤ r.framer.limit) :
    r.feed (w ++ r.framer.terminators.bytes)
      = ((r.handle (.line w)).1, (r.handle (.line w)).2.toList) := by
  have hdiscarding : r.framer.discarding = false := congrArg Framer.discarding hf.symm
  have houtcome :=
    Framer.outcome_of_le r.framer.terminators r.framer.limit r.framer.prompt w hlength
  simp only [Framer.outcome, Prod.mk.injEq, Framer.mk.injEq, true_and, List.cons.injEq,
    and_true] at houtcome
  have hframer : (r.handle (.line w)).1.framer = r.framer :=
    (handle_handled r (.line w)).fixed.2.2
  rw [feed_eq_handleAll, Framer.feed_wireLine r.framer hf w hw hp, houtcome.1, houtcome.2,
    ← hdiscarding]
  simp only [handleAll, List.append_nil]
  rw [← hframer]

/-- **A prompt** at the start of a line is a line by itself. -/
theorem push_prompt (r : Receiver ε) (hf : r.framer.reset = r.framer) (b : UInt8)
    (hp : r.framer.prompt = some b) (hb : r.framer.terminators.bytes.head? ≠ some b) :
    r.push b = r.handle (.line [b]) := by
  have hpush := r.framer.push_prompt hf b hp hb
  rw [push_of_some (congrArg Prod.snd hpush), hpush]

end ModemLink.Receiver
