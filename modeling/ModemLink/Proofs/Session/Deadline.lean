/-
How long a wait takes.

A wait sleeps in slices of a poll step, the last of them cut short by its deadline, and looks whether the
resolution stands after each. Nothing else happens meanwhile, so the slices put together are one sleep:
the wait ends when the resolution comes, and at its deadline if none comes. How long a slice is has no
part in that, as long as it is not nothing at all.
-/
import ModemLink.Proofs.Session.Poised

set_option autoImplicit false

namespace ModemLink

namespace Session

variable {ε : Type} {f : InFlight} {expected : Status} {deadline : Nat}

/-! ## All slices are one sleep -/

/-- Sleeping for a slice, and then until the deadline, is sleeping until the deadline. -/
theorem advanceToSlot_slice {s : Session ε} (h : s.timeline.Settled) (hopen : s.now < deadline) :
    (s.slice f deadline).advanceToSlot f deadline = s.advanceToSlot f deadline :=
  congrArg (fun t : Timeline ε => { s with timeline := t })
    (Timeline.advance_advance (fun _ _ => rfl) (by omega) h)

theorem slice_ended {s : Session ε} (h : s.timeline.Settled) :
    s.timeline.Ended (s.now + min s.timing.pollStep (deadline - s.now))
      (fun t => t.engine.slot f.ticket != .waiting) (s.slice f deadline).timeline :=
  Timeline.advance_ended (fun _ _ => rfl) h (Nat.le_add_right _ _)

theorem look?_eq_none {s : Session ε} (h : s.look? f expected = none) :
    s.timeline.engine.slot f.ticket = .waiting := by
  unfold look? at h
  split at h
  · cases h
  · cases h
  · assumption

theorem look?_eq_some {s : Session ε} {out : Except Error Text × Session ε}
    (h : s.look? f expected = some out) : s.timeline.engine.slot f.ticket ≠ .waiting := by
  intro hwaiting
  unfold look? at h
  rw [hwaiting] at h
  cases h

/-- A slice that ends without a resolution has its full length. -/
theorem slice_now {s : Session ε} (h : s.timeline.Settled)
    (hlook : (s.slice f deadline).look? f expected = none) :
    (s.slice f deadline).now = s.now + min s.timing.pollStep (deadline - s.now) := by
  rcases (slice_ended h).ended with hdone | hnow
  · rw [look?_eq_none hlook] at hdone
    cases hdone
  · exact hnow

/-- **A wait is one sleep,** until its deadline or until the resolution stands or cannot come any
more. -/
theorem waitRounds_conclude {s : Session ε} (h : s.timeline.Settled) (hstep : 0 < s.timing.pollStep)
    {rounds : Nat} (hrounds : deadline ≤ s.now + rounds) (hopen : s.now < deadline) :
    s.waitRounds f expected deadline rounds =
      ((s.advanceToSlot f deadline).look? f expected).getD
        ((s.advanceToSlot f deadline).giveUp f) := by
  induction rounds generalizing s with
  | zero => omega
  | succ rounds ih =>
    have hsame := advanceToSlot_slice h hopen (f := f)
    rw [waitRounds_succ f expected rounds hopen]
    rcases hlook : (s.slice f deadline).look? f expected with - | out
    · have hnow := slice_now h hlook
      simp only [Option.getD_none]
      by_cases hover : deadline ≤ (s.slice f deadline).now
      · -- the slice was the last one
        have hlast : s.slice f deadline = s.advanceToSlot f deadline := by
          unfold slice
          rw [show s.now + min s.timing.pollStep (deadline - s.now) = deadline by omega]
        rw [waitRounds_over f expected rounds hover, ← hlast, hlook, Option.getD_none]
      · have hsettled : (s.slice f deadline).timeline.Settled := (slice_ended h).settled
        rw [ih hsettled hstep (by omega) (by omega), hsame]
    · -- the resolution ends this slice, and a longer sleep as well
      have hdone : ((s.slice f deadline).timeline.engine.slot f.ticket != .waiting) = true := by
        rw [bne_iff_ne]
        exact look?_eq_some hlook
      have hstays : (s.slice f deadline).advanceToSlot f deadline = s.slice f deadline :=
        congrArg (fun t : Timeline ε => { s with timeline := t }) (Timeline.advance_of_done hdone)
      rw [← hsame, hstays, hlook, Option.getD_some, Option.getD_some]

/-- **The rounds that a wait takes,** one by one, as long as they go on. -/
inductive Rounds (f : InFlight) (expected : Status) (deadline : Nat) :
    Nat → Session ε → Except Error Text × Session ε → Prop where
  | over (s : Session ε) (h : deadline ≤ s.now) : Rounds f expected deadline 0 s (s.giveUp f)
  | found (s : Session ε) (out : Except Error Text × Session ε) (h : s.now < deadline)
    (hlook : (s.slice f deadline).look? f expected = some out) : Rounds f expected deadline 1 s out
  | again (s : Session ε) (n : Nat) (out : Except Error Text × Session ε) (h : s.now < deadline)
    (hlook : (s.slice f deadline).look? f expected = none)
    (hrest : Rounds f expected deadline n (s.slice f deadline) out) :
    Rounds f expected deadline (n + 1) s out

/-- **There are no more rounds** than slices of a poll step up to the deadline, the last one counted in
full. -/
theorem exists_rounds {s : Session ε} (h : s.timeline.Settled) (hstep : 0 < s.timing.pollStep)
    {rounds : Nat} (hrounds : deadline ≤ s.now + rounds) :
    ∃ n, Rounds f expected deadline n s (s.waitRounds f expected deadline rounds)
      ∧ n * s.timing.pollStep < deadline - s.now + s.timing.pollStep := by
  have hover (s : Session ε) (rounds : Nat) (hstep : 0 < s.timing.pollStep)
      (hover : deadline ≤ s.now) :
      ∃ n, Rounds f expected deadline n s (s.waitRounds f expected deadline rounds)
        ∧ n * s.timing.pollStep < deadline - s.now + s.timing.pollStep := by
    refine ⟨0, ?_, by omega⟩
    rw [waitRounds_over f expected rounds hover]
    exact .over s hover
  induction rounds generalizing s with
  | zero => exact hover s 0 hstep hrounds
  | succ rounds ih =>
    by_cases hopen : s.now < deadline
    · rw [waitRounds_succ f expected rounds hopen]
      rcases hlook : (s.slice f deadline).look? f expected with - | out
      · have hnow := slice_now h hlook
        have hsettled : (s.slice f deadline).timeline.Settled := (slice_ended h).settled
        obtain ⟨n, hrest, hn⟩ := ih hsettled hstep (by omega)
        refine ⟨n + 1, .again s n _ hopen hlook hrest, ?_⟩
        rw [show (s.slice f deadline).timing = s.timing from rfl] at hn
        rw [Nat.succ_mul]
        by_cases hfull : s.timing.pollStep ≤ deadline - s.now
        · omega
        · -- a slice that was cut short is the last one
          have hlast : n * s.timing.pollStep < 1 * s.timing.pollStep := by omega
          obtain rfl : n = 0 := Nat.lt_one_iff.mp (Nat.lt_of_mul_lt_mul_right hlast)
          omega
      · exact ⟨1, .found s out hopen hlook, by omega⟩
    · exact hover s _ hstep (by omega)

/-! ## What a wait comes to -/

/-- **A session with a command in flight,** between two actions. Whatever time brings, the command's
resolution stands, or somebody waits for it, or reading has ended. -/
structure Awaits (s : Session ε) (f : InFlight) : Prop extends Poised s where
  inFlight : s.inFlight = some f

namespace Awaits

variable {s : Session ε}

theorem outlook (h : s.Awaits f) {b : Nat} (hb : s.now ≤ b) :
    (s.timeline.sleepUntil b).engine.Outlook f.ticket :=
  Engine.outlook_of_fate ((h.sleepUntil hb).fate h.inFlight) (h.requests_sleepUntil b)

/-- **What stands goes on standing,** and what cannot come any more does not come. -/
theorem slot_later (h : s.Awaits f) {a b : Nat} (ha : s.now ≤ a) (hab : a ≤ b)
    (hslot : (s.timeline.sleepUntil a).engine.slot f.ticket ≠ .waiting) :
    (s.timeline.sleepUntil b).engine.slot f.ticket
      = (s.timeline.sleepUntil a).engine.slot f.ticket := by
  rw [← Timeline.sleepUntil_sleepUntil h.settled hab]
  have hnone := h.requests_sleepUntil a
  cases h.outlook ha with
  | delivered r hdelivered hlookup hidle =>
    rw [hdelivered]
    have hstanding := Timeline.advance_keeps (P := Engine.Standing f.ticket r) (fun _ _ h => h)
      (fun _ h => h) (fun _ _ h => h)
      (fun e now outcome _ h => h.heard (Engine.received_heard e now outcome)) b (fun _ => false)
      hnone ⟨hlookup, hidle⟩
    exact hstanding.slot_eq
  | waiting hwaiting => exact absurd hwaiting hslot
  | lost hclosed hlookup hwaiter hconnected =>
    rw [hclosed]
    have hlost := Timeline.advance_keeps (P := Engine.Lost f.ticket)
      (fun _ _ h => ⟨h.lookup, h.waiter, h.connected⟩) (fun _ h => ⟨h.lookup, h.waiter, h.connected⟩)
      (fun _ _ h => ⟨h.lookup, h.waiter, h.connected⟩) (fun e now outcome hlive h => ?_) b
      (fun _ => false) hnone ⟨hlookup, hwaiter, hconnected⟩
    · refine hlost.slot_eq ?_
      have hlater := h.requests_sleepUntil b
      rw [← Timeline.sleepUntil_sleepUntil h.settled hab] at hlater
      exact hlater
    · -- whoever reads is still connected
      cases h.connected.symm.trans (Bool.and_eq_true_iff.mp hlive).2

end Awaits

end Session

/-- **When a resolution is delivered.** Left to itself, an engine has it under a ticket from that time
on, and not before. -/
def Timeline.Delivers {ε : Type} (t : Timeline ε) (ticket : Nat) (r : Resolved) (time : Nat) : Prop :=
  ∀ b, t.now ≤ b → ((t.sleepUntil b).engine.slot ticket = .delivered r ↔ time ≤ b)

namespace Session

variable {ε : Type} {s : Session ε} {f : InFlight} {expected : Status}

/-- Whatever stands at some time was delivered at a time. -/
theorem Awaits.exists_delivers (h : s.Awaits f) {b : Nat} (hb : s.now ≤ b) {r : Resolved}
    (hslot : (s.timeline.sleepUntil b).engine.slot f.ticket = .delivered r) :
    ∃ time ≤ b, s.timeline.Delivers f.ticket r time := by
  have hended : s.timeline.Ended b (fun t => t.engine.slot f.ticket != .waiting)
      (s.timeline.advance b fun t => t.engine.slot f.ticket != .waiting) :=
    Timeline.advance_ended (fun _ _ => rfl) h.settled hb
  generalize s.timeline.advance b (fun t => t.engine.slot f.ticket != .waiting) = t at hended
  have hle : s.now ≤ t.now := hended.now_le
  have hfirst : (s.timeline.sleepUntil t.now).engine.slot f.ticket ≠ .waiting := by
    rcases hended.ended with hdone | hnow
    · rw [← hended.sleep]
      exact bne_iff_ne.mp hdone
    · rw [hnow, hslot]
      exact nofun
  have hsame := h.slot_later hle hended.le_target hfirst
  refine ⟨t.now, hended.le_target, fun b' hb' => ⟨fun hslot' => ?_, fun hle' => ?_⟩⟩
  · by_contra hlt
    have hwaiting := hended.before b' hb' (Nat.lt_of_not_le hlt)
    rw [hslot'] at hwaiting
    cases hwaiting
  · exact (h.slot_later hle hle' hfirst).trans (hsame.symm.trans hslot)

/-- **A wait is one sleep,** and then it looks. -/
theorem wait_eq (hsettled : s.timeline.Settled) (hstep : 0 < s.timing.pollStep)
    (hf : s.inFlight = some f) (hterminal : expected.isTerminal = true) {timeout : Nat}
    (htimeout : 0 < timeout) :
    let slept := { s with inFlight := none }.advanceToSlot f (s.now + timeout)
    s.wait timeout expected = (slept.look? f expected).getD (slept.giveUp f) := by
  rw [wait_of_inFlight hf hterminal]
  exact waitRounds_conclude (s := { s with inFlight := none }) hsettled hstep (Nat.le_refl _)
    (Nat.lt_add_of_pos_right htimeout)

theorem Awaits.exists_sleep (h : s.Awaits f) (hterminal : expected.isTerminal = true) {timeout : Nat}
    (htimeout : 0 < timeout) :
    ∃ t, s.timeline.Ended (s.now + timeout) (fun t => t.engine.slot f.ticket != .waiting) t
      ∧ let slept := { s with inFlight := none, timeline := t }
        s.wait timeout expected = (slept.look? f expected).getD (slept.giveUp f) :=
  ⟨_, Timeline.advance_ended (fun _ _ => rfl) h.settled (Nat.le_add_right _ _),
    wait_eq h.settled h.pollStep_pos h.inFlight hterminal htimeout⟩

/-- What a wait finds at its end is what stands at its deadline. -/
theorem Awaits.slot_ended (h : s.Awaits f) {deadline : Nat} {t : Timeline ε}
    (hended : s.timeline.Ended deadline (fun t => t.engine.slot f.ticket != .waiting) t) :
    t.engine.slot f.ticket = (s.timeline.sleepUntil deadline).engine.slot f.ticket := by
  rw [hended.sleep]
  rcases hended.ended with hdone | hnow
  · rw [hended.sleep] at hdone
    exact (h.slot_later hended.now_le hended.le_target (bne_iff_ne.mp hdone)).symm
  · rw [hnow]

/-- **A wait takes no more rounds** than there are slices of a poll step. -/
theorem Awaits.wait_rounds (h : s.Awaits f) (hterminal : expected.isTerminal = true) (timeout : Nat) :
    ∃ rounds,
      Rounds f expected (s.now + timeout) rounds { s with inFlight := none } (s.wait timeout expected)
      ∧ rounds * s.timing.pollStep < timeout + s.timing.pollStep := by
  obtain ⟨rounds, hrounds, hlt⟩ := exists_rounds (s := { s with inFlight := none }) (f := f)
    h.settled h.pollStep_pos (Nat.le_refl (s.now + timeout))
  have hleft : s.now + timeout - s.now = timeout := Nat.add_sub_cancel_left _ _
  rw [wait_of_inFlight h.inFlight hterminal]
  refine ⟨rounds, hrounds, ?_⟩
  rw [← hleft]
  exact hlt

/-- **A confirmation that comes in time** ends the wait at once. -/
theorem Awaits.wait_delivered (h : s.Awaits f) (hterminal : expected.isTerminal = true)
    {timeout time : Nat} (htimeout : 0 < timeout) {r : Resolved}
    (hdelivers : s.timeline.Delivers f.ticket r time) (htime : time < s.now + timeout) :
    (s.wait timeout expected).1 =
        (if r.resolution.status = expected then .ok r.resolution.body
          else .error (.mismatch expected r.resolution.status r.resolution.failure))
      ∧ (s.wait timeout expected).2.now = max s.now time := by
  obtain ⟨t, hended, hwait⟩ := h.exists_sleep hterminal htimeout
  have hle : s.now ≤ t.now := hended.now_le
  have hafter := (hdelivers (max s.now time) (Nat.le_max_left _ _)).mpr (Nat.le_max_right _ _)
  -- it does not last longer, since the resolution stands by then
  have hnot_later : ¬ max s.now time < t.now := by
    intro hlt
    have hwaiting := hended.before (max s.now time) (Nat.le_max_left _ _) hlt
    rw [hafter] at hwaiting
    cases hwaiting
  -- and it does not end before, since whatever else could end it would be there to stay
  have hnot_earlier : ¬ t.now < max s.now time := by
    intro hlt
    have hslot : t.engine.slot f.ticket ≠ .waiting := by
      rcases hended.ended with hdone | hnow
      · exact bne_iff_ne.mp hdone
      · omega
    rw [hended.sleep] at hslot
    have hsame := h.slot_later hle (Nat.le_of_lt hlt) hslot
    have hearly := (hdelivers t.now hle).mp (hsame.symm.trans hafter)
    omega
  have hnow : t.now = max s.now time := by omega
  have hslot : t.engine.slot f.ticket = .delivered r := by
    rw [hended.sleep, hnow]
    exact hafter
  rw [hwait]
  simp only [look?, hslot, Option.getD_some, finish_eq]
  exact ⟨trivial, hnow⟩

/-- **Without a confirmation** the wait gives up at its deadline. -/
theorem Awaits.wait_timeout (h : s.Awaits f) (hterminal : expected.isTerminal = true)
    {timeout : Nat} (htimeout : 0 < timeout)
    (hnone : ∀ r, (s.timeline.sleepUntil (s.now + timeout)).engine.slot f.ticket ≠ .delivered r)
    (hconnected : (s.timeline.sleepUntil (s.now + timeout)).engine.connected = true) :
    (s.wait timeout expected).1 = .error .timeout
      ∧ (s.wait timeout expected).2.now = s.now + timeout := by
  obtain ⟨t, hended, hwait⟩ := h.exists_sleep hterminal htimeout
  have hwaiting : t.engine.slot f.ticket = .waiting := by
    rw [h.slot_ended hended]
    cases h.outlook (Nat.le_add_right s.now timeout) with
    | delivered r hdelivered => exact absurd hdelivered (hnone r)
    | waiting hwaiting => exact hwaiting
    | lost hclosed hlookup hwaiter hlost => cases hconnected.symm.trans hlost
  have hnow : t.now = s.now + timeout := by
    rcases hended.ended with hdone | hnow
    · rw [hwaiting] at hdone
      cases hdone
    · exact hnow
  rw [hwait]
  simp only [look?, hwaiting, Option.getD_none]
  exact ⟨rfl, hnow⟩

/-! ## The poll step has no part in it -/

end Session

/-- The engine reads for another while at a time. -/
def Engine.withPollStep {τ ε : Type} (step : Nat) (e : Engine τ ε) : Engine τ ε :=
  { e with pollStep := step }

/-- The engine of a timeline reads for another while at a time. -/
def Timeline.withPollStep {ε : Type} (step : Nat) (t : Timeline ε) : Timeline ε :=
  { t with engine := t.engine.withPollStep step }

/-- A session with another poll step in force, everything else the same. -/
def Session.withPollStep {ε : Type} (step : Nat) (s : Session ε) : Session ε :=
  { s with
    timeline := s.timeline.withPollStep step
    timing := { s.timing with pollStep := step } }

namespace Engine

variable {ε : Type} (step : Nat)

theorem deliver_withPollStep (now : Nat) (output : Output ε) (e : Engine Link ε) :
    (e.withPollStep step).deliver now output = (e.deliver now output).withPollStep step := by
  unfold deliver withPollStep
  cases output with
  | resolved r =>
    simp only
    split
    · split <;> rfl
    · rfl
  | event n =>
    simp only
    split <;> rfl

theorem received_withPollStep (now : Nat) (outcome : Except Error Bytes) (e : Engine Link ε) :
    (e.withPollStep step).received now outcome = (e.received now outcome).withPollStep step := by
  rcases outcome with err | bytes
  · cases err <;> rfl
  · have hdelivered (outputs : List (Output ε)) (e : Engine Link ε) :
        outputs.foldl (fun e o => e.deliver now o) (e.withPollStep step)
          = (outputs.foldl (fun e o => e.deliver now o) e).withPollStep step := by
      induction outputs generalizing e with
      | nil => rfl
      | cons output outputs ih =>
        rw [List.foldl_cons, List.foldl_cons, deliver_withPollStep, ih]
    exact hdelivered _ { e with receiver := (e.receiver.feed bytes).1 }

theorem drain_withPollStep (now n : Nat) (e : Engine Link ε) :
    (e.withPollStep step).drain now n = (e.drain now n).withPollStep step := by
  induction n generalizing e with
  | zero => rfl
  | succ n ih =>
    have hlive : (e.withPollStep step).running = e.running
        ∧ (e.withPollStep step).connected = e.connected := ⟨rfl, rfl⟩
    have htransport : (e.withPollStep step).transport = e.transport := rfl
    unfold drain
    rw [hlive.1, hlive.2, htransport]
    split
    · rcases Transport.receive readSize e.transport with ⟨- | outcome, link⟩
      · rfl
      · simp only
        rw [← ih, ← received_withPollStep]
        rfl
    · rfl

end Engine

namespace Timeline

variable {ε : Type} (step : Nat) {t : Timeline ε}

theorem settle_withPollStep (hnone : t.engine.requests = []) :
    (t.withPollStep step).settle = t.settle.withPollStep step := by
  have hdrain : (t.withPollStep step).met.run (t.withPollStep step).now
      = (t.met.run t.now).withPollStep step := by
    rw [run_met hnone, run_met (t := t.withPollStep step) hnone]
    exact Engine.drain_withPollStep step _ _ t.met
  rw [settle_eq, settle_eq, hdrain]
  rfl

theorem advance_withPollStep {done : Timeline ε → Bool}
    (hdone : ∀ t : Timeline ε, done (t.withPollStep step) = done t) (target : Nat)
    (hnone : t.engine.requests = []) :
    (t.withPollStep step).advance target done = (t.advance target done).withPollStep step := by
  have hpass (ahead : Schedule) (t : Timeline ε) (hnone : t.engine.requests = []) :
      pass target done ahead (t.withPollStep step) = (pass target done ahead t).withPollStep step := by
    induction ahead generalizing t with
    | nil => rfl
    | cons m rest ih =>
      have hsettle := settle_withPollStep step (t := { t with now := m.time }) hnone
      unfold pass
      split
      · have hmeet : { t.withPollStep step with now := m.time }.settle
            = ({ t with now := m.time } : Timeline ε).settle.withPollStep step := hsettle
        simp only
        rw [hmeet, hdone]
        split
        · rfl
        · exact ih _ (settle_requests _)
      · rfl
  unfold advance
  rw [hdone]
  split
  · rfl
  · exact hpass _ _ hnone

end Timeline

namespace Session

variable {ε : Type} {s : Session ε} {f : InFlight} {expected : Status}

theorem look?_withPollStep (step : Nat) (s : Session ε) :
    (s.withPollStep step).look? f expected
      = (s.look? f expected).map fun out => (out.1, out.2.withPollStep step) := by
  have hslot : (s.withPollStep step).timeline.engine.slot f.ticket
      = s.timeline.engine.slot f.ticket := rfl
  unfold look?
  rw [hslot]
  rcases s.timeline.engine.slot f.ticket with r | - | -
  · simp only [finish_eq, Option.map_some]
    rfl
  · rfl
  · rfl

theorem giveUp_withPollStep (step : Nat) (f : InFlight) (s : Session ε) :
    (s.withPollStep step).giveUp f = ((s.giveUp f).1, (s.giveUp f).2.withPollStep step) := by
  have hcancel : (s.timeline.withPollStep step).cancelRequest f.number
      = (s.timeline.cancelRequest f.number).withPollStep step := by
    unfold Timeline.cancelRequest Timeline.withPollStep Engine.withPollStep Engine.submitCancel
    simp only
    split <;> rfl
  unfold giveUp
  rw [show (s.withPollStep step).onTimeline (·.cancelRequest f.number)
    = (s.onTimeline (·.cancelRequest f.number)).withPollStep step from
    congrArg (fun t : Timeline ε => { s.withPollStep step with timeline := t }) hcancel]

/-- **The poll step makes no difference** to what a wait comes to, or when. -/
theorem Awaits.wait_withPollStep (h : s.Awaits f) (hterminal : expected.isTerminal = true)
    {timeout step : Nat} (htimeout : 0 < timeout) (hstep : 0 < step) :
    (s.withPollStep step).wait timeout expected
      = ((s.wait timeout expected).1, (s.wait timeout expected).2.withPollStep step) := by
  have hsleep : { s.withPollStep step with inFlight := none }.advanceToSlot f (s.now + timeout)
      = ({ s with inFlight := none }.advanceToSlot f (s.now + timeout)).withPollStep step :=
    congrArg (fun t : Timeline ε => { s.withPollStep step with inFlight := none, timeline := t })
      (Timeline.advance_withPollStep step (fun _ => rfl) _ h.requests)
  have hnow : (s.withPollStep step).now = s.now := rfl
  rw [wait_eq (s := s.withPollStep step) h.settled hstep h.inFlight hterminal htimeout,
    wait_eq h.settled h.pollStep_pos h.inFlight hterminal htimeout, hnow, hsleep,
    look?_withPollStep, giveUp_withPollStep]
  cases look? f expected ({ s with inFlight := none }.advanceToSlot f (s.now + timeout)) <;> rfl

/-! ## A wait on the clock -/

/-- **How long a wait takes,** wherever a script has taken a session with a command in flight, and
however long the poll step is that is in force. It is never nothing, a resolution that stands was
delivered at some time, and

* a resolution that is delivered in time is returned, as a body or as a mismatch, at the time of its
  delivery or at once if it stands already;
* if none has come when the time is over, and reading has not ended either, the wait reports a timeout
  at that time exactly;
* either way no command is in flight afterwards;
* a wait takes no more rounds than there are slices of a poll step, the last one counted in full;
* with any other poll step the outcome and the session afterwards are the same, but for that poll step.

A status that is not terminal cannot be waited for, and nothing happens. -/
theorem wait_on_time {link : Link} {setup : Setup ε} {opened : Session ε}
    (hopen : setup.openOver link = .ok opened) (script : List Action)
    (hf : (opened.run script).2.inFlight = some f) {timeout : Nat} (htimeout : 0 < timeout)
    (expected : Status) :
    let s := (opened.run script).2
    let deadline := s.now + timeout
    let outcome := (s.wait timeout expected).1
    let waited := (s.wait timeout expected).2
    0 < s.timing.pollStep
    ∧ (∀ r b, s.now ≤ b → (s.timeline.sleepUntil b).engine.slot f.ticket = .delivered r →
        ∃ time ≤ b, s.timeline.Delivers f.ticket r time)
    ∧ (expected.isTerminal = false → waited = s ∧ outcome = .error (.invalidParameter
        ("cannot wait for ".toList ++ expected.text ++ " status".toList)))
    ∧ (expected.isTerminal = true →
        (∀ r time, s.timeline.Delivers f.ticket r time → time < deadline →
          outcome = (if r.resolution.status = expected then .ok r.resolution.body
              else .error (.mismatch expected r.resolution.status r.resolution.failure))
            ∧ waited.now = max s.now time)
        ∧ ((∀ r, (s.timeline.sleepUntil deadline).engine.slot f.ticket ≠ .delivered r) →
            (s.timeline.sleepUntil deadline).engine.connected = true →
              outcome = .error .timeout ∧ waited.now = deadline)
        ∧ waited.isPending = false
        ∧ (∃ rounds, Rounds f expected deadline rounds { s with inFlight := none } (outcome, waited)
            ∧ rounds * s.timing.pollStep < timeout + s.timing.pollStep)
        ∧ ∀ step, 0 < step →
            (s.withPollStep step).wait timeout expected = (outcome, waited.withPollStep step)) := by
  intro s deadline outcome waited
  have h : s.Awaits f := ⟨poised_of_open hopen script, hf⟩
  refine ⟨h.pollStep_pos, fun r b hb hslot => h.exists_delivers hb hslot, fun hrefused => ?_,
    fun hterminal => ⟨?_, ?_, ?_, ?_, ?_⟩⟩
  · have hwait : s.wait timeout expected = (.error (.invalidParameter
        ("cannot wait for ".toList ++ expected.text ++ " status".toList)), s) := by
      unfold wait
      rw [hrefused]
      rfl
    exact ⟨congrArg Prod.snd hwait, congrArg Prod.fst hwait⟩
  · exact fun r time hdelivers htime => h.wait_delivered hterminal htimeout hdelivers htime
  · exact fun hnone hconnected => h.wait_timeout hterminal htimeout hnone hconnected
  · have hended := (s.wait_ends timeout hterminal).inFlight_eq
    exact congrArg Option.isSome hended
  · exact h.wait_rounds hterminal timeout
  · exact fun step hstep => h.wait_withPollStep hterminal htimeout hstep

/-- A wait for 10 milliseconds in slices of 3, for a confirmation that comes after 25. It takes four
rounds at most, and just as long as in one slice. -/
theorem wait_in_uneven_slices :
    ∃ opened : Session Unit,
      Setup.openOver {} { table := .empty, config := { timing := { minInterval := 0, pollStep := 3 } } }
        = .ok opened
      ∧ let s := (opened.run [.happen (.injectAfter 25 (Utf8.encode "OK\r\n")), .send "AT\r\n"]).2
        let waited := s.wait 10 .success
        waited.1 = .error .timeout ∧ waited.2.now = 10 ∧ waited.2.isPending = false
          ∧ (∃ rounds ≤ 4, Rounds ⟨1, 0⟩ .success 10 rounds { s with inFlight := none } waited)
          ∧ ((s.withPollStep 10).wait 10 .success).1 = .error .timeout
          ∧ ((s.withPollStep 10).wait 10 .success).2.now = 10 := by
  have hopen : Setup.openOver {} { table := (.empty : EventTable Unit), config := {
      timing := { minInterval := 0, pollStep := 3 } } } = .ok _ := rfl
  refine ⟨_, hopen, ?_⟩
  intro s waited
  have hf : s.inFlight = some ⟨1, 0⟩ := by decide +kernel
  have hdeadline : s.now + 10 = 10 := by decide +kernel
  have hstep : s.timing.pollStep = 3 := by decide +kernel
  have hslot : (s.timeline.sleepUntil (s.now + 10)).engine.slot 0 = .waiting := by decide +kernel
  have hconnected : (s.timeline.sleepUntil (s.now + 10)).engine.connected = true := by decide +kernel
  obtain ⟨-, -, -, hwait⟩ := wait_on_time hopen _ hf (by decide : 0 < 10) .success
  obtain ⟨-, htimeout, hidle, ⟨rounds, hrounds, hle⟩, hany⟩ := hwait rfl
  obtain ⟨houtcome, hnow⟩ := htimeout (fun r hr => by cases hslot.symm.trans hr) hconnected
  have hother := hany 10 (by decide)
  refine ⟨houtcome, hnow.trans hdeadline, hidle, ⟨rounds, ?_, ?_⟩, ?_, ?_⟩
  · have hle' : rounds * s.timing.pollStep < 10 + s.timing.pollStep := hle
    rw [hstep] at hle'
    omega
  · rw [hdeadline] at hrounds
    exact hrounds
  · exact (congrArg Prod.fst hother).trans houtcome
  · exact (congrArg (fun out => out.2.now) hother).trans (hnow.trans hdeadline)

end Session

end ModemLink
