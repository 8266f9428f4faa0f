/-
How time passes.

Time goes from one moment that lies ahead to the next, and everything settles at each. So a sleep can be
taken in two, and a wait that something ends early is a shorter sleep. Nobody asks the engine for
anything meanwhile: it only reads. A resolution that stands goes on standing then, and one that cannot
come any more does not come.
-/
import ModemLink.Proofs.Session.Course

set_option autoImplicit false

namespace ModemLink

/-! ## Time that passes -/

namespace Timeline

variable {ε : Type} {t : Timeline ε}

/-- Whatever was due has arrived, and all that lies ahead lies after now. -/
def Settled (t : Timeline ε) : Prop := t.ahead.Ordered (t.now + 1)

theorem Settled.inOrder (h : t.Settled) : t.InOrder :=
  ⟨h.sorted, fun m hm => Nat.le_of_succ_le (h.ahead m hm)⟩

theorem settled_settle (h : t.InOrder) : t.settle.Settled :=
  ⟨(Schedule.Ordered.later h).sorted, fun _ hm => Schedule.lt_of_mem_later t.now h.sorted hm⟩

/-- The clock alone ends no sleep. -/
def IgnoresClock (done : Timeline ε → Bool) : Prop :=
  ∀ (t : Timeline ε) (time : Nat), done { t with now := time } = done t

section

variable {done : Timeline ε → Bool} {target : Nat}

theorem advance_of_done (h : done t = true) : t.advance target done = t := if_pos h

/-- Until the first moment only the clock changes. -/
theorem advance_before (hdone : done t = false) (h : ∀ m ∈ t.ahead, target < m.time) :
    t.advance target done = { t with now := target } := by
  have hpass (ahead : Schedule) (h : ∀ m ∈ ahead, target < m.time) :
      pass target done ahead t = { t with now := target } := by
    cases ahead with
    | nil => rfl
    | cons m rest =>
      have hlt := h m List.mem_cons_self
      unfold pass
      rw [if_neg (by omega)]
  unfold advance
  rw [if_neg (by rw [hdone]; exact Bool.false_ne_true)]
  exact hpass t.ahead h

/-- The timeline at its first moment. -/
def meet (m : Moment) (t : Timeline ε) : Timeline ε := { t with now := m.time }.settle

theorem ahead_meet (h : t.Settled) {m : Moment} {rest : Schedule} (hahead : t.ahead = m :: rest) :
    (t.meet m).ahead = rest := by
  show Schedule.later m.time t.ahead = rest
  rw [hahead]
  exact Schedule.later_head (hahead ▸ h.sorted)

/-- From the first moment on time passes as it does from there. -/
theorem advance_after (hdone : done t = false) (h : t.Settled) {m : Moment} {rest : Schedule}
    (hahead : t.ahead = m :: rest) (hdue : m.time ≤ target) :
    t.advance target done = (t.meet m).advance target done := by
  unfold advance
  rw [if_neg (by rw [hdone]; exact Bool.false_ne_true), hahead, ahead_meet h hahead]
  exact if_pos hdue

theorem settled_meet (h : t.Settled) {m : Moment} {rest : Schedule} (hahead : t.ahead = m :: rest) :
    (t.meet m).Settled ∧ (t.meet m).ahead = rest ∧ (t.meet m).now = m.time := by
  have hsorted : (m :: rest).Pairwise fun m m' => m.time < m'.time := hahead ▸ h.sorted
  have horder : ({ t with now := m.time } : Timeline ε).InOrder := by
    refine ⟨h.sorted, fun m' hm' => ?_⟩
    simp only [hahead] at hm'
    rcases List.mem_cons.mp hm' with rfl | hm'
    · exact Nat.le_refl _
    · exact Nat.le_of_lt ((List.pairwise_cons.mp hsorted).1 m' hm')
  exact ⟨settled_settle horder, ahead_meet h hahead, rfl⟩

end

/-- A sleep that lasts no time changes nothing. -/
theorem sleepUntil_self (h : t.Settled) : t.sleepUntil t.now = t :=
  advance_before rfl h.ahead

/-- Where the clock stands makes no difference to what lies ahead. -/
theorem advance_clock {done : Timeline ε → Bool} (hclock : IgnoresClock done)
    (hdone : done t = false) (time target : Nat) :
    ({ t with now := time } : Timeline ε).advance target done = t.advance target done := by
  have hnot : ¬ done { t with now := time } = true := by
    rw [hclock, hdone]
    exact Bool.false_ne_true
  have hpass (ahead : Schedule) :
      pass target done ahead { t with now := time } = pass target done ahead t := by
    cases ahead <;> rfl
  unfold advance
  rw [if_neg hnot, if_neg (by rw [hdone]; exact Bool.false_ne_true)]
  exact hpass t.ahead

/-- The moments after the first one come later still. -/
theorem lt_of_lt_head (h : t.Settled) {m : Moment} {rest : Schedule} (hahead : t.ahead = m :: rest)
    {time : Nat} (hlt : time < m.time) : ∀ m' ∈ t.ahead, time < m'.time := by
  have hsorted := h.sorted
  rw [hahead] at hsorted ⊢
  intro m' hm'
  rcases List.mem_cons.mp hm' with rfl | hm'
  · exact hlt
  · exact Nat.lt_trans hlt ((List.pairwise_cons.mp hsorted).1 m' hm')

theorem not_mem_of_nil (hahead : t.ahead = []) (time : Nat) : ∀ m ∈ t.ahead, time < m.time := by
  rw [hahead]
  exact fun _ hm => absurd hm List.not_mem_nil

/-- **A wait can be taken in two.** It ends where it would have ended in one go. -/
theorem advance_advance {done : Timeline ε → Bool} (hclock : IgnoresClock done) {a b : Nat}
    (hab : a ≤ b) (h : t.Settled) :
    (t.advance a done).advance b done = t.advance b done := by
  rcases hdone : done t with - | -
  · induction hahead : t.ahead generalizing t with
    | nil => rw [advance_before hdone (not_mem_of_nil hahead a), advance_clock hclock hdone]
    | cons m rest ih =>
      by_cases hdue : m.time ≤ a
      · obtain ⟨hmeet, hrest, -⟩ := settled_meet h hahead
        rw [advance_after hdone h hahead hdue,
          advance_after hdone h hahead (Nat.le_trans hdue hab)]
        rcases hmet : done (t.meet m) with - | -
        · exact ih hmeet hmet hrest
        · rw [advance_of_done hmet]
      · rw [advance_before hdone (lt_of_lt_head h hahead (by omega)), advance_clock hclock hdone]
  · rw [advance_of_done hdone]

/-- **What ends a wait.** It ends at its target or where something holds that did not hold before, and
until then it was a sleep. -/
structure Ended (t : Timeline ε) (target : Nat) (done : Timeline ε → Bool) (t' : Timeline ε) :
    Prop where
  settled : t'.Settled
  now_le : t.now ≤ t'.now
  le_target : t'.now ≤ target
  sleep : t' = t.sleepUntil t'.now
  ended : done t' = true ∨ t'.now = target
  before : ∀ b, t.now ≤ b → b < t'.now → done (t.sleepUntil b) = false

theorem ended_of_done {done : Timeline ε → Bool} {target : Nat} (h : t.Settled)
    (hnow : t.now ≤ target) (hdone : done t = true) : t.Ended target done t :=
  ⟨h, Nat.le_refl _, hnow, (sleepUntil_self h).symm, .inl hdone, fun b hb hb' => by omega⟩

/-- As long as nothing happens, only the clock changes. -/
theorem ended_of_later {done : Timeline ε → Bool} (hclock : IgnoresClock done) {target : Nat}
    (h : t.Settled) (hnow : t.now ≤ target) (hdone : done t = false)
    (hlater : ∀ m ∈ t.ahead, target < m.time) :
    t.Ended target done { t with now := target } := by
  have hsleep (b : Nat) (hb : b ≤ target) : t.sleepUntil b = { t with now := b } :=
    advance_before rfl fun m hm => Nat.lt_of_le_of_lt hb (hlater m hm)
  refine ⟨⟨h.sorted, hlater⟩, hnow, Nat.le_refl _, (hsleep target (Nat.le_refl _)).symm, .inr rfl,
    fun b _ hb => ?_⟩
  rw [hsleep b (Nat.le_of_lt hb), hclock, hdone]

theorem advance_ended {done : Timeline ε → Bool} (hclock : IgnoresClock done) {target : Nat}
    (h : t.Settled) (hnow : t.now ≤ target) : t.Ended target done (t.advance target done) := by
  induction hahead : t.ahead generalizing t with
  | nil =>
    rcases hdone : done t with - | -
    · rw [advance_before hdone (not_mem_of_nil hahead target)]
      exact ended_of_later hclock h hnow hdone (not_mem_of_nil hahead target)
    · rw [advance_of_done hdone]
      exact ended_of_done h hnow hdone
  | cons m rest ih =>
    rcases hdone : done t with - | -
    · by_cases hdue : m.time ≤ target
      · obtain ⟨hmeet, hrest, hmeetNow⟩ := settled_meet h hahead
        have hm : t.now < m.time := h.ahead m (hahead ▸ List.mem_cons_self)
        have hsleep (b : Nat) (hb : m.time ≤ b) : t.sleepUntil b = (t.meet m).sleepUntil b :=
          advance_after rfl h hahead hb
        have hended := ih hmeet (by rw [hmeetNow]; exact hdue) hrest
        have hnow' := hended.now_le
        rw [hmeetNow] at hnow'
        rw [advance_after hdone h hahead hdue]
        refine ⟨hended.settled, by omega, hended.le_target, ?_, hended.ended, fun b hb hb' => ?_⟩
        · rw [hsleep _ hnow']
          exact hended.sleep
        · rcases Nat.lt_or_ge b m.time with hlt | hge
          · rw [show t.sleepUntil b = { t with now := b } from
              advance_before rfl (lt_of_lt_head h hahead hlt), hclock, hdone]
          · rw [hsleep b hge]
            exact hended.before b (by omega) hb'
      · have hlater := lt_of_lt_head h hahead (Nat.lt_of_not_le hdue)
        rw [advance_before hdone hlater]
        exact ended_of_later hclock h hnow hdone hlater
    · rw [advance_of_done hdone]
      exact ended_of_done h hnow hdone

theorem settled_sleepUntil (h : t.Settled) {target : Nat} (hnow : t.now ≤ target) :
    (t.sleepUntil target).Settled :=
  (advance_ended (fun _ _ => rfl) h hnow).settled

theorem sleepUntil_sleepUntil (h : t.Settled) {a b : Nat} (hab : a ≤ b) :
    (t.sleepUntil a).sleepUntil b = t.sleepUntil b :=
  advance_advance (fun _ _ => rfl) hab h

end Timeline

/-! ## What stands goes on standing -/

namespace Engine

variable {ε : Type}

/-- **How a command in flight stands** when no request is queued: its resolution stands and the slot of
the receive path is empty, or somebody waits for it, or reading has ended and nobody does. -/
inductive Outlook (e : Engine Link ε) (ticket : Nat) : Prop where
  | delivered (r : Resolved) (hslot : e.slot ticket = .delivered r)
    (hlookup : e.resolutions.lookup ticket = some r)
    (hidle : e.receiver.tracker.current = none)
  | waiting (hslot : e.slot ticket = .waiting)
  | lost (hslot : e.slot ticket = .closed) (hlookup : e.resolutions.lookup ticket = none)
    (hwaiter : e.waiter = none) (hconnected : e.connected = false)

theorem outlook_of_fate {e : Engine Link ε} {f : InFlight} (hfate : Interplay.Fate e f)
    (hnone : e.requests = []) : e.Outlook f.ticket := by
  have hqueued : e.queued f.ticket = false := by
    unfold queued
    rw [hnone]
    rfl
  rcases hfate with ⟨p, hp, hnumber, hlookup, hw | ⟨hw, hconnected⟩⟩ | ⟨hsome, hidle⟩
  · refine .waiting ?_
    unfold slot
    simp only [hlookup, hqueued, hw, Option.any_some, beq_self_eq_true, Bool.or_true, if_true]
  · refine .lost ?_ hlookup hw hconnected
    unfold slot
    simp only [hlookup, hqueued, hw, Option.any_none, Bool.or_false, Bool.false_eq_true, if_false]
  · obtain ⟨r, hr⟩ := Option.isSome_iff_exists.mp hsome
    refine .delivered r ?_ hr hidle
    unfold slot
    rw [hr]

/-- The resolution under a ticket stands, and no other can come. -/
def Standing (ticket : Nat) (r : Resolved) (e : Engine Link ε) : Prop :=
  e.resolutions.lookup ticket = some r ∧ e.receiver.tracker.current = none

theorem Standing.slot_eq {ticket : Nat} {r : Resolved} {e : Engine Link ε}
    (h : e.Standing ticket r) : e.slot ticket = .delivered r := by
  unfold slot
  rw [h.1]

/-- While nothing is in the slot of the receive path, nothing that is read is a resolution. -/
theorem Standing.heard {ticket : Nat} {r : Resolved} {e e' : Engine Link ε}
    {resolutions : List Resolution} (h : e.Standing ticket r) (hheard : e.Heard e' resolutions) :
    e'.Standing ticket r := by
  have hnever {t : Tracker} {res : Resolution} (hfollows : e.receiver.tracker.Follows t [res]) :
      False := by
    cases hfollows with
    | ended p _ hp => cases h.2.symm.trans hp
  cases hheard with
  | nothing => exact h
  | failed => exact h
  | kept r' q hfollows =>
    refine ⟨h.1, ?_⟩
    cases hfollows with
    | idle _ hnone => exact hnone
    | kept p p' hp => cases h.2.symm.trans hp
  | passed r' q res w n hfollows => exact (hnever hfollows).elim
  | unheard r' q res hfollows => exact (hnever hfollows).elim

/-- Reading has ended, and nobody waits under a ticket. -/
structure Lost (ticket : Nat) (e : Engine Link ε) : Prop where
  lookup : e.resolutions.lookup ticket = none
  waiter : e.waiter = none
  connected : e.connected = false

theorem Lost.slot_eq {ticket : Nat} {e : Engine Link ε} (h : e.Lost ticket)
    (hnone : e.requests = []) : e.slot ticket = .closed := by
  unfold slot queued
  simp only [h.lookup, h.waiter, hnone, List.any_nil, Option.any_none, Bool.or_false,
    Bool.false_eq_true, if_false]

end Engine

namespace Timeline

variable {ε : Type} {P : Engine Link ε → Prop}

/-- Without a request, running is reading. -/
theorem run_met {t : Timeline ε} (hnone : t.engine.requests = []) :
    t.met.run t.now = t.met.drain t.now (Transport.waiting t.met.transport + 1) := by
  unfold Engine.run
  rw [show t.met.requests = [] from hnone]
  rfl

variable (harrive : ∀ e bytes, P e → P { e with transport := e.transport.inject bytes })
  (hreceive : ∀ e, P e → P { e with transport := (e.transport.receive readSize).2 })
  (hevents : ∀ e q, P e → P { e with events := q })
  (hread : ∀ e now outcome, e.live = true → P e → P (e.received now outcome))

include harrive hreceive hevents hread

/-- What reading keeps is kept while time passes, as long as nobody asks for anything. -/
theorem settle_keeps {t : Timeline ε} (hnone : t.engine.requests = []) (h : P t.engine) :
    P t.settle.engine := by
  rw [t.settle_eq, run_met hnone]
  refine hevents _ _ ?_
  exact Engine.drain_induction t.now hreceive (fun e outcome => hread e t.now outcome) _
    (harrive _ _ h)

theorem advance_keeps (target : Nat) (done : Timeline ε → Bool) {t : Timeline ε}
    (hnone : t.engine.requests = []) (h : P t.engine) : P (t.advance target done).engine := by
  have hpass (ahead : Schedule) (t : Timeline ε) (hnone : t.engine.requests = []) (h : P t.engine) :
      P (pass target done ahead t).engine := by
    induction ahead generalizing t with
    | nil => exact h
    | cons m rest ih =>
      have hsettled :=
        settle_keeps harrive hreceive hevents hread (t := { t with now := m.time }) hnone h
      unfold pass
      split
      · simp only
        split
        · exact hsettled
        · exact ih _ (settle_requests _) hsettled
      · exact h
  unfold advance
  split
  · exact h
  · exact hpass _ _ hnone h

end Timeline

end ModemLink
