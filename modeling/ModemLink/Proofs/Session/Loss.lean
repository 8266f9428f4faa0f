/-
A session whose link is lost.

An engine that has lost its link waits for nobody. So what a wait looks for either stands already, or
cannot come any more, and the wait finds that out the moment it looks. It looks as soon as it is given any
time at all; one that is given none gives up before.
-/
import ModemLink.Proofs.Engine.Loss
import ModemLink.Proofs.Session.Deadline

set_option autoImplicit false

namespace ModemLink

/-! ## Nobody waits -/

namespace Engine

variable {ε : Type} {e : Engine Link ε}

/-- Nobody waits at an engine that has lost its link. -/
def LetGo (e : Engine Link ε) : Prop := e.connected = false → e.waiter = none

theorem LetGo.heard (h : e.LetGo) {e' : Engine Link ε} {resolutions : List Resolution}
    (hheard : e.Heard e' resolutions) : e'.LetGo := by
  cases hheard with
  | failed => exact fun _ => rfl
  | passed => exact fun _ => rfl
  | _ => exact h

theorem LetGo.serveNext (h : e.LetGo) (now : Nat) : (e.serveNext now).LetGo := by
  intro hlost
  rw [serveNext_connected] at hlost
  let run : Run Link ε := { engine := e }
  have hfrozen : Run.Frozen [.serve now] run (run.step (.serve now)) :=
    Run.step_frozen hlost (h hlost) _
  exact hfrozen.waiter

theorem LetGo.run (h : e.LetGo) (now : Nat) : (e.run now).LetGo :=
  run_induction now (fun _ h => h.serveNext now) (fun _ h => h)
    (fun e outcome _ h => h.heard (received_heard e now outcome)) h

end Engine

namespace Timeline

variable {ε : Type} {falls : Prop} {t t' : Timeline ε} {ns : List (Notification ε)}

theorem Change.letGo (hchange : Change falls t t' ns) (h : t.engine.LetGo) : t'.engine.LetGo := by
  cases hchange with
  | settle =>
    have hmet : t.met.LetGo := h
    exact hmet.run t.now
  | cancel number =>
    unfold cancelRequest Engine.submitCancel
    split <;> exact h
  | _ => exact h

theorem Course.letGo (hcourse : Course falls t t' ns) (h : t.engine.LetGo) : t'.engine.LetGo := by
  induction hcourse with
  | refl => exact h
  | step _ hchange ih => exact hchange.letGo ih

end Timeline

/-- **What a wait makes of what it finds.** What was delivered is compared with the expected status, and
what cannot come any more means that there is no connection. -/
def Slot.verdict (expected : Status) : Slot → Except Error Text
  | .delivered r =>
    if r.resolution.status = expected then .ok r.resolution.body
    else .error (.mismatch expected r.resolution.status r.resolution.failure)
  | _ => .error .notConnected

namespace Session

variable {ε : Type} {s : Session ε} {f : InFlight} {expected : Status}

/-! ## What a wait finds -/

theorem verdict_ne_timeout (slot : Slot) (expected : Status) :
    slot.verdict expected ≠ .error .timeout := by
  unfold Slot.verdict
  split
  · split <;> nofun
  · nofun

/-- A wait that finds its end returns the verdict. -/
theorem look?_verdict {s : Session ε} {out : Except Error Text × Session ε}
    (h : s.look? f expected = some out) :
    out.1 = (s.timeline.engine.slot f.ticket).verdict expected ∧ out.2.now = s.now := by
  unfold look? at h
  unfold Slot.verdict
  cases hslot : s.timeline.engine.slot f.ticket with
  | delivered r =>
    simp only [hslot, finish_eq] at h
    cases h
    exact ⟨rfl, rfl⟩
  | closed =>
    rw [hslot] at h
    cases h
    exact ⟨rfl, rfl⟩
  | waiting =>
    rw [hslot] at h
    cases h

/-- **A wait returns what is settled in time,** and does not go on after that. -/
theorem Awaits.wait_settled (h : s.Awaits f) (hterminal : expected.isTerminal = true)
    {timeout time : Nat} (htimeout : 0 < timeout) (hnow : s.now ≤ time) (htime : time ≤ s.now + timeout)
    (hslot : (s.timeline.sleepUntil time).engine.slot f.ticket ≠ .waiting) :
    (s.wait timeout expected).1
        = ((s.timeline.sleepUntil time).engine.slot f.ticket).verdict expected
      ∧ (s.wait timeout expected).2.now ≤ time := by
  obtain ⟨t, hended, hwait⟩ := h.exists_sleep hterminal htimeout
  have hle : t.now ≤ time := by
    by_contra hlater
    have hbefore := hended.before time hnow (Nat.lt_of_not_le hlater)
    rw [bne_eq_false_iff_eq] at hbefore
    exact hslot hbefore
  have hsame : t.engine.slot f.ticket = (s.timeline.sleepUntil time).engine.slot f.ticket :=
    (h.slot_ended hended).trans (h.slot_later hnow htime hslot)
  rw [← hsame] at hslot ⊢
  rw [hwait]
  cases hlook : look? f expected { s with inFlight := none, timeline := t } with
  | none => exact absurd (look?_eq_none hlook) hslot
  | some out =>
    obtain ⟨hout, houtNow⟩ := look?_verdict hlook
    exact ⟨hout, houtNow ▸ hle⟩

/-- Once the link is lost nothing is waited for. -/
theorem Awaits.slot_lost (h : s.Awaits f) (hletGo : s.timeline.engine.LetGo) {time : Nat}
    (hnow : s.now ≤ time) (hlost : (s.timeline.sleepUntil time).engine.connected = false) :
    (s.timeline.sleepUntil time).engine.slot f.ticket ≠ .waiting := by
  have hlater : (s.timeline.sleepUntil time).engine.LetGo :=
    Timeline.advance_keeps (P := Engine.LetGo) (fun _ _ h => h) (fun _ h => h) (fun _ _ h => h)
      (fun e now outcome _ h => h.heard (Engine.received_heard e now outcome)) time _ h.requests hletGo
  cases h.outlook hnow with
  | delivered r hslot =>
    rw [hslot]
    nofun
  | lost hslot =>
    rw [hslot]
    nofun
  | waiting hslot =>
    unfold Engine.slot Engine.queued at hslot
    rw [hlater hlost, h.requests_sleepUntil time] at hslot
    split at hslot <;> cases hslot

/-! ## All of it -/

/-- **After the first read that fails for good a session is frozen, and says so.** Whatever goes on at its
engine then, nothing is written, read, counted, announced or resolved any more, and every request is
attended to.

Wherever a script has taken a session with a command in flight, once the link is lost nobody waits for its
resolution. A wait that has not ended by then returns what stands, or that there is no connection, exactly
if it is given some time, and it does not last longer. One that is given none reports a timeout. -/
theorem frozen_after_loss {τ ε : Type} [Transport τ] :
    (∀ (config : Config) (table : EventTable ε) (link : τ) (actions : List (Engine.Action τ ε))
        (now : Nat) (err : Error) (more : List (Engine.Action τ ε)),
      (Engine.Run.of config table link actions).engine.live = true → err ≠ .timeout →
      let lost := (Engine.Run.of config table link actions).step (.read now (.error err))
      Engine.Run.AfterLoss lost more (more.foldl Engine.Run.step lost))
    ∧ ∀ (setup : Setup ε) (link : Link) (opened : Session ε) (script : List Action),
      setup.openOver link = .ok opened →
      let s := (opened.run script).2
      ∀ (f : InFlight) (expected : Status) (time timeout : Nat),
        s.inFlight = some f → expected.isTerminal = true →
        s.now ≤ time → time ≤ s.now + timeout →
        (s.timeline.sleepUntil time).engine.connected = false →
        let slot := (s.timeline.sleepUntil time).engine.slot f.ticket
        slot ≠ .waiting
        ∧ ((s.wait timeout expected).1 = slot.verdict expected ↔ 0 < timeout)
        ∧ (timeout = 0 → (s.wait timeout expected).1 = .error .timeout)
        ∧ (s.wait timeout expected).2.now ≤ time := by
  refine ⟨fun config table link actions now err more hlive herr =>
    Engine.Run.afterLoss config table link actions now hlive herr more, ?_⟩
  intro setup link opened script hopen s f expected time timeout hf hterminal hnow htime hlost slot
  have hawaits : s.Awaits f := ⟨poised_of_open hopen script, hf⟩
  have hletGo : s.timeline.engine.LetGo :=
    (course_of_open hopen script fun _ => trivial).letGo fun hlost =>
      absurd hlost.symm Bool.false_ne_true
  have hslot : slot ≠ .waiting := hawaits.slot_lost hletGo hnow hlost
  refine ⟨hslot, ?_⟩
  rcases Nat.eq_zero_or_pos timeout with rfl | hpos
  · rw [wait_zero hf hterminal]
    refine ⟨iff_of_false (fun h => verdict_ne_timeout slot expected h.symm) (Nat.lt_irrefl 0),
      fun _ => rfl, hnow⟩
  · obtain ⟨houtcome, hended⟩ := hawaits.wait_settled hterminal hpos hnow htime hslot
    exact ⟨iff_of_true houtcome hpos, fun hzero => absurd hpos (hzero ▸ Nat.lt_irrefl 0), hended⟩

/-- A command that was not answered before the loss: its resolution cannot come any more, a later command
is answered with the loss although the link is up again, and a wait finds that there is no connection. -/
theorem unanswered_command_lost :
    (let lost := (Engine.Run.of {} (.empty : EventTable Unit) ({} : Link)
        [.ask (.transmit "AT\r\n"), .serve 0]).step (.read 5 (.error .notConnected))
      let run := [.link ({} : Link), .ask (.transmit "AT\r\n")].foldl Engine.Run.step lost
      run.engine.slot 0 = .closed
        ∧ (run.engine.serveNext 9).reply? 1 = some (.transmitted (.error .connectionLost)))
    ∧ ∃ opened : Session Unit, Setup.openOver {} { table := .empty } = .ok opened
      ∧ let s := (opened.run [.send "AT\r\n", .happen (.setConnected false)]).2
        (s.wait 100 .success).1 = .error .notConnected := by
  obtain ⟨hfrozen, hwaits⟩ := frozen_after_loss (τ := Link) (ε := Unit)
  refine ⟨?_, _, rfl, ?_⟩
  · intro lost run
    have hafter : Engine.Run.AfterLoss lost _ run := hfrozen _ _ _ _ _ _ _ (by decide +kernel) nofun
    obtain ⟨-, -, hanswer⟩ := hafter.attended 9 [] [] (.transmit 1 "AT\r\n") (by decide +kernel) nofun
    refine ⟨hafter.closed 0 1 ?_ (by decide +kernel), hanswer nofun⟩
    exact List.mem_singleton_self _
  · intro s
    have hslot : s.timeline.engine.slot 0 = .closed := by decide +kernel
    have hnow : s.timeline.sleepUntil 0 = s.timeline := rfl
    obtain ⟨-, hwait, -⟩ := hwaits { table := .empty } {} _ [.send "AT\r\n", .happen (.setConnected false)]
      rfl ⟨1, 0⟩ .success 0 100 (by decide +kernel) rfl (by decide +kernel) (by decide +kernel)
      (by decide +kernel)
    rw [hwait.mpr (by decide), hnow, hslot]
    rfl

/-- A resolution that stood before the loss, looked for in a wait that is given no time. -/
theorem wait_zero_misses_outcome_after_loss :
    ∃ opened : Session Unit,
      Setup.openOver { script := [⟨Utf8.encode "AT\r\n", Utf8.encode "OK\r\n"⟩] } { table := .empty }
        = .ok opened
      ∧ let s := (opened.run [.send "AT\r\n", .happen (.setConnected false)]).2
        s.timeline.engine.connected = false
          ∧ (∃ f r, s.inFlight = some f ∧ s.timeline.engine.slot f.ticket = .delivered r
            ∧ r.resolution.status = .success)
          ∧ (s.wait 0 .success).1 = .error .timeout := by
  refine ⟨_, rfl, ?_, ⟨⟨1, 0⟩, ⟨⟨1, "", .success, [], false, none⟩, 0⟩, ?_, ?_, ?_⟩, ?_⟩ <;> decide +kernel

end Session

end ModemLink
