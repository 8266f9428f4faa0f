/-
What a session makes of its clock.

Time passes only where something is waited for: settling takes none, and pacing takes what is left of
the interval since the confirmation that a wait returned last. A wait looks at the clock before it looks
after the resolution. So one that is given no time at all never sees a resolution, not even one that
stands already, and the next command is not held back for it.
-/
import ModemLink.Proofs.Session.Dialogue

set_option autoImplicit false

namespace ModemLink

/-! ## The clock -/

namespace Timeline

variable {ε : Type}

theorem settle_now (t : Timeline ε) : t.settle.now = t.now := rfl

/-- Unless something stops it early, time goes on to its target. -/
theorem pass_now (target : Nat) (ahead : Schedule) (t : Timeline ε) :
    (pass target (fun _ => false) ahead t).now = target := by
  induction ahead generalizing t with
  | nil => rfl
  | cons m rest ih =>
    unfold pass
    split
    · exact ih _
    · rfl

theorem sleepUntil_now (t : Timeline ε) (target : Nat) : (t.sleepUntil target).now = target :=
  pass_now target t.ahead t

theorem transmit_now (t : Timeline ε) (command : Text) : (t.transmit command).2.now = t.now := by
  unfold transmit
  simp only [call]
  split <;> exact settle_now _

end Timeline

namespace Session

variable {ε : Type}

theorem pace_now (s : Session ε) : s.pace.now = s.ready := by
  unfold pace
  split
  · exact Timeline.sleepUntil_now _ _
  · rename_i hready
    have hle : s.now ≤ s.ready := by
      unfold ready
      split
      · exact Nat.le_refl _
      · exact Nat.le_max_left _ _
    omega

/-- **A send that is not refused goes out as soon as pacing lets it.** -/
theorem send_now {s : Session ε} (hfree : s.isPending = false) (command : Text) :
    (s.send command).2.now = s.ready := by
  have hsent : (s.pace.timeline.transmit command).2.now = s.ready :=
    (Timeline.transmit_now _ command).trans s.pace_now
  unfold send
  rw [hfree]
  rcases htransmit : s.pace.timeline.transmit command with ⟨⟨ticket, err | number⟩, timeline⟩
  · rw [htransmit] at hsent
    simp only [Bool.false_eq_true, if_false, htransmit]
    exact hsent
  · rw [htransmit] at hsent
    simp only [Bool.false_eq_true, if_false, htransmit]
    exact hsent

/-! ## A resolution that stands already -/

theorem finish_eq (s : Session ε) (expected : Status) (r : Resolved) :
    s.finish expected r
      = (if r.resolution.status = expected then .ok r.resolution.body
          else .error (.mismatch expected r.resolution.status r.resolution.failure),
        { s with lastResolved := some r.time }) := by
  unfold finish
  split <;> rfl

/-- A wait that is given no time gives up, whatever stands already. -/
theorem wait_zero {s : Session ε} {f : InFlight} (hf : s.inFlight = some f) {expected : Status}
    (hterminal : expected.isTerminal = true) :
    s.wait 0 expected = { s with inFlight := none }.giveUp f := by
  rw [wait_of_inFlight hf hterminal]
  unfold waitRounds
  exact if_pos (Nat.le_refl _)

/-- **A confirmation that stands already is returned exactly if the wait is given some time.** Then it
takes none of it, it returns the body or the mismatch, and the next send is held back for the interval
since that confirmation. A wait that is given no time reports a timeout, and the next send is held back
for an earlier confirmation only. -/
theorem wait_delivered_iff {s : Session ε} {f : InFlight} (hf : s.inFlight = some f) {r : Resolved}
    (hslot : s.timeline.engine.slot f.ticket = .delivered r) {expected : Status}
    (hterminal : expected.isTerminal = true) (timeout : Nat) :
    let (outcome, waited) := s.wait timeout expected
    (outcome = (if r.resolution.status = expected then .ok r.resolution.body
          else .error (.mismatch expected r.resolution.status r.resolution.failure))
        ∧ waited.now = s.now
        ∧ (∀ command, (waited.send command).2.now = max s.now (r.time + s.timing.minInterval))
      ↔ 0 < timeout)
    ∧ (timeout = 0 → outcome = .error .timeout
      ∧ ∀ command, (waited.send command).2.now = s.ready) := by
  rcases Nat.eq_zero_or_pos timeout with rfl | hpos
  · rw [wait_zero hf hterminal]
    refine ⟨⟨fun h => ?_, fun h => absurd h (Nat.lt_irrefl 0)⟩, fun _ => ⟨rfl, fun command => ?_⟩⟩
    · -- neither a body nor a mismatch is a timeout
      have hverdict := h.1
      split at hverdict <;> cases hverdict
    · exact send_now rfl command
  · rw [wait_of_delivered s hf hslot hpos hterminal, finish_eq]
    refine ⟨⟨fun _ => hpos, fun _ => ⟨rfl, rfl, fun command => ?_⟩⟩, fun h => ?_⟩
    · exact send_now rfl command
    · exact absurd (h ▸ hpos) (Nat.lt_irrefl 0)

/-- A confirmation that stands when the wait begins: it is returned, and the next send is held back. -/
theorem wait_returns_delivered :
    ∃ opened : Session Unit,
      Setup.openOver { script := [⟨Utf8.encode "AT\r\n", Utf8.encode "OK\r\n"⟩] }
        { table := .empty, config := { timing := { minInterval := 50, pollStep := 1 } } } = .ok opened
      ∧ let s := (opened.run [.send "AT\r\n"]).2
        (s.wait 100 .success).1 = .ok []
          ∧ ((s.wait 100 .success).2.send "AT\r\n").2.now = 50 := by
  refine ⟨_, rfl, ?_⟩
  intro s
  have hf : s.inFlight = some ⟨1, 0⟩ := by decide +kernel
  have hslot : s.timeline.engine.slot 0 = .delivered ⟨⟨1, "", .success, [], false, none⟩, 0⟩ := by
    decide +kernel
  have hpaced : max s.now (0 + s.timing.minInterval) = 50 := by decide +kernel
  have hterminal : Status.success.isTerminal = true := rfl
  obtain ⟨hbody, -, hnext⟩ := (wait_delivered_iff hf hslot hterminal 100).1.mpr (by decide)
  exact ⟨hbody, (hnext "AT\r\n").trans hpaced⟩

/-- The same confirmation, looked for in a wait that is given no time. -/
theorem wait_zero_misses_confirmation :
    ∃ opened : Session Unit,
      Setup.openOver { script := [⟨Utf8.encode "AT\r\n", Utf8.encode "OK\r\n"⟩] }
        { table := .empty, config := { timing := { minInterval := 50, pollStep := 1 } } } = .ok opened
      ∧ let s := (opened.run [.send "AT\r\n"]).2
        (∃ f r, s.inFlight = some f ∧ s.timeline.engine.slot f.ticket = .delivered r
            ∧ r.resolution.status = .success)
          ∧ (s.wait 0 .success).1 = .error .timeout
          ∧ ((s.wait 0 .success).2.send "AT\r\n").2.now = 0 := by
  refine ⟨_, rfl, ⟨⟨1, 0⟩, ⟨⟨1, "", .success, [], false, none⟩, 0⟩, ?_, ?_, ?_⟩, ?_, ?_⟩ <;> decide +kernel

end Session

end ModemLink
