/-
When a call is refused because something is in flight.

Two parties can say so. The session does while a command was sent and not waited for, and the engine
does while something is in its slot. For a send the second refusal comes to light only behind a send that
was dropped too late. For terminators it does after a wait that was cut off, too, since what that wait was
for stays in the slot.
-/
import ModemLink.Proofs.Session.Blocking
import ModemLink.Proofs.Session.Clocked

set_option autoImplicit false

namespace ModemLink

namespace Session

variable {ε : Type}

/-! ## What a wait leaves behind -/

/-- A wait leaves no command in flight that was not there, queues at most one request, and is never
refused as busy. -/
structure Ends (s : Session ε) (r : Except Error Text × Session ε) : Prop where
  inFlight_eq : r.2.inFlight = s.inFlight
  requests_le : r.2.timeline.engine.requests.length ≤ s.timeline.engine.requests.length + 1
  not_busy : r.1 ≠ .error .busy

theorem giveUp_ends (s : Session ε) (f : InFlight) : s.Ends (s.giveUp f) := by
  refine ⟨rfl, ?_, nofun⟩
  show (s.timeline.engine.submitCancel f.number).requests.length ≤ _
  unfold Engine.submitCancel
  split
  · exact Nat.le_of_eq List.length_append
  · exact Nat.le_succ _

theorem finish_ends (s : Session ε) (expected : Status) (r : Resolved) :
    s.Ends (s.finish expected r) := by
  refine ⟨finish_inFlight s expected r, ?_, ?_⟩
  · rw [finish_timeline]
    exact Nat.le_succ _
  · unfold finish
    split <;> nofun

/-- A round ends the wait, or lets time pass before it goes on. -/
theorem round_ends (f : InFlight) (expected : Status) (target : Nat) (s : Session ε)
    (next : Session ε → Except Error Text × Session ε)
    (hnext : (s.advanceToSlot f target).Ends (next (s.advanceToSlot f target))) :
    s.Ends
      (let s := s.advanceToSlot f target
      let (slot, timeline) := s.timeline.collect f.ticket
      match slot with
      | .delivered r => { s with timeline := timeline }.finish expected r
      | .closed => (.error .notConnected, s)
      | .waiting => next s) := by
  have hrequests : (s.advanceToSlot f target).timeline.engine.requests.length
      ≤ s.timeline.engine.requests.length := Timeline.length_requests_advance _ _ _
  have hpassed {r : Except Error Text × Session ε} (h : (s.advanceToSlot f target).Ends r) :
      s.Ends r :=
    ⟨h.inFlight_eq, Nat.le_trans h.requests_le (Nat.succ_le_succ hrequests), h.not_busy⟩
  simp only [Timeline.collect, Engine.collect]
  split
  · apply hpassed
    have hfinish := finish_ends { s.advanceToSlot f target with
      timeline := ((s.advanceToSlot f target).timeline.collect f.ticket).2 } expected
    exact ⟨(hfinish _).inFlight_eq, (hfinish _).requests_le, (hfinish _).not_busy⟩
  · exact hpassed ⟨rfl, Nat.le_succ _, fun h => by cases h⟩
  · exact hpassed hnext

theorem waitRounds_ends (f : InFlight) (expected : Status) (deadline rounds : Nat)
    (s : Session ε) : s.Ends (s.waitRounds f expected deadline rounds) := by
  induction rounds generalizing s with
  | zero =>
    unfold waitRounds
    split
    · exact giveUp_ends s f
    · exact round_ends f expected _ s (·.giveUp f) (giveUp_ends _ f)
  | succ rounds ih =>
    unfold waitRounds
    split
    · exact giveUp_ends s f
    · exact round_ends f expected _ s (·.waitRounds f expected deadline rounds) (ih _)

/-- **No command is in flight after a wait.** -/
theorem wait_ends (s : Session ε) (timeout : Nat) {expected : Status}
    (hterminal : expected.isTerminal = true) :
    { s with inFlight := none }.Ends (s.wait timeout expected) := by
  have hallowed : ¬ (!expected.isTerminal) = true := by
    rw [hterminal]
    exact Bool.false_ne_true
  unfold wait
  rw [if_neg hallowed]
  cases hf : s.inFlight with
  | none => exact ⟨hf, Nat.le_succ _, nofun⟩
  | some f => exact waitRounds_ends f expected _ _ _

theorem wait_ne_busy (s : Session ε) (timeout : Nat) (expected : Status) :
    (s.wait timeout expected).1 ≠ .error .busy := by
  by_cases hterminal : expected.isTerminal = true
  · exact (s.wait_ends timeout hterminal).not_busy
  · unfold wait
    rw [Bool.eq_false_iff.mpr hterminal]
    nofun

/-! ## Refusing a send -/

/-- On its clock a session refuses a send as busy exactly if a command is in flight, whatever is still
queued. -/
theorem Matches.send_busy_iff {s : Session ε} {p : Interplay Link ε} (h : s.Matches .nothing p)
    (hsound : p.Sound) (hroom : s.timeline.engine.requests.length < requestDepth)
    (command : Text) : (s.send command).1 = .error .busy ↔ s.isPending = true := by
  obtain ⟨acts, hmatches, hlog⟩ := h.send hsound hroom command
  have hfair := (hsound.foldl_step Link.neverBusy acts).fair hmatches.late_eq
    ⟨.send command, s.isPending, p.cut, (s.send command).1⟩ (hlog ▸ List.mem_cons_self)
  exact hfair

theorem sendAbandoned_busy_iff (s : Session ε) (command : Text) :
    (s.sendAbandoned command).1 = some .busy ↔ s.isPending = true := by
  unfold sendAbandoned
  by_cases hpending : s.isPending = true
  · rw [if_pos hpending]
    exact ⟨fun _ => hpending, fun _ => rfl⟩
  · rw [if_neg hpending]
    refine ⟨fun hbusy => ?_, fun h => absurd h hpending⟩
    split at hbusy
    · cases hbusy
    · split at hbusy <;> cases hbusy

/-- A dropped send puts no command in flight, and leaves at most one request. -/
theorem sendAbandoned_keeps (s : Session ε) (command : Text) :
    (s.sendAbandoned command).2.inFlight = s.inFlight
      ∧ (s.sendAbandoned command).2.timeline.engine.requests.length
        ≤ s.timeline.engine.requests.length + 1 := by
  unfold sendAbandoned
  split
  · exact ⟨rfl, Nat.le_succ _⟩
  · split
    · exact ⟨rfl, Nat.le_succ _⟩
    · split
      · rename_i hrunning
        refine ⟨rfl, ?_⟩
        simp only [onTimeline, Timeline.transmitAbandoned, Engine.submit, Engine.abandon,
          if_pos hrunning, List.length_append]
        exact Nat.le_refl _
      · exact ⟨rfl, Nat.le_succ _⟩

/-- **When a send is refused as busy.** Whatever the order in which the two parties take their steps,
whatever arrives, and whatever becomes of the link, a send of a run is refused exactly if the caller's own
command was in flight when it was called, or if it was hindered by a send that had been dropped when its
number stood there already. A run in which no send was dropped so late hinders none.

A session on its clock drops no send so late, wherever a script has taken it. So a send is refused there
exactly if a command is in flight, and so are one that is given up where it has to wait, and a request. One
that follows a wait or a dropped send is not refused. -/
theorem send_refused_iff :
    (∀ {τ : Type} [Transport τ], Transport.NeverBusy τ →
      ∀ (config : Config) (table : EventTable ε) (link : τ) (acts : List (Interplay.Act τ ε)),
        (∀ r ∈ (Interplay.of config table link acts).log, ∀ command, r.call = .send command →
          (r.outcome = .error .busy
            ↔ r.pending = true ∨ Interplay.Hindered config table link acts r))
        ∧ ((Interplay.of config table link acts).late = [] →
          ∀ r, ¬ Interplay.Hindered config table link acts r))
    ∧ ∀ {link : Link} {setup : Setup ε} {opened : Session ε}, setup.openOver link = .ok opened →
      ∀ script : List Action,
        let s := (opened.run script).2
        (∀ command, (s.send command).1 = .error .busy ↔ s.isPending = true)
        ∧ (∀ command, (s.sendAbandoned command).1 = some .busy ↔ s.isPending = true)
        ∧ (∀ command expected,
            (s.request command expected).1 = .error .busy ↔ s.isPending = true)
        ∧ (∀ timeout expected command, expected.isTerminal = true →
            ((s.wait timeout expected).2.send command).1 ≠ .error .busy)
        ∧ (∀ dropped command, s.isPending = false →
            ((s.sendAbandoned dropped).2.send command).1 ≠ .error .busy) := by
  constructor
  · intro τ _ hlink config table link acts
    exact ⟨fun r hr command hcall => Interplay.send_busy_iff_hindered hlink acts hr hcall,
      fun hnone r hhindered => hhindered.late_ne_nil hlink hnone⟩
  · intro link setup opened hopen script s
    obtain ⟨⟨acts, hmatches⟩, hnone⟩ := exists_interplay hopen script
    have hsound := Interplay.of_sound Link.neverBusy setup.config setup.table link acts
    have hroom : s.timeline.engine.requests.length < requestDepth := by
      rw [hnone]
      decide
    have hsend := hmatches.send_busy_iff hsound hroom
    -- one more request leaves room enough
    have hnext {s' : Session ε} (hreached : s'.Reached .nothing (Interplay.of setup.config setup.table link acts))
        (hle : s'.timeline.engine.requests.length ≤ s.timeline.engine.requests.length + 1)
        (hfree : s'.inFlight = none) (command : Text) : (s'.send command).1 ≠ .error .busy := by
      obtain ⟨more, hmore⟩ := hreached
      have hroom' : s'.timeline.engine.requests.length < requestDepth := by
        rw [hnone] at hle
        exact Nat.lt_of_le_of_lt hle (by decide)
      intro hbusy
      have hpending := (hmore.send_busy_iff (hsound.foldl_step Link.neverBusy more) hroom' command).mp
        hbusy
      unfold isPending at hpending
      rw [hfree] at hpending
      cases hpending
    refine ⟨hsend, s.sendAbandoned_busy_iff, fun command expected => ?_,
      fun timeout expected command hterminal => ?_, fun dropped command hpending => ?_⟩
    · rw [← hsend command]
      unfold request
      rcases s.send command with ⟨err | _, sent⟩
      · exact ⟨fun h => by cases h; rfl, fun h => by cases h; rfl⟩
      · exact ⟨fun h => absurd h (wait_ne_busy _ _ _), nofun⟩
    · have hends := s.wait_ends timeout hterminal
      exact hnext (hmatches.wait timeout expected) hends.requests_le hends.inFlight_eq command
    · obtain ⟨hkept, hle⟩ := s.sendAbandoned_keeps dropped
      have hfree : s.inFlight = none := by
        unfold isPending at hpending
        exact Option.not_isSome_iff_eq_none.mp (Bool.eq_false_iff.mp hpending)
      exact hnext (hmatches.sendAbandoned hsound hroom dropped) hle (hkept.trans hfree) command

/-- A send that is dropped when its number stands there already, and one after it. -/
def sendAfterLateDrop : List (Interplay.Act Link Unit) :=
  [.call (.send "AT\r\n"), .enqueue, .serve 0, .answer, .drop,
    .call (.send "AT+X\r\n"), .enqueue, .serve 0, .answer, .take]

/-- Two commands in a row: the second is refused while the first is in flight, and not after the wait for
the first has given up. One that follows a late drop was hindered. -/
theorem second_send_refused :
    let acts : List (Interplay.Act Link Unit) :=
      [.call (.send "AT\r\n"), .enqueue, .serve 0, .answer, .take, .call (.send "AT+X\r\n")]
    (∃ outcome, (Interplay.of {} .empty {} acts).log
        = [⟨.send "AT+X\r\n", true, false, outcome⟩, ⟨.send "AT\r\n", false, false, .ok ()⟩]
      ∧ outcome = .error .busy)
    ∧ (∃ r ∈ (Interplay.of {} .empty {} sendAfterLateDrop).log,
      r.pending = false ∧ Interplay.Hindered {} .empty {} sendAfterLateDrop r)
    ∧ ∃ opened : Session Unit, Setup.openOver {} { table := .empty } = .ok opened
      ∧ ((opened.run [.send "AT\r\n"]).2.send "AT+X\r\n").1 = .error .busy
      ∧ (((opened.run [.send "AT\r\n"]).2.wait 100 .success).2.send "AT+X\r\n").1
        ≠ .error .busy := by
  intro acts
  have hlog : (Interplay.of {} .empty {} acts).log
      = [⟨.send "AT+X\r\n", true, false, .error .busy⟩, ⟨.send "AT\r\n", false, false, .ok ()⟩] := by
    decide +kernel
  have hlate : (Interplay.of {} .empty {} sendAfterLateDrop).log
      = [⟨.send "AT+X\r\n", false, false, .error .busy⟩] := by
    decide +kernel
  refine ⟨⟨_, hlog, ?_⟩, ⟨_, hlate ▸ List.mem_cons_self, rfl, ?_⟩, ?_⟩
  · exact ((send_refused_iff.1 Link.neverBusy {} .empty {} acts).1 _
      (hlog ▸ List.mem_cons_self) "AT+X\r\n" rfl).mpr (.inl rfl)
  · have hbusy := ((send_refused_iff.1 Link.neverBusy {} .empty {} sendAfterLateDrop).1 _
      (hlate ▸ List.mem_cons_self) "AT+X\r\n" rfl).mp rfl
    exact hbusy.resolve_left Bool.false_ne_true
  · obtain ⟨opened, hopen, hpending⟩ : ∃ opened : Session Unit,
        Setup.openOver {} { table := .empty } = .ok opened
          ∧ (opened.run [.send "AT\r\n"]).2.isPending = true := ⟨_, rfl, by decide +kernel⟩
    have hbusy := send_refused_iff.2 hopen [.send "AT\r\n"]
    exact ⟨opened, hopen, (hbusy.1 "AT+X\r\n").mpr hpending,
      hbusy.2.2.2.1 100 .success "AT+X\r\n" rfl⟩

/-- With nothing in flight, a send is refused as busy after one that was dropped too late. -/
theorem refused_with_nothing_in_flight :
    (Interplay.of {} .empty {} sendAfterLateDrop).log
      = [⟨.send "AT+X\r\n", false, false, .error .busy⟩] := by
  decide +kernel

end Session

namespace Interplay

/-! ## Refusing terminators -/

/-- **Terminators are refused as busy** exactly if a command is in flight, or if the engine answers
after a wait that was cut off: what that wait was for stays in the slot for good. No send may have
been dropped when its number stood there already. -/
theorem configure_busy_iff {τ ε : Type} [Transport τ] (hlink : Transport.NeverBusy τ)
    (config : Config) (table : EventTable ε) (link : τ) (acts : List (Act τ ε))
    (hlate : (of config table link acts).late = []) (r : Returned)
    (hr : r ∈ (of config table link acts).log) (t : Terminators) (hcall : r.call = .configure t) :
    r.outcome = .error .busy
      ↔ r.pending = true ∨ r.cut = true ∧ r.outcome ≠ .error .notConnected := by
  have hfair := (of_sound hlink config table link acts).fair hlate r hr
  unfold Returned.Fair at hfair
  rw [hcall] at hfair
  by_cases hpending : r.pending = true
  · simp only [if_pos hpending] at hfair
    exact ⟨fun _ => .inl hpending, fun _ => hfair⟩
  · simp only [if_neg hpending] at hfair
    rcases hfair with hlost | hanswered
    · rw [hlost]
      refine ⟨nofun, fun h => ?_⟩
      rcases h with h | ⟨-, h⟩
      · exact absurd h hpending
      · exact absurd rfl h
    · cases hcut : r.cut with
      | false =>
        rw [hcut] at hanswered
        rw [hanswered]
        refine ⟨nofun, fun h => ?_⟩
        rcases h with h | ⟨h, -⟩
        · exact absurd h hpending
        · cases h
      | true =>
        rw [hcut] at hanswered
        rw [hanswered]
        exact ⟨fun _ => .inr ⟨rfl, nofun⟩, fun _ => rfl⟩

/-- Terminators that follow a wait that gave up are taken, and those that follow a wait that was cut
off are refused. -/
theorem configure_after_wait :
    let sent : List (Act Link Unit) :=
      [.call (.send "AT\r\n"), .enqueue, .serve 0, .answer, .take, .wait]
    let gaveUp : List (Act Link Unit) := sent
      ++ [.giveUp, .call (.configure .cr), .enqueue, .serve 0, .serve 0, .take]
    let lost : List (Act Link Unit) := sent
      ++ [.read 0 (.error .notConnected), .look, .call (.configure .cr), .enqueue, .serve 0, .take]
    (∃ outcome, (of {} .empty {} gaveUp).log
        = [⟨.configure .cr, false, false, outcome⟩, ⟨.send "AT\r\n", false, false, .ok ()⟩]
      ∧ outcome ≠ .error .busy)
    ∧ ∃ outcome, (of {} .empty {} lost).log
        = [⟨.configure .cr, false, true, outcome⟩, ⟨.send "AT\r\n", false, false, .ok ()⟩]
      ∧ outcome = .error .busy := by
  intro sent gaveUp lost
  have hgaveUp : (of {} .empty {} gaveUp).late = []
      ∧ (of {} .empty {} gaveUp).log
        = [⟨.configure .cr, false, false, .ok ()⟩, ⟨.send "AT\r\n", false, false, .ok ()⟩] :=
    ⟨by decide +kernel, by decide +kernel⟩
  have hlost : (of {} .empty {} lost).late = []
      ∧ (of {} .empty {} lost).log
        = [⟨.configure .cr, false, true, .error .busy⟩, ⟨.send "AT\r\n", false, false, .ok ()⟩] :=
    ⟨by decide +kernel, by decide +kernel⟩
  refine ⟨⟨_, hgaveUp.2, fun hbusy => ?_⟩, _, hlost.2, ?_⟩
  · have hiff := configure_busy_iff Link.neverBusy {} .empty {} gaveUp hgaveUp.1 _
      (hgaveUp.2 ▸ List.mem_cons_self) .cr rfl
    rcases hiff.mp hbusy with hpending | ⟨hcut, -⟩
    · cases hpending
    · cases hcut
  · exact (configure_busy_iff Link.neverBusy {} .empty {} lost hlost.1 _
      (hlost.2 ▸ List.mem_cons_self) .cr rfl).mpr (.inr ⟨rfl, by decide⟩)

end Interplay

/-- After a lost connection a session has no command in flight, and its terminators are refused as
busy. -/
theorem Session.configure_refused_after_loss :
    ∃ opened : Session Unit, Setup.openOver {} { table := .empty } = .ok opened
      ∧ let s := (opened.run
          [.send "AT\r\n", .happen (.setConnected false), .wait 100 .success]).2
        s.isPending = false ∧ (s.configure .cr).1 = .error .busy :=
  ⟨_, rfl, by decide +kernel⟩

end ModemLink
