/-
A session between two actions.

Once everything has settled, the two parties are at rest: nothing is due, nothing is asked for, the engine
runs, and if it still reads, its link is up. Every script leaves a session so, and however much time
passes, it stays so. What an action does from there on can be read off the session alone.
-/
import ModemLink.Proofs.Session.Refusals
import ModemLink.Proofs.Session.Sleeping
import ModemLink.Proofs.Session.Timing

set_option autoImplicit false

namespace ModemLink

namespace Session

variable {ε : Type}

/-! ## The rounds of a wait -/

variable {f : InFlight} {expected : Status} {deadline : Nat}

/-- What a wait finds when it looks: its end, if the resolution stands or cannot come any more. -/
def look? (f : InFlight) (expected : Status) (s : Session ε) :
    Option (Except Error Text × Session ε) :=
  match s.timeline.engine.slot f.ticket with
  | .delivered r =>
    some ({ s with timeline := (s.timeline.collect f.ticket).2 }.finish expected r)
  | .closed => some (.error .notConnected, s)
  | .waiting => none

/-- The session after one more slice of its wait. -/
def slice (f : InFlight) (deadline : Nat) (s : Session ε) : Session ε :=
  s.advanceToSlot f (s.now + min s.timing.pollStep (deadline - s.now))

section

variable (f : InFlight) (expected : Status) {deadline : Nat} (rounds : Nat) {s : Session ε}

/-- Looking ends the wait, or leaves it to what comes next. -/
theorem look?_getD (s : Session ε) (next : Except Error Text × Session ε) :
    (s.look? f expected).getD next =
      (let (slot, timeline) := s.timeline.collect f.ticket
      match slot with
      | .delivered r => { s with timeline := timeline }.finish expected r
      | .closed => (.error .notConnected, s)
      | .waiting => next) := by
  unfold look? Timeline.collect Engine.collect
  rcases s.timeline.engine.slot f.ticket with r | - | - <;> rfl

/-- At its deadline a wait gives up. -/
theorem waitRounds_over (hover : deadline ≤ s.now) :
    s.waitRounds f expected deadline rounds = s.giveUp f := by
  rw [waitRounds]
  exact if_pos hover

/-- **A round** sleeps for a slice and looks. -/
theorem waitRounds_succ (hopen : s.now < deadline) :
    s.waitRounds f expected deadline (rounds + 1) =
      ((s.slice f deadline).look? f expected).getD
        ((s.slice f deadline).waitRounds f expected deadline rounds) := by
  rw [waitRounds, if_neg (Nat.not_le_of_lt hopen), look?_getD]
  rfl

/-- After the last round a wait gives up. -/
theorem waitRounds_zero (hopen : s.now < deadline) :
    s.waitRounds f expected deadline 0 =
      ((s.slice f deadline).look? f expected).getD ((s.slice f deadline).giveUp f) := by
  rw [waitRounds, if_neg (Nat.not_le_of_lt hopen), look?_getD]
  rfl

end

/-- Looking does not touch what the session goes by. -/
theorem look?_timing {s : Session ε} {out : Except Error Text × Session ε}
    (h : s.look? f expected = some out) : out.2.timing = s.timing := by
  unfold look? at h
  split at h
  · rw [finish_eq] at h
    cases h
    rfl
  · cases h
    rfl
  · cases h

theorem waitRounds_timing (f : InFlight) (expected : Status) (deadline rounds : Nat)
    (s : Session ε) : (s.waitRounds f expected deadline rounds).2.timing = s.timing := by
  -- what comes after a look keeps the timing, and so does the look
  have hround (s : Session ε) {next : Except Error Text × Session ε}
      (hnext : next.2.timing = s.timing) :
      (((s.slice f deadline).look? f expected).getD next).2.timing = s.timing := by
    rcases hlook : (s.slice f deadline).look? f expected with - | out
    · exact hnext
    · have htiming := look?_timing hlook
      exact htiming
  have hover {rounds : Nat} {s : Session ε} (hover : deadline ≤ s.now) :
      (s.waitRounds f expected deadline rounds).2.timing = s.timing := by
    rw [waitRounds_over f expected rounds hover]
    rfl
  induction rounds generalizing s with
  | zero =>
    rcases Nat.lt_or_ge s.now deadline with hopen | hpast
    · rw [waitRounds_zero f expected hopen]
      exact hround s rfl
    · exact hover hpast
  | succ rounds ih =>
    rcases Nat.lt_or_ge s.now deadline with hopen | hpast
    · rw [waitRounds_succ f expected rounds hopen]
      exact hround s (ih _)
    · exact hover hpast

theorem wait_timing (s : Session ε) (timeout : Nat) (expected : Status) :
    (s.wait timeout expected).2.timing = s.timing := by
  unfold wait
  split
  · rfl
  · split
    · rfl
    · exact waitRounds_timing _ _ _ _ _

theorem send_timing (s : Session ε) (command : Text) :
    (s.send command).2.timing = s.timing := by
  rw [send_eq]

/-- **Whatever is done with a session, its poll step is not nothing.** -/
theorem pollStep_pos_act (action : Action) {s : Session ε} (h : 0 < s.timing.pollStep) :
    0 < (s.act action).2.timing.pollStep := by
  have hsame {s' : Session ε} (hs' : s'.timing = s.timing) : 0 < s'.timing.pollStep := hs' ▸ h
  cases action with
  | send command => exact hsame (send_timing s command)
  | sendAbandoned command =>
    refine hsame ?_
    simp only [act, sendAbandoned]
    split
    · rfl
    · split
      · rfl
      · split <;> rfl
  | wait timeout expected => exact hsame (wait_timing s timeout expected)
  | waitFor latency expected => exact hsame (wait_timing s _ expected)
  | request command expected =>
    have hsent := send_timing s command
    simp only [act, request]
    rcases hsend : s.send command with ⟨err | _, sent⟩
    · rw [hsend] at hsent
      exact hsame hsent
    · rw [hsend] at hsent
      exact hsame ((wait_timing sent _ expected).trans hsent)
  | configure t =>
    refine hsame ?_
    simp only [act, configure]
    split <;> rfl
  | configureTiming timing =>
    simp only [act, configureTiming]
    split
    · exact h
    · split
      · exact h
      · rename_i hstep
        split
        · exact Nat.pos_of_ne_zero hstep
        · exact h
  | _ => exact h

end Session

/-! ## Reading -/

/-- A link that an engine still reads from is up. -/
def Engine.Wired {ε : Type} (e : Engine Link ε) : Prop :=
  e.connected = true → e.transport.connected = true

theorem Link.receive_keeps (room : Nat) (l : Link) :
    (l.receive room).2.connected = l.connected ∧ (l.receive room).2.sent = l.sent := by
  unfold receive
  split
  · exact ⟨rfl, rfl⟩
  · split <;> exact ⟨rfl, rfl⟩

namespace Engine

variable {ε : Type} {e : Engine Link ε}

theorem Wired.heard (h : e.Wired) {e' : Engine Link ε} {resolutions : List Resolution}
    (hheard : e.Heard e' resolutions) : e'.Wired := by
  cases hheard with
  | failed => exact fun hconnected => absurd hconnected Bool.false_ne_true
  | _ => exact h

theorem Wired.receive (h : e.Wired) :
    Wired { e with transport := (Transport.receive readSize e.transport).2 } := fun hconnected =>
  (e.transport.receive_keeps readSize).1.trans (h hconnected)

/-- **Reading finds out** whether the link is up. -/
theorem wired_drain (now n : Nat) (hrunning : e.running = true) : (e.drain now (n + 1)).Wired := by
  have hrest {e : Engine Link ε} (h : e.Wired) : (e.drain now n).Wired :=
    drain_induction now (fun _ h => h.receive) (fun e outcome _ h => h.heard (received_heard e now outcome))
      n h
  by_cases hconnected : e.connected = true
  · have hlive : (e.running && e.connected) = true := by rw [hrunning, hconnected]; rfl
    unfold drain
    rw [if_pos hlive]
    by_cases hup : e.transport.connected = true
    · have hwired : e.Wired := fun _ => hup
      have hreceived := hwired.receive
      rcases hlink : Transport.receive readSize e.transport with ⟨- | outcome, link⟩
      · rw [hlink] at hreceived
        exact hreceived
      · rw [hlink] at hreceived
        exact hrest (hreceived.heard (received_heard _ now outcome))
    · -- the first read fails, and there is no second one
      have hfails : Transport.receive readSize e.transport
          = (some (.error .notConnected), e.transport) := by
        show e.transport.receive readSize = _
        unfold Link.receive
        rw [Bool.eq_false_iff.mpr hup]
        rfl
      rw [hfails]
      exact hrest fun hconnected => absurd hconnected Bool.false_ne_true
  · unfold drain
    rw [Bool.eq_false_iff.mpr hconnected, Bool.and_false]
    exact fun h => absurd h hconnected

theorem wired_run {now : Nat} (h : e.Healthy now) : (e.run now).Wired :=
  wired_drain now _ (serve_induction now (fun _ h => Healthy.serveNext h) _ h).running

end Engine

namespace Session

variable {ε : Type} {s : Session ε}

/-! ## Between two actions -/

/-- **A session between two actions.** The two parties are at rest, whatever was due has arrived, nothing
is asked for, the engine runs, and if it still reads, its link is up. -/
structure Poised (s : Session ε) : Prop where
  parties : ∃ p : Interplay Link ε, p.Sound ∧ s.Matches .nothing p
  settled : s.timeline.Settled
  requests : s.timeline.engine.requests = []
  healthy : s.timeline.Healthy
  pollStep_pos : 0 < s.timing.pollStep
  wired : s.timeline.engine.Wired

/-- Settling leaves a session poised. -/
theorem poised_of_settle {t : Timeline ε} (hs : s.timeline = t.settle)
    (hparties : ∃ p : Interplay Link ε, p.Sound ∧ s.Matches .nothing p) (horder : t.InOrder)
    (hhealthy : t.Healthy) (hstep : 0 < s.timing.pollStep) : s.Poised := by
  have hmet : t.met.Healthy t.now :=
    ⟨hhealthy.running, hhealthy.pollStep_pos, hhealthy.harmless, hhealthy.seen⟩
  refine ⟨hparties, ?_, ?_, ?_, hstep, ?_⟩
  · rw [hs]
    exact Timeline.settled_settle horder
  · rw [hs]
    exact Timeline.settle_requests t
  · have hsettle : Timeline.Change False t t.settle [] := .settle t
    rw [hs]
    exact hsettle.healthy hhealthy
  · rw [hs]
    exact Engine.wired_run hmet

namespace Poised

/-- Where the parties get to from here. -/
theorem reached (h : s.Poised) {s' : Session ε}
    (hreached : ∀ p : Interplay Link ε, p.Sound → s.Matches .nothing p → s'.Reached .nothing p) :
    ∃ p : Interplay Link ε, p.Sound ∧ s'.Matches .nothing p := by
  obtain ⟨p, hsound, hmatches⟩ := h.parties
  obtain ⟨acts, hacts⟩ := hreached p hsound hmatches
  exact ⟨_, hsound.foldl_step Link.neverBusy acts, hacts⟩

theorem room (h : s.Poised) : s.timeline.engine.requests.length < requestDepth := by
  rw [h.requests]
  decide

/-- **Every action leaves a session poised.** -/
theorem perform (h : s.Poised) (action : Action) : (s.perform action).2.Poised := by
  have hcourse := act_course h.settled.inOrder action fun _ => trivial
  have hparties := h.reached fun p hsound hmatches =>
    (hmatches.act hsound h.room action).trans fun _ h' => h'.settle
  exact poised_of_settle rfl hparties (hcourse.inOrder h.settled.inOrder) (hcourse.healthy h.healthy)
    (pollStep_pos_act action h.pollStep_pos)

theorem run (h : s.Poised) (script : List Action) : (s.run script).2.Poised := by
  induction script generalizing s with
  | nil => exact h
  | cons action more ih => exact ih (h.perform action)

theorem requests_sleepUntil (h : s.Poised) (target : Nat) :
    (s.timeline.sleepUntil target).engine.requests = [] := by
  have hle := Timeline.length_requests_advance target (fun _ => false) s.timeline
  rw [h.requests] at hle
  exact List.eq_nil_of_length_eq_zero (Nat.le_zero.mp hle)

/-- Time alone takes no link down. -/
theorem sleepUntil_course (h : s.Poised) {target : Nat} (hnow : s.now ≤ target) :
    Timeline.Course False s.timeline (s.timeline.sleepUntil target) [] :=
  Timeline.advance_course _ h.settled.inOrder hnow

/-- **Time alone** leaves a session poised. -/
theorem sleepUntil (h : s.Poised) {target : Nat} (hnow : s.now ≤ target) :
    (s.onTimeline (·.sleepUntil target)).Poised where
  parties := h.reached fun p _ hmatches =>
    hmatches.alone (.advance p hmatches.writing_eq s.timeline target _ hmatches.engine_eq)
  settled := Timeline.settled_sleepUntil h.settled hnow
  requests := h.requests_sleepUntil target
  healthy := (h.sleepUntil_course hnow).healthy h.healthy
  pollStep_pos := h.pollStep_pos
  wired := Timeline.advance_keeps (P := Engine.Wired) (fun _ _ h => h) (fun _ h => h.receive)
    (fun _ _ h => h) (fun e now outcome _ h => h.heard (Engine.received_heard e now outcome)) target _
    h.requests h.wired

/-- What becomes of the command in flight. -/
theorem fate (h : s.Poised) {f : InFlight} (hf : s.inFlight = some f) :
    Interplay.Fate s.timeline.engine f := by
  obtain ⟨p, hsound, hmatches⟩ := h.parties
  have hrunning : p.engine.running = true := by
    rw [hmatches.engine_eq]
    exact h.healthy.running
  rcases (hsound.stage hrunning).of_free (.inl hmatches.doing_eq) with hapart |
    ⟨g, -, hg, -, -, -, hfate⟩
  · cases (hmatches.inFlight_eq.trans hf).symm.trans hapart.inFlight_eq
  · cases (hmatches.inFlight_eq.trans hf).symm.trans hg
    exact hmatches.engine_eq ▸ hfate

/-- With no command in flight the receive path waits for nothing, as long as the engine reads. -/
theorem idle (h : s.Poised) (hf : s.inFlight = none) (hconnected : s.timeline.engine.connected = true) :
    s.timeline.engine.receiver.tracker.current = none := by
  obtain ⟨p, hsound, hmatches⟩ := h.parties
  have hengine := hmatches.engine_eq
  have hrunning : p.engine.running = true := by
    rw [hengine]
    exact h.healthy.running
  rcases (hsound.stage hrunning).of_free (.inl hmatches.doing_eq) with hapart | ⟨g, -, hg, -⟩
  · by_contra hsome
    obtain ⟨pending, hcurrent⟩ := Option.ne_none_iff_exists'.mp hsome
    rcases hapart.slot pending.number ⟨pending, hengine ▸ hcurrent, rfl⟩ with
      hcancel | ⟨k, hwriting⟩ | ⟨k, hlate⟩ | hcut
    · rw [hengine, h.requests] at hcancel
      cases hcancel
    · cases hmatches.writing_eq.symm.trans hwriting
    · rw [hmatches.late_eq] at hlate
      cases hlate
    · -- a wait that was cut off leaves its command there, but reading has ended then
      have hlost := (hsound.cut hrunning hcut).1
      rw [hengine, hconnected] at hlost
      cases hlost
  · cases (hmatches.inFlight_eq.trans hf).symm.trans hg

/-- Nobody has given up the ticket that comes next. -/
theorem nextTicket_kept (h : s.Poised) :
    s.timeline.engine.nextTicket ∉ s.timeline.engine.abandoned := by
  obtain ⟨p, hsound, hmatches⟩ := h.parties
  rw [← hmatches.engine_eq]
  exact hsound.nextTicket_not_mem_abandoned

end Poised

/-- **Wherever a script takes a session,** it is poised there. -/
theorem poised_of_open {link : Link} {setup : Setup ε} {opened : Session ε}
    (hopen : setup.openOver link = .ok opened) (script : List Action) :
    (opened.run script).2.Poised := by
  obtain ⟨⟨acts, hmatches⟩, -⟩ := exists_interplay hopen []
  obtain ⟨hvalid, -, hopened⟩ := of_openOver hopen
  have hsound := Interplay.of_sound Link.neverBusy setup.config setup.table link acts
  have hstep := Config.pollStep_pos hvalid
  have hstart : opened.timeline
      = (Timeline.initial setup.config setup.table link).settle := by rw [hopened]; rfl
  refine (poised_of_settle hstart ⟨_, hsound, hmatches⟩ ⟨.nil, nofun⟩ ⟨rfl, hstep, nofun, nofun⟩ ?_).run
    script
  rw [hopened]
  exact hstep

end Session

end ModemLink
