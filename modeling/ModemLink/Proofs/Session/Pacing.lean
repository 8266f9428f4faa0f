/-
When a command goes out.

A session keeps the time at which the engine saw the confirmation that a wait returned last. The next
command goes out as soon as the interval since then has passed, and at once if none was returned yet.
Nothing else counts: not when the wait began or ended, not the waits that gave up since, not the sends
that were dropped, and not the interval that was in force before.

So there are two things to show. What is kept is the time of the last confirmation that a wait returned,
whatever the script. And a send that is not refused puts its command on the link once, at that time: it
finds the link up and the receive path idle, since the session is poised. Only once reading has ended there
is nothing to put it on, and it does not end as long as nobody takes the link down.
-/
import ModemLink.Proofs.Session.Attached
import ModemLink.Proofs.Session.Deadline

set_option autoImplicit false

namespace ModemLink

/-! ## What goes out -/

/-- **What becomes of a command** that is to go out at a time, given whether the engine reads then and what
went out before: the outcome, and what has gone out then. -/
inductive Writes {α : Type} (reads : Prop) (before : List Sent) (sent : Sent) :
    Except Error α → List Sent → Prop where
  /-- reading has ended, and nothing is written any more -/
  | lost (hended : ¬ reads) : Writes reads before sent (.error .connectionLost) before
  | taken (hreads : reads) (a : α) : Writes reads before sent (.ok a) (before ++ [sent])
  /-- the command went out, and is not the one that the link's script expects -/
  | unexpected (hreads : reads) (text : Text) :
    Writes reads before sent (.error (.protocol text)) (before ++ [sent])

namespace Writes

variable {α β : Type} {reads : Prop} {before log : List Sent} {sent : Sent} {outcome : Except Error α}

theorem map (h : Writes reads before sent outcome log) (f : α → β) :
    Writes reads before sent (outcome.map f) log := by
  cases h with
  | lost hended => exact .lost hended
  | taken hreads a => exact .taken hreads (f a)
  | unexpected hreads text => exact .unexpected hreads text

/-- As long as the engine reads, the command goes out. -/
theorem log_eq (h : Writes reads before sent outcome log) (hreads : reads) : log = before ++ [sent] := by
  cases h with
  | lost hended => exact absurd hreads hended
  | taken => rfl
  | unexpected => rfl

theorem ne_mismatch {err : Error} (h : Writes reads before sent (.error err : Except Error α) log)
    (expected actual : Status) (failure : Option Failure) :
    err ≠ .mismatch expected actual failure := by
  intro herr
  rw [herr] at h
  cases h

end Writes

/-- A link that is up takes a command, expected or not. -/
theorem Link.send_writes {reads : Prop} (hreads : reads) {l : Link} (hup : l.connected = true)
    (now : Nat) (bytes : Bytes) :
    Writes reads l.sent ⟨bytes, now⟩ (l.send now bytes).1 (l.send now bytes).2.sent := by
  have hopen : ¬ (!l.connected) = true := by
    rw [hup]
    exact Bool.false_ne_true
  unfold send
  rw [if_neg hopen]
  rcases l.script with - | ⟨e, script⟩
  · exact .taken hreads ()
  · by_cases hexpected : bytes = e.request
    · simp only [if_pos hexpected]
      exact .taken hreads ()
    · simp only [if_neg hexpected]
      exact .unexpected hreads _

namespace Engine

variable {ε : Type} {e : Engine Link ε}

/-- The engine writes the command of a request that it can begin. -/
theorem transmit_writes {reads : Prop} (hreads : reads) (hidle : e.receiver.tracker.current = none)
    (hup : e.transport.connected = true) (now : Nat) (command : Text) :
    Writes reads e.transport.sent ⟨Utf8.encode command, now⟩ (e.transmit now command).1
      (e.transmit now command).2.transport.sent := by
  have hsend : Writes reads e.transport.sent ⟨Utf8.encode command, now⟩
      (Transport.send now (Utf8.encode command) e.transport).1
      (Transport.send now (Utf8.encode command) e.transport).2.sent :=
    Link.send_writes hreads hup now (Utf8.encode command)
  unfold transmit
  rw [Receiver.begin_of_none _ command hidle]
  have hwritten := hsend.map fun _ => e.receiver.tracker.next
  rcases hlink : Transport.send now (Utf8.encode command) e.transport with ⟨err | _, link⟩
  · rw [hlink] at hwritten
    simp only
    exact hwritten
  · rw [hlink] at hwritten
    simp only
    exact hwritten

/-- Whoever still holds the ticket gets the outcome as a reply. -/
theorem answerTransmit_kept {ticket : Nat} (hkept : ticket ∉ e.abandoned)
    (outcome : Except Error Nat) :
    (e.answerTransmit ticket outcome).reply? ticket = some (.transmitted outcome) := by
  unfold answerTransmit
  cases outcome <;> simp only [if_neg hkept] <;> exact reply?_post_self _ ticket _

/-- **Serving a command** writes it and replies, unless reading has ended. -/
theorem serve_transmit_writes {ticket : Nat} (hkept : ticket ∉ e.abandoned)
    (hidle : e.connected = true → e.receiver.tracker.current = none) (hwired : e.Wired) (now : Nat)
    (command : Text) :
    ∃ outcome, (e.serve now (.transmit ticket command)).reply? ticket = some (.transmitted outcome)
      ∧ Writes (e.connected = true) e.transport.sent ⟨Utf8.encode command, now⟩ outcome
        (e.serve now (.transmit ticket command)).transport.sent := by
  unfold serve
  by_cases hconnected : e.connected = true
  · have hwrites := transmit_writes hconnected (hidle hconnected) (hwired hconnected) now command
    obtain ⟨r, link, w, replies, hanswers⟩ := transmit_answers now command e
    have hkept' : ticket ∉ (e.transmit now command).2.abandoned := by
      rw [hanswers]
      exact hkept
    simp only [if_pos hconnected]
    refine ⟨_, answerTransmit_kept hkept' _, ?_⟩
    rw [answerTransmit_transport]
    exact hwrites
  · simp only [if_neg hconnected]
    refine ⟨_, answerTransmit_kept hkept _, ?_⟩
    rw [answerTransmit_transport]
    exact .lost hconnected

/-- A single request is served, and then the engine reads. -/
theorem run_single (now : Nat) (r : Request) (e : Engine Link ε) :
    ∃ n, run now { e with requests := [r] } = (serve now r { e with requests := [] }).drain now n :=
  ⟨_, rfl⟩

/-- What went out and what was replied. -/
def Posted (log : List Sent) (replies : List (Nat × Reply)) (e : Engine Link ε) : Prop :=
  e.transport.sent = log ∧ e.replies = replies

theorem Posted.heard {log : List Sent} {replies : List (Nat × Reply)} (h : e.Posted log replies)
    {e' : Engine Link ε} {resolutions : List Resolution} (hheard : e.Heard e' resolutions) :
    e'.Posted log replies := by
  cases hheard <;> exact h

theorem Posted.receive {log : List Sent} {replies : List (Nat × Reply)} (h : e.Posted log replies) :
    Posted log replies { e with transport := (Transport.receive readSize e.transport).2 } :=
  ⟨(e.transport.receive_keeps readSize).2.trans h.1, h.2⟩

/-- Nothing goes out, and nobody is answered, while the engine reads. -/
theorem drain_posted (now n : Nat) (e : Engine Link ε) :
    (e.drain now n).Posted e.transport.sent e.replies :=
  drain_induction now (fun _ h => h.receive)
    (fun e outcome _ h => h.heard (received_heard e now outcome)) n ⟨rfl, rfl⟩

end Engine

namespace Timeline

variable {ε : Type} {t : Timeline ε}

theorem transmit_timeline (t : Timeline ε) (command : Text) :
    (t.transmit command).2 = (t.call (.transmit · command)).2 := by
  unfold transmit
  simp only
  split <;> rfl

/-- The engine as it serves a request, which is the only one. -/
def asked (t : Timeline ε) : Engine Link ε :=
  { t.met with nextTicket := t.engine.nextTicket + 1, requests := [] }

/-- What goes out during a call, and what is replied, is what serving its request does. -/
theorem call_posted (hrunning : t.engine.running = true) (hnone : t.engine.requests = [])
    (request : Nat → Request) :
    let served := t.asked.serve t.now (request t.engine.nextTicket)
    (t.call request).2.engine.Posted served.transport.sent served.replies := by
  intro served
  have hmet : met { t with engine := (t.engine.submit request).2 }
      = { t.asked with requests := [request t.engine.nextTicket] } := by
    unfold asked met Engine.submit
    simp only [hrunning, hnone, if_true, List.nil_append]
  obtain ⟨n, hrun⟩ := Engine.run_single t.now (request t.engine.nextTicket) t.asked
  have hposted := Engine.drain_posted t.now n served
  rw [show served = { t.asked with requests := [] }.serve t.now (request t.engine.nextTicket) from rfl,
    ← hrun, ← hmet] at hposted
  exact hposted

/-- **A command that is sent goes out now,** unless reading has ended. -/
theorem transmit_writes (hrunning : t.engine.running = true) (hnone : t.engine.requests = [])
    (hkept : t.engine.nextTicket ∉ t.engine.abandoned)
    (hidle : t.engine.connected = true → t.engine.receiver.tracker.current = none)
    (hwired : t.engine.Wired) (command : Text) :
    Writes (t.engine.connected = true) t.engine.transport.sent ⟨Utf8.encode command, t.now⟩
      (t.transmit command).1.2 (t.transmit command).2.engine.transport.sent := by
  have hkept' : t.engine.nextTicket ∉ t.asked.abandoned := hkept
  obtain ⟨outcome, hreply, hwrites⟩ :=
    Engine.serve_transmit_writes hkept' hidle hwired t.now command
  obtain ⟨hsent, hreplies⟩ := call_posted hrunning hnone (.transmit · command)
  -- the reply stands when the call looks for it
  have hanswer : (t.call (.transmit · command)).2.engine.reply? (t.call (.transmit · command)).1
      = some (.transmitted outcome) := by
    unfold Engine.reply?
    rw [hreplies]
    exact hreply
  rw [transmit_timeline, hsent]
  unfold transmit
  simp only [hanswer]
  exact hwrites

end Timeline

namespace Session

variable {ε : Type} {s : Session ε}

/-! ## Sending -/

/-- What has gone out so far, and when. -/
def log (s : Session ε) : List Sent := s.timeline.engine.transport.sent

/-- Nothing goes out while time passes. -/
theorem Poised.log_sleepUntil (h : s.Poised) (target : Nat) :
    (s.onTimeline (·.sleepUntil target)).log = s.log := by
  have hposted := Timeline.advance_keeps (P := Engine.Posted s.log s.timeline.engine.replies)
    (fun _ _ h => h) (fun _ h => h.receive) (fun _ _ h => h)
    (fun e now outcome _ h => h.heard (Engine.received_heard e now outcome)) target (fun _ => false)
    h.requests ⟨rfl, rfl⟩
  exact hposted.1

/-- Pacing only lets time pass. -/
theorem Poised.pace_eq (h : s.Poised) : s.pace = s.onTimeline (·.sleepUntil s.ready) := by
  unfold Session.pace
  split
  · rfl
  · rename_i hready
    have hnow : s.ready = s.timeline.now := Nat.le_antisymm (Nat.le_of_not_lt hready) s.ready_le
    have hself : s.timeline.sleepUntil s.timeline.now = s.timeline :=
      Timeline.sleepUntil_self h.settled
    rw [hnow]
    unfold onTimeline
    simp only [hself]

theorem Poised.pace (h : s.Poised) : s.pace.Poised ∧ s.pace.log = s.log := by
  rw [h.pace_eq]
  exact ⟨h.sleepUntil s.ready_le, h.log_sleepUntil _⟩

theorem send_of_pending (hpending : s.isPending = true) (command : Text) :
    s.send command = (.error .busy, s) := by
  unfold send
  rw [if_pos hpending]

theorem send_of_free (hfree : s.isPending = false) (command : Text) :
    (s.send command).1 = (s.pace.timeline.transmit command).1.2.map (fun _ => ())
      ∧ (s.send command).2.timeline = (s.pace.timeline.transmit command).2 := by
  unfold send
  rw [hfree]
  rcases htransmit : s.pace.timeline.transmit command with ⟨⟨ticket, err | number⟩, timeline⟩
  · simp only [Bool.false_eq_true, if_false, htransmit]
    exact ⟨rfl, trivial⟩
  · simp only [Bool.false_eq_true, if_false, htransmit]
    exact ⟨rfl, trivial⟩

/-- **A send that is not refused as busy** goes out once, as soon as pacing lets it, unless reading has
ended by then. -/
theorem Poised.send_writes (h : s.Poised) (hfree : s.isPending = false) (command : Text) :
    Writes ((s.timeline.sleepUntil s.ready).engine.connected = true) s.log
      ⟨Utf8.encode command, s.ready⟩ (s.send command).1 (s.send command).2.log := by
  obtain ⟨hpaced, hlog⟩ := h.pace
  have hnone : s.pace.inFlight = none := by
    rw [pace_inFlight]
    exact Option.not_isSome_iff_eq_none.mp (Bool.eq_false_iff.mp hfree)
  -- whatever came while it was held back, the link is up and the receive path idle
  have hwrites := Timeline.transmit_writes hpaced.healthy.running hpaced.requests
    hpaced.nextTicket_kept (hpaced.idle hnone) hpaced.wired command
  obtain ⟨houtcome, htimeline⟩ := send_of_free hfree command
  have hpace : s.pace.timeline = s.timeline.sleepUntil s.ready := congrArg Session.timeline h.pace_eq
  rw [houtcome, ← hlog, ← hpace, ← s.pace_now]
  unfold log
  rw [htimeline]
  exact hwrites.map _

theorem Poised.send (h : s.Poised) (command : Text) : (s.send command).2.Poised := by
  by_cases hpending : s.isPending = true
  · rw [send_of_pending hpending]
    exact h
  · obtain ⟨-, htimeline⟩ := send_of_free (Bool.eq_false_iff.mpr hpending) command
    rw [Timeline.transmit_timeline] at htimeline
    obtain ⟨hpaced, -⟩ := h.pace
    have hsubmit : Timeline.Change False s.pace.timeline _ [] :=
      .submit s.pace.timeline (.transmit · command) fun _ => trivial
    refine poised_of_settle htimeline ?_ (hsubmit.inOrder hpaced.settled.inOrder)
      (hsubmit.healthy hpaced.healthy) ?_
    · refine h.reached fun p hsound hmatches => ?_
      obtain ⟨acts, hmatches', -⟩ := hmatches.send hsound h.room command
      exact ⟨acts, hmatches'⟩
    · rw [send_timing]
      exact h.pollStep_pos

theorem send_lastResolved (s : Session ε) (command : Text) :
    (s.send command).2.lastResolved = s.lastResolved := by
  rw [send_eq]

end Session

/-! ## Confirmations -/

/-- The confirmation in a slot. -/
def Slot.delivered? : Slot → Option Resolved
  | .delivered r => some r
  | _ => none

/-- The status that an action waits for. -/
def Action.expects? : Action → Option Status
  | .wait _ expected | .waitFor _ expected | .request _ expected => some expected
  | _ => none

/-- What a wait for a status makes of a confirmation. -/
def Resolved.verdict (expected : Status) (r : Resolved) : Except Error Text :=
  if r.resolution.status = expected then .ok r.resolution.body
  else .error (.mismatch expected r.resolution.status r.resolution.failure)

/-- **A wait for a status returned this confirmation,** as a body or as a mismatch, or it returned
none. -/
def Confirms (expected : Status) (confirmed : Option Resolved) (outcome : Except Error Text) : Prop :=
  match confirmed with
  | some r => outcome = r.verdict expected
  | none => ∀ r : Resolved, outcome ≠ r.verdict expected

theorem confirms_none {expected : Status} {err : Error}
    (h : ∀ actual failure, err ≠ .mismatch expected actual failure) :
    Confirms expected none (.error err) := by
  intro r hr
  unfold Resolved.verdict at hr
  split at hr
  · cases hr
  · exact h _ _ (Except.error.inj hr)

namespace Session

variable {ε : Type} {s : Session ε}

/-- **The confirmation that a wait is going to return:** the one of the command in flight, if it has
been delivered by the deadline. No time at all is too little. -/
def confirmation? (timeout : Nat) (expected : Status) (s : Session ε) : Option Resolved :=
  if expected.isTerminal ∧ 0 < timeout then
    s.inFlight.bind fun f =>
      ((s.timeline.sleepUntil (s.now + timeout)).engine.slot f.ticket).delivered?
  else none

/-- The confirmation that an action is going to return. -/
def confirmedBy (action : Action) (s : Session ε) : Option Resolved :=
  match action with
  | .wait timeout expected => s.confirmation? timeout expected
  | .waitFor latency expected => s.confirmation? (s.timeouts.allowed latency) expected
  | .request command expected =>
    match s.send command with
    | (.ok _, sent) => sent.confirmation? (sent.timeouts.allowed .standard) expected
    | (.error _, _) => none
  | _ => none

/-- **The confirmations that the waits of a script return,** in their order. -/
def confirmations : List Action → Session ε → List Resolved
  | [], _ => []
  | action :: more, s => (s.confirmedBy action).toList ++ confirmations more (s.perform action).2

/-- A wait ended with this confirmation or with none, and pacing goes by it, or by what it went by
before. -/
structure Concludes (before : Option Nat) (expected : Status) (confirmed : Option Resolved)
    (out : Except Error Text × Session ε) : Prop where
  outcome : Confirms expected confirmed out.1
  lastResolved : out.2.lastResolved = (confirmed.map Resolved.time).or before

theorem concludes_error {before : Option Nat} {expected : Status} (err : Error) {s : Session ε}
    (h : ∀ actual failure, err ≠ .mismatch expected actual failure)
    (hkept : s.lastResolved = before) : Concludes before expected none (.error err, s) :=
  ⟨confirms_none h, hkept⟩

/-- A wait that is not possible, or is given no time, returns nothing. -/
theorem wait_concludes_none {timeout : Nat} {expected : Status}
    (h : expected.isTerminal = true → s.inFlight.isSome = true → timeout = 0) :
    Concludes s.lastResolved expected none (s.wait timeout expected) := by
  by_cases hterminal : expected.isTerminal = true
  · rcases hf : s.inFlight with - | f
    · have hwait : s.wait timeout expected = (.error .notPending, s) := by
        unfold wait
        rw [hterminal, hf]
        rfl
      rw [hwait]
      exact concludes_error .notPending nofun rfl
    · rw [h hterminal (by rw [hf]; rfl), wait_zero hf hterminal]
      exact concludes_error .timeout nofun rfl
  · unfold wait
    rw [Bool.eq_false_iff.mpr hterminal]
    exact concludes_error (.invalidParameter _) nofun rfl

/-- **A wait returns the confirmation that was delivered by its deadline,** and pacing goes by that
one. -/
theorem Poised.wait_concludes (h : s.Poised) (timeout : Nat) (expected : Status) :
    Concludes s.lastResolved expected (s.confirmation? timeout expected) (s.wait timeout expected) := by
  unfold confirmation?
  by_cases hallowed : expected.isTerminal ∧ 0 < timeout
  · obtain ⟨hterminal, hpos⟩ := hallowed
    rw [if_pos ⟨hterminal, hpos⟩]
    rcases hf : s.inFlight with - | f
    · refine wait_concludes_none fun _ hsome => ?_
      rw [hf] at hsome
      cases hsome
    · have hawaits : s.Awaits f := ⟨h, hf⟩
      obtain ⟨t, hended, hwait⟩ := hawaits.exists_sleep hterminal hpos
      -- what the wait finds at its end is what stands at its deadline
      rw [hwait, Option.bind_some, ← hawaits.slot_ended hended]
      unfold look?
      rcases t.engine.slot f.ticket with r | - | -
      · simp only [finish_eq, Option.getD_some]
        exact ⟨rfl, rfl⟩
      · exact concludes_error .timeout nofun rfl
      · exact concludes_error .notConnected nofun rfl
  · rw [if_neg hallowed]
    exact wait_concludes_none fun hterminal _ => by
      have hzero : ¬ 0 < timeout := fun hpos => hallowed ⟨hterminal, hpos⟩
      omega

/-- A send that fails does not fail with a mismatch. -/
theorem Poised.send_ne_mismatch (h : s.Poised) {command : Text} {err : Error} {sent : Session ε}
    (hsend : s.send command = (.error err, sent)) (expected actual : Status)
    (failure : Option Failure) : err ≠ .mismatch expected actual failure := by
  by_cases hpending : s.isPending = true
  · rw [send_of_pending hpending] at hsend
    cases hsend
    nofun
  · have hwrites := h.send_writes (Bool.eq_false_iff.mpr hpending) command
    rw [hsend] at hwrites
    exact hwrites.ne_mismatch expected actual failure

/-- **A request** sends, and then waits for what it has sent. -/
theorem Poised.request_concludes (h : s.Poised) (command : Text) (expected : Status) :
    Concludes s.lastResolved expected (s.confirmedBy (.request command expected))
      (s.request command expected) := by
  have hsent := h.send command
  have hkept := send_lastResolved s command
  unfold confirmedBy request
  simp only
  rcases hsend : s.send command with ⟨err | _, sent⟩
  · rw [hsend] at hkept
    exact concludes_error err (h.send_ne_mismatch hsend expected) hkept
  · rw [hsend] at hsent hkept
    rw [← hkept]
    exact hsent.wait_concludes (sent.timeouts.allowed .standard) expected

/-- **The answer to a wait** is the confirmation that it returns. -/
theorem Poised.act_confirms (h : s.Poised) {action : Action} {expected : Status}
    (hexpects : action.expects? = some expected) :
    ∃ outcome, (s.act action).1 = .body outcome
      ∧ Confirms expected (s.confirmedBy action) outcome := by
  cases action with
  | wait timeout expected' =>
    cases hexpects
    exact ⟨_, rfl, (h.wait_concludes timeout expected).outcome⟩
  | waitFor latency expected' =>
    cases hexpects
    exact ⟨_, rfl, (h.wait_concludes _ expected).outcome⟩
  | request command expected' =>
    cases hexpects
    exact ⟨_, rfl, (h.request_concludes command expected).outcome⟩
  | _ => cases hexpects

/-- **Pacing goes by the confirmation that an action returns,** or else by what it went by before. -/
theorem Poised.act_lastResolved (h : s.Poised) (action : Action) :
    (s.act action).2.lastResolved
      = ((s.confirmedBy action).map Resolved.time).or s.lastResolved := by
  cases action with
  | wait timeout expected => exact (h.wait_concludes timeout expected).lastResolved
  | waitFor latency expected => exact (h.wait_concludes _ expected).lastResolved
  | request command expected => exact (h.request_concludes command expected).lastResolved
  -- no other action touches what pacing goes by
  | send command => exact send_lastResolved s command
  | sendAbandoned command =>
    simp only [act, sendAbandoned]
    split
    · rfl
    · split
      · rfl
      · split <;> rfl
  | configure t =>
    simp only [act, configure]
    split <;> rfl
  | configureTiming timing =>
    simp only [act, configureTiming]
    split
    · rfl
    · split
      · rfl
      · split <;> rfl
  | _ => rfl

/-- **What pacing goes by** is the last confirmation that a wait of the script returned. -/
theorem Poised.run_lastResolved (h : s.Poised) (script : List Action) :
    (s.run script).2.lastResolved
      = ((s.confirmations script).getLast?.map Resolved.time).or s.lastResolved := by
  induction script generalizing s with
  | nil => rfl
  | cons action more ih =>
    have hact : (s.perform action).2.lastResolved
        = ((s.confirmedBy action).map Resolved.time).or s.lastResolved := h.act_lastResolved action
    -- the last one of the rest, or the one of this action if the rest returns none
    have hlast : (s.confirmations (action :: more)).getLast?
        = (((s.perform action).2.confirmations more).getLast?).or (s.confirmedBy action) := by
      rw [confirmations, List.getLast?_append]
      cases s.confirmedBy action <;> rfl
    calc
      (s.run (action :: more)).2.lastResolved
          = (((s.perform action).2.confirmations more).getLast?.map Resolved.time).or
            (s.perform action).2.lastResolved := ih (h.perform action)
      _ = ((s.confirmations (action :: more)).getLast?.map Resolved.time).or s.lastResolved := by
        rw [hact, hlast, Option.map_or, Option.or_assoc]

/-! ## Pacing -/

/-- **When a command goes out,** wherever a script has taken a session: whatever was sent, waited for and
given up before, in whatever time, and whatever interval was in force then.

The waits of the script return confirmations, each as a body or as a mismatch, and a wait that returns
none ends otherwise. A send is refused as long as a command is in flight. Any other one goes out once, at
the time of the call if no confirmation was returned yet, and otherwise not before the interval in force
has passed since the engine saw the last one, unless reading has ended by then. As long as the script does
not take the link down, reading does not end. -/
theorem send_paced {link : Link} {setup : Setup ε} {opened : Session ε}
    (hopen : setup.openOver link = .ok opened) (script : List Action) :
    let s := (opened.run script).2
    let due := match (opened.confirmations script).getLast? with
      | none => s.now
      | some r => max s.now (r.time + s.timing.minInterval)
    (∀ action expected, action.expects? = some expected →
      ∃ outcome, (s.perform action).1 = .body outcome
        ∧ Confirms expected (s.confirmedBy action) outcome)
    ∧ ∀ command,
      (s.isPending = true → s.send command = (.error .busy, s))
      ∧ (s.isPending = false →
        Writes ((s.timeline.sleepUntil due).engine.connected = true) s.log
            ⟨Utf8.encode command, due⟩ (s.send command).1 (s.send command).2.log
        ∧ (Action.happen (.setConnected false) ∉ script →
          (s.send command).2.log = s.log ++ [⟨Utf8.encode command, due⟩])) := by
  intro s due
  have hopened : opened.Poised := poised_of_open hopen []
  have h : s.Poised := hopened.run script
  refine ⟨fun action expected hexpects => h.act_confirms hexpects, fun command =>
    ⟨fun hpending => send_of_pending hpending command, fun hfree => ?_⟩⟩
  have hlast : s.lastResolved = (opened.confirmations script).getLast?.map Resolved.time := by
    have hnone : opened.lastResolved = none := by
      obtain ⟨-, -, hopened⟩ := of_openOver hopen
      rw [hopened]
    have hrun := hopened.run_lastResolved script
    rw [hnone, Option.or_none] at hrun
    exact hrun
  have hdue : due = s.ready := by
    unfold ready
    rw [hlast]
    show (match (opened.confirmations script).getLast? with
      | none => s.now
      | some r => max s.now (r.time + s.timing.minInterval)) = _
    cases (opened.confirmations script).getLast? <;> rfl
  have hwrites := h.send_writes hfree command
  rw [← hdue] at hwrites
  refine ⟨hwrites, fun hstays => hwrites.log_eq ?_⟩
  have hnow : s.now ≤ due := hdue ▸ s.ready_le
  exact (h.attached_sleepUntil (attached_of_open hopen hstays) hnow).connected

/-- A confirmation that arrives at once and is waited for late, then a longer interval, and a command that
was dropped while it was held back. The next one goes out when the longer interval since the arrival has
passed. -/
theorem send_paced_after_late_wait :
    ∃ opened : Session Unit,
      Setup.openOver { script := [⟨Utf8.encode "AT\r\n", Utf8.encode "OK\r\n"⟩] }
        { table := .empty, config := { timing := { minInterval := 50, pollStep := 1 } } } = .ok opened
      ∧ let s := (opened.run [.send "AT\r\n", .happen (.sleep 20), .wait 100 .success,
          .configureTiming ⟨80, 7⟩, .sendAbandoned "AT+X\r\n"]).2
        s.now = 20 ∧ (s.send "AT+Y\r\n").2.log = s.log ++ [⟨Utf8.encode "AT+Y\r\n", 80⟩] := by
  obtain ⟨opened, hopen, hlast, hnow, hinterval, hfree⟩ : ∃ opened : Session Unit,
      Setup.openOver { script := [⟨Utf8.encode "AT\r\n", Utf8.encode "OK\r\n"⟩] }
        { table := .empty, config := { timing := { minInterval := 50, pollStep := 1 } } } = .ok opened
      ∧ let script := [.send "AT\r\n", .happen (.sleep 20), .wait 100 .success,
          .configureTiming ⟨80, 7⟩, .sendAbandoned "AT+X\r\n"]
        (opened.confirmations script).getLast? = some ⟨⟨1, "", .success, [], false, none⟩, 0⟩
        ∧ (opened.run script).2.now = 20 ∧ (opened.run script).2.timing.minInterval = 80
        ∧ (opened.run script).2.isPending = false := ⟨_, rfl, by decide +kernel⟩
  refine ⟨opened, hopen, hnow, ?_⟩
  have hsend := (((send_paced hopen _).2 "AT+Y\r\n").2 hfree).2 (by decide)
  simp only [hlast, hnow, hinterval] at hsend
  exact hsend

end Session

end ModemLink
