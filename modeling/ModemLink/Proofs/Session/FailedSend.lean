/-
What a failed send leaves behind: nothing.

The engine begins a command before it writes it, and gives it up again if writing fails. By then the
receive path is no longer as it was, so giving up has to take back what beginning did, and no more than
that. It does, but for the number, which is not handed out again. A command that is refused was never
begun, and whatever is in the slot stays as it is, with the reply gathered so far and with its waiter.

On the application's side the failure comes back as the outcome of the call. Steps of both parties go by
meanwhile, but only a step that ends a call or begins a wait touches the command in flight. There is none
while a send is under way, and a send that fails puts none there.
-/
import ModemLink.Proofs.Session.Clocked
import ModemLink.Proofs.Session.Dropped

set_option autoImplicit false

namespace ModemLink

/-! ## Begun and given up -/

namespace Receiver

variable {ε : Type}

/-- The receive path with another number to be handed out next. -/
def withNext (next : Nat) (r : Receiver ε) : Receiver ε :=
  { r with tracker := { r.tracker with next := next } }

/-- **Giving up what was just begun** takes back all but the number. -/
theorem cancel_begin {r r' : Receiver ε} {command : Text} {number : Nat}
    (hbegin : r.begin command = .ok (number, r')) :
    (r'.cancel number).2 = r.withNext (r.tracker.next + 1) := by
  rcases hcurrent : r.tracker.current with - | p
  · rw [begin_of_none r command hcurrent] at hbegin
    cases hbegin
    simp [cancel, Tracker.cancel, withNext, hcurrent]
  · rw [begin_of_some r command p hcurrent] at hbegin
    cases hbegin

end Receiver

namespace Engine

variable {τ ε : Type} [Transport τ]

/-- Begins a command and writes it, unless reading has ended. -/
def attempt (now : Nat) (command : Text) (e : Engine τ ε) : Except Error Nat × Engine τ ε :=
  if e.connected then e.transmit now command else (.error .connectionLost, e)

/-- A command is attempted, and then answered. -/
theorem serve_transmit (now ticket : Nat) (command : Text) (e : Engine τ ε) :
    e.serve now (.transmit ticket command)
      = (e.attempt now command).2.answerTransmit ticket (e.attempt now command).1 := rfl

/-- **Why a command is not written,** with the failure, the number that is next from then on, and what
becomes of the link. -/
inductive Unwritten (e : Engine τ ε) (now : Nat) (command : Text) : Error → Nat → τ → Prop where
  | lost (hlost : e.connected = false) :
    Unwritten e now command .connectionLost e.receiver.tracker.next e.transport
  /-- another command is in the slot -/
  | busy (p : Pending) (hconnected : e.connected = true)
    (hcurrent : e.receiver.tracker.current = some p) :
    Unwritten e now command .busy e.receiver.tracker.next e.transport
  /-- the link does not take the command -/
  | refused (err : Error) (link : τ) (hconnected : e.connected = true)
    (hidle : e.receiver.tracker.current = none)
    (hsend : Transport.send now (Utf8.encode command) e.transport = (.error err, link)) :
    Unwritten e now command err (e.receiver.tracker.next + 1) link

/-- For each of these reasons an attempt fails, and changes the next number and the link at most. -/
theorem Unwritten.attempt_eq {e : Engine τ ε} {now : Nat} {command : Text} {err : Error} {next : Nat}
    {link : τ} (h : e.Unwritten now command err next link) :
    e.attempt now command
      = (.error err, { e with receiver := e.receiver.withNext next, transport := link }) := by
  unfold attempt
  cases h with
  | lost hlost =>
    rw [if_neg (Bool.eq_false_iff.mp hlost)]
    rfl
  | busy p hconnected hcurrent =>
    rw [if_pos hconnected]
    unfold transmit
    rw [Receiver.begin_of_some e.receiver command p hcurrent]
    rfl
  | refused _ _ hconnected hidle hsend =>
    have hbegin := Receiver.begin_of_none e.receiver command hidle
    rw [if_pos hconnected]
    unfold transmit
    rw [hbegin]
    simp only [hsend, Receiver.cancel_begin hbegin]

/-- **A failed attempt** has one of these reasons. -/
theorem exists_unwritten {e : Engine τ ε} {now : Nat} {command : Text} {err : Error}
    (hfailed : (e.attempt now command).1 = .error err) :
    ∃ next link, e.Unwritten now command err next link := by
  have hreason {err' : Error} {next : Nat} {link : τ} (h : e.Unwritten now command err' next link) :
      ∃ next link, e.Unwritten now command err next link := by
    rw [h.attempt_eq] at hfailed
    cases hfailed
    exact ⟨next, link, h⟩
  by_cases hconnected : e.connected = true
  · rcases hcurrent : e.receiver.tracker.current with - | p
    · rcases hsend : Transport.send now (Utf8.encode command) e.transport with ⟨err' | written, link⟩
      · exact hreason (.refused err' link hconnected hcurrent hsend)
      · -- the command was written
        unfold attempt transmit at hfailed
        rw [if_pos hconnected, Receiver.begin_of_none e.receiver command hcurrent] at hfailed
        simp only [hsend] at hfailed
        cases hfailed
    · exact hreason (.busy p hconnected hcurrent)
  · exact hreason (.lost (Bool.eq_false_iff.mpr hconnected))

/-- **Serving a command that fails.** Whoever still holds the ticket gets the failure as a reply. -/
theorem serve_of_failed {e : Engine τ ε} {now : Nat} {command : Text} {err : Error}
    (hfailed : (e.attempt now command).1 = .error err) (ticket : Nat) :
    ∃ next link, e.Unwritten now command err next link
      ∧ e.serve now (.transmit ticket command) = { e with
          receiver := e.receiver.withNext next
          transport := link
          replies := if ticket ∈ e.abandoned then e.replies
            else (ticket, .transmitted (.error err)) :: e.replies } := by
  obtain ⟨next, link, hunwritten⟩ := exists_unwritten hfailed
  refine ⟨next, link, hunwritten, ?_⟩
  rw [serve_transmit, hunwritten.attempt_eq]
  unfold answerTransmit post
  by_cases habandoned : ticket ∈ e.abandoned
  · simp only [if_pos habandoned]
  · simp only [if_neg habandoned]

end Engine

/-! ## The application's side of a step -/

namespace Interplay

variable {τ ε : Type} {s s' : Interplay τ ε}

/-- **What a step does on the application's side.** -/
inductive Proceeds (s s' : Interplay τ ε) : Prop where
  /-- the engine takes a step, or what the application does is none of these -/
  | stays (hdoing : s'.doing = s.doing) (hcalled : s'.called = s.called)
    (hinFlight : s'.inFlight = s.inFlight) (hlog : s'.log = s.log)
  /-- a call that is refused because a command is in flight -/
  | refuses (c : Call) (hpending : s.inFlight.isSome = true) (hdoing : s'.doing = .nothing)
    (hinFlight : s'.inFlight = s.inFlight) (hlog : s'.log = ⟨c, true, s.cut, .error .busy⟩ :: s.log)
  | calls (c : Call) (hfree : c.exclusive = true → s.inFlight = none) (hdoing : s'.doing = .queueing c)
    (hcalled : s'.called = s.inFlight.isSome) (hinFlight : s'.inFlight = s.inFlight)
    (hlog : s'.log = s.log)
  | queues (c : Call) (ticket : Nat) (hbefore : s.doing = .queueing c)
    (hdoing : s'.doing = .awaiting c ticket) (hcalled : s'.called = s.called)
    (hinFlight : s'.inFlight = s.inFlight) (hlog : s'.log = s.log)
  /-- a send that was given a number returns -/
  | starts (c : Call) (f : InFlight) (hbefore : s.doing = .awaiting c f.ticket)
    (hdoing : s'.doing = .nothing) (hinFlight : s'.inFlight = some f)
    (hlog : s'.log = ⟨c, s.called, s.cut, .ok ()⟩ :: s.log)
  | returns (c : Call) (ticket : Nat) (outcome : Except Error Unit)
    (hbefore : s.doing = .awaiting c ticket) (hdoing : s'.doing = .nothing)
    (hinFlight : s'.inFlight = s.inFlight)
    (hlog : s'.log = ⟨c, s.called, s.cut, outcome⟩ :: s.log)
  /-- a send is dropped, or a wait begins or ends -/
  | turns (hdoing : s'.doing = .nothing ∨ ∃ f, s'.doing = .waiting f) (hlog : s'.log = s.log)

theorem call_proceeds (s : Interplay τ ε) (c : Call) : s.Proceeds (s.call c) := by
  unfold call
  split
  · simp only
    by_cases hbusy : (c.exclusive && s.inFlight.isSome) = true
    · rw [if_pos hbusy]
      have hpending := (Bool.and_eq_true_iff.mp hbusy).2
      exact .refuses c hpending rfl rfl (by rw [← hpending]; rfl)
    · rw [if_neg hbusy]
      refine .calls c (fun hexclusive => ?_) rfl rfl rfl rfl
      rw [hexclusive, Bool.true_and] at hbusy
      exact Option.not_isSome_iff_eq_none.mp hbusy
  · exact .stays rfl rfl rfl rfl

theorem enqueue_proceeds (s : Interplay τ ε) : s.Proceeds s.enqueue := by
  unfold enqueue
  split
  · rename_i c hdoing
    split
    · exact .stays rfl rfl rfl rfl
    · exact .queues c _ hdoing rfl rfl rfl rfl
  · exact .stays rfl rfl rfl rfl

theorem take_proceeds (s : Interplay τ ε) : s.Proceeds s.take := by
  unfold take
  split
  · rename_i c ticket hdoing
    split
    · rename_i number _
      exact .starts c ⟨number, ticket⟩ hdoing rfl rfl rfl
    · rename_i reply _ _
      exact .returns c ticket reply.outcome hdoing rfl rfl rfl
    · split
      · exact .stays rfl rfl rfl rfl
      · exact .returns c ticket (.error .notConnected) hdoing rfl rfl rfl
  · exact .stays rfl rfl rfl rfl

theorem step_proceeds [Transport τ] (s : Interplay τ ε) (act : Act τ ε) : s.Proceeds (s.step act) := by
  cases act with
  | call c => exact s.call_proceeds c
  | enqueue => exact s.enqueue_proceeds
  | take => exact s.take_proceeds
  | setPollStep step =>
    simp only [Interplay.step, setPollStep]
    split
    · split <;> exact .stays rfl rfl rfl rfl
    · exact .stays rfl rfl rfl rfl
  | drop =>
    simp only [step, drop]
    split
    · exact .turns (.inl rfl) rfl
    · exact .turns (.inl rfl) rfl
    · exact .stays rfl rfl rfl rfl
  | wait =>
    simp only [step, wait]
    split
    · rename_i f _ _
      exact .turns (.inr ⟨f, rfl⟩) rfl
    · exact .stays rfl rfl rfl rfl
  | look =>
    simp only [step, look]
    split
    · split
      · exact .turns (.inl rfl) rfl
      · exact .turns (.inl rfl) rfl
      · exact .stays rfl rfl rfl rfl
    · exact .stays rfl rfl rfl rfl
  | giveUp =>
    simp only [step, giveUp]
    split
    · exact .turns (.inl rfl) rfl
    · exact .stays rfl rfl rfl rfl
  | serve now =>
    simp only [step]
    by_cases hwriting : s.writing = none
    · obtain ⟨-, -, hdoing, hcalled, -, hlog, hinFlight⟩ := (serve_served s now hwriting).frame
      exact .stays hdoing hcalled hinFlight hlog
    · rw [serve_of_writing now (Option.isSome_iff_ne_none.mpr hwriting)]
      exact .stays rfl rfl rfl rfl
  | answer =>
    simp only [step, answer]
    split <;> exact .stays rfl rfl rfl rfl
  | read now outcome =>
    simp only [step, read]
    split <;> exact .stays rfl rfl rfl rfl
  | link link => exact .stays rfl rfl rfl rfl
  | events q => exact .stays rfl rfl rfl rfl
  | stop =>
    have hstop : s.step .stop
        = if s.writing.isNone then { s with engine := s.engine.stop } else s := rfl
    rw [hstop]
    split <;> exact .stays rfl rfl rfl rfl

/-- **No command is in flight in the middle of a call that needs none,** and none was when the call was
made. `Sound` says so too, but of links that never say busy of themselves; this holds over any link. -/
def Unoccupied (s : Interplay τ ε) : Prop :=
  ∀ c, (s.doing = .queueing c ∨ ∃ ticket, s.doing = .awaiting c ticket) → c.exclusive = true →
    s.called = false ∧ s.inFlight = none

theorem unoccupied_of_not_calling (h : s.doing = .nothing ∨ ∃ f, s.doing = .waiting f) :
    s.Unoccupied :=
  fun _ hcalling => absurd hcalling (Doing.not_calling h)

/-- A step keeps it so. -/
theorem Proceeds.unoccupied (h : s.Proceeds s') (hs : s.Unoccupied) : s'.Unoccupied := by
  cases h with
  | stays hdoing hcalled hinFlight _ =>
    unfold Unoccupied
    rw [hdoing, hcalled, hinFlight]
    exact hs
  | calls c hfree hdoing hcalled hinFlight _ =>
    intro c' hcalling hexclusive
    rw [hdoing] at hcalling
    obtain rfl : c = c' := by
      rcases hcalling with hqueueing | ⟨_, hawaiting⟩
      · exact Doing.queueing.inj hqueueing
      · cases hawaiting
    rw [hcalled, hinFlight, hfree hexclusive]
    exact ⟨rfl, rfl⟩
  | queues c ticket hbefore hdoing hcalled hinFlight _ =>
    intro c' hcalling hexclusive
    rw [hdoing] at hcalling
    obtain rfl : c = c' := by
      rcases hcalling with hqueueing | ⟨_, hawaiting⟩
      · cases hqueueing
      · exact (Doing.awaiting.inj hawaiting).1
    rw [hcalled, hinFlight]
    exact hs c (.inl hbefore) hexclusive
  | refuses _ _ hdoing => exact unoccupied_of_not_calling (.inl hdoing)
  | starts _ _ _ hdoing => exact unoccupied_of_not_calling (.inl hdoing)
  | returns _ _ _ _ hdoing => exact unoccupied_of_not_calling (.inl hdoing)
  | turns hdoing => exact unoccupied_of_not_calling hdoing

theorem foldl_step_unoccupied [Transport τ] (acts : List (Act τ ε)) (h : s.Unoccupied) :
    (acts.foldl step s).Unoccupied := by
  induction acts generalizing s with
  | nil => exact h
  | cons act acts ih => exact ih ((s.step_proceeds act).unoccupied h)

theorem of_unoccupied [Transport τ] (config : Config) (table : EventTable ε) (link : τ)
    (acts : List (Act τ ε)) : (of config table link acts).Unoccupied :=
  foldl_step_unoccupied acts (unoccupied_of_not_calling (.inl rfl))

/-- **A call that fails** leaves the command in flight as it was when the call was made, if it is one
that needs none. -/
theorem Proceeds.inFlight_of_failed (h : s.Proceeds s') (hs : s.Unoccupied) {r : Returned} {err : Error}
    (hlog : s'.log = r :: s.log) (hexclusive : r.call.exclusive = true)
    (houtcome : r.outcome = .error err) :
    s'.inFlight = s.inFlight ∧ s.inFlight.isSome = r.pending := by
  have hnew (hkept : s'.log = s.log) : False := List.cons_ne_self r s.log (hlog.symm.trans hkept)
  cases h with
  | refuses c hpending _ hinFlight hrefused =>
    cases hlog.symm.trans hrefused
    exact ⟨hinFlight, hpending⟩
  | returns c ticket outcome hbefore _ hinFlight hreturned =>
    cases hlog.symm.trans hreturned
    obtain ⟨hcalled, hnone⟩ := hs c (.inr ⟨ticket, hbefore⟩) hexclusive
    refine ⟨hinFlight, ?_⟩
    rw [hnone, hcalled]
    rfl
  | starts c f _ _ _ hstarted =>
    -- a send that is given a number has not failed
    cases hlog.symm.trans hstarted
    cases houtcome
  | stays _ _ _ hkept => exact (hnew hkept).elim
  | calls _ _ _ _ _ hkept => exact (hnew hkept).elim
  | queues _ _ _ _ _ _ hkept => exact (hnew hkept).elim
  | turns _ hkept => exact (hnew hkept).elim

end Interplay

/-! ## On the clock -/

/-- A send that fails only lets time pass. -/
theorem Session.send_of_failed {ε : Type} {s : Session ε} {command : Text} {err : Error}
    (hfailed : (s.send command).1 = .error err) :
    (s.send command).2 = { s with timeline := (s.send command).2.timeline } := by
  have hinFlight : (s.send command).2.inFlight = s.inFlight := by
    unfold send at hfailed ⊢
    by_cases hpending : s.isPending = true
    · rw [if_pos hpending]
    · rw [if_neg hpending] at hfailed ⊢
      rcases htransmit : s.pace.timeline.transmit command with ⟨⟨ticket, err' | number⟩, timeline⟩
      · simp only [htransmit]
        exact s.pace_inFlight
      · simp only [htransmit] at hfailed
        cases hfailed
  refine (s.send_eq command).trans ?_
  rw [hinFlight]

/-! ## Failed sends -/

/-- **A send that fails leaves everything as it was.** Whatever state an engine is in, over whatever
link: if it is asked to write a command and does not, since reading has ended, since another command is
in the slot, or since the link does not take it, then the slot with the reply gathered so far, the
waiter, the framer, the event in progress, the counters and all the rest are as before. The failure is
posted, the link is what sending has made of it, and if the command was begun its number is not handed
out again.

And whenever a send of a run returns a failure, in whatever order both parties have taken their steps,
the command in flight is the one that was there when the call was made. So it is on the clock. -/
theorem failed_send_changes_nothing {τ ε : Type} [Transport τ] :
    (∀ (e : Engine τ ε) (now ticket : Nat) (command : Text) (err : Error),
      (e.attempt now command).1 = .error err →
      ∃ next link, e.Unwritten now command err next link
        ∧ e.serve now (.transmit ticket command) = { e with
            receiver := e.receiver.withNext next
            transport := link
            replies := if ticket ∈ e.abandoned then e.replies
              else (ticket, .transmitted (.error err)) :: e.replies })
    ∧ (∀ (config : Config) (table : EventTable ε) (link : τ) (acts : List (Interplay.Act τ ε))
        (act : Interplay.Act τ ε) (r : Returned) (command : Text) (err : Error),
      let s := Interplay.of config table link acts
      (s.step act).log = r :: s.log → r.call = .send command → r.outcome = .error err →
      (s.step act).inFlight = s.inFlight ∧ s.inFlight.isSome = r.pending)
    ∧ ∀ (s : Session ε) (command : Text) (err : Error), (s.send command).1 = .error err →
      (s.send command).2 = { s with timeline := (s.send command).2.timeline }
        ∧ (s.send command).2.isPending = s.isPending := by
  refine ⟨fun e now ticket command err hfailed => Engine.serve_of_failed hfailed ticket, ?_, ?_⟩
  · intro config table link acts act r command err s hlog hcall houtcome
    have hexclusive : r.call.exclusive = true := by
      rw [hcall]
      rfl
    exact (s.step_proceeds act).inFlight_of_failed (Interplay.of_unoccupied config table link acts)
      hlog hexclusive houtcome
  · intro s command err hfailed
    have hsession := Session.send_of_failed hfailed
    refine ⟨hsession, ?_⟩
    rw [hsession]
    rfl

/-- A second command, when the first one has half a reply. Over a link whose script expects another
command, a send of a run and a send of a session. -/
theorem failed_send_beside_half_a_reply :
    let script : List Exchange := [⟨Utf8.encode "AT+A\r\n", Utf8.encode "+A: 1\r\n+A"⟩]
    let half : Engine Link Unit :=
      ((Engine.start {} .empty { script := script }).serve 0 (.transmit 0 "AT+A\r\n")).run 0
    let acts : List (Interplay.Act Link Unit) :=
      [.call (.send "AT+B\r\n"), .enqueue, .serve 0, .answer, .take]
    (half.receiver.tracker.current.map (·.body.text) = some "1".toList
      ∧ half.receiver.framer.buffer = Utf8.encode "+A"
      ∧ (half.attempt 0 "AT+B\r\n").1 = .error .busy
      ∧ ∃ next, (half.serve 0 (.transmit 1 "AT+B\r\n")).receiver = half.receiver.withNext next
        ∧ (half.serve 0 (.transmit 1 "AT+B\r\n")).waiter = some ⟨1, 0⟩)
    ∧ (Interplay.of {} .empty { script := script } acts).inFlight = none
    ∧ ∃ s : Session Unit, Setup.openOver { script := script } { table := .empty } = .ok s
        ∧ (s.send "AT+B\r\n").2.isPending = false := by
  intro script half acts
  obtain ⟨hengine, hrun, hclock⟩ := @failed_send_changes_nothing Link Unit _
  refine ⟨?_, ?_, ?_⟩
  · have hbusy : (half.attempt 0 "AT+B\r\n").1 = .error .busy := by decide +kernel
    have hwaiter : half.waiter = some ⟨1, 0⟩ := by decide +kernel
    obtain ⟨next, link, -, hserve⟩ := hengine half 0 1 "AT+B\r\n" .busy hbusy
    refine ⟨by decide +kernel, by decide +kernel, hbusy, next, ?_, ?_⟩
    · simp only [hserve]
    · simp only [hserve]
      exact hwaiter
  · obtain ⟨hkept, -⟩ := hrun {} .empty { script := script }
      [.call (.send "AT+B\r\n"), .enqueue, .serve 0, .answer] .take
      ⟨.send "AT+B\r\n", false, false,
        .error (Link.unexpected (Utf8.encode "AT+A\r\n") (Utf8.encode "AT+B\r\n"))⟩
      "AT+B\r\n" _ (by decide +kernel) rfl rfl
    exact hkept.trans (by decide +kernel)
  · obtain ⟨s, hopen, hfailed, hfree⟩ : ∃ s : Session Unit,
        Setup.openOver { script := script } { table := .empty } = .ok s
          ∧ (s.send "AT+B\r\n").1
            = .error (Link.unexpected (Utf8.encode "AT+A\r\n") (Utf8.encode "AT+B\r\n"))
          ∧ s.isPending = false := ⟨_, rfl, by decide +kernel⟩
    exact ⟨s, hopen, (hclock s "AT+B\r\n" _ hfailed).2.trans hfree⟩

end ModemLink
