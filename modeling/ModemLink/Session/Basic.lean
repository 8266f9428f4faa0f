/-
A session: one command at a time, a wait for its confirmation, and the events in between.

The application sends a command and then waits for it. Between the two it may do anything else but
send. A command is held back until the least interval since the last confirmation has passed. A
wait looks again once per poll step, and gives up when its time is over; the engine is then told to
forget the request.
-/
import ModemLink.Timeline

set_option autoImplicit false

namespace ModemLink

/-- A command that was sent and not waited for yet. -/
structure InFlight where
  number : Nat
  ticket : Nat
deriving DecidableEq, Repr

/-- A session on its timeline. -/
structure Session (ε : Type) where
  timeline : Timeline ε
  inFlight : Option InFlight := none
  /-- when the engine saw the confirmation that a wait returned last -/
  lastResolved : Option Nat := none
  timing : Timing
  timeouts : Timeouts

namespace Session

variable {ε : Type}

/-- The time. -/
def now (s : Session ε) : Nat := s.timeline.now

/-- Whether a command was sent and not waited for yet. -/
def isPending (s : Session ε) : Bool := s.inFlight.isSome

/-- The session with its timeline changed. -/
def onTimeline (f : Timeline ε → Timeline ε) (s : Session ε) : Session ε :=
  { s with timeline := f s.timeline }

/-! ## Sending -/

/-- The earliest time at which the next command may go out. -/
def ready (s : Session ε) : Nat :=
  match s.lastResolved with
  | none => s.now
  | some time => max s.now (time + s.timing.minInterval)

/-- Lets time pass until the next command may go out. -/
def pace (s : Session ε) : Session ε :=
  if s.now < s.ready then s.onTimeline (·.sleepUntil s.ready) else s

/-- **Sends a command,** as soon as pacing lets it go out. Refused while a command was not waited
for. -/
def send (command : Text) (s : Session ε) : Except Error Unit × Session ε :=
  if s.isPending then (.error .busy, s)
  else
    let s := s.pace
    let ((ticket, outcome), timeline) := s.timeline.transmit command
    match outcome with
    | .ok number => (.ok (), { s with timeline := timeline, inFlight := some ⟨number, ticket⟩ })
    | .error err => (.error err, { s with timeline := timeline })

/-- Begins to send a command and gives up at the first point where sending has to wait. A command
that pacing holds back never goes out; any other one is queued, and nobody waits for the reply.
Yields the failure if sending failed before that point. -/
def sendAbandoned (command : Text) (s : Session ε) : Option Error × Session ε :=
  if s.isPending then (some .busy, s)
  else if s.now < s.ready then (none, s)
  else if s.timeline.engine.running then (none, s.onTimeline (·.transmitAbandoned command))
  else (some .notConnected, s)

/-! ## Waiting -/

/-- Compares a confirmation with the expected one. Its time counts for pacing either way. -/
def finish (expected : Status) (r : Resolved) (s : Session ε) : Except Error Text × Session ε :=
  let s := { s with lastResolved := some r.time }
  if r.resolution.status = expected then (.ok r.resolution.body, s)
  else (.error (.mismatch expected r.resolution.status r.resolution.failure), s)

/-- Gives up a wait. -/
def giveUp (f : InFlight) (s : Session ε) : Except Error Text × Session ε :=
  (.error .timeout, s.onTimeline (·.cancelRequest f.number))

/-- Lets time pass up to a target, or until the resolution stands or cannot come any more. -/
def advanceToSlot (f : InFlight) (target : Nat) (s : Session ε) : Session ε :=
  s.onTimeline (·.advance target fun t => t.engine.slot f.ticket != .waiting)

/-- **Waiting in rounds.** A round ends the wait if its time is over, and otherwise lasts for a
poll step or until the deadline, whichever is shorter, unless the resolution comes first. -/
def waitRounds (f : InFlight) (expected : Status) (deadline : Nat) :
    Nat → Session ε → Except Error Text × Session ε
  | rounds, s =>
    if deadline ≤ s.now then s.giveUp f
    else
      let s := s.advanceToSlot f (s.now + min s.timing.pollStep (deadline - s.now))
      let (slot, timeline) := s.timeline.collect f.ticket
      match slot with
      | .delivered r => { s with timeline := timeline }.finish expected r
      | .closed => (.error .notConnected, s)
      | .waiting =>
        match rounds with
        | 0 => s.giveUp f
        | rounds + 1 => waitRounds f expected deadline rounds s

/-- **Waits for the confirmation of the command in flight.** A poll step lasts a millisecond at
least, so there are no more rounds than there are milliseconds. -/
def wait (timeout : Nat) (expected : Status) (s : Session ε) : Except Error Text × Session ε :=
  if !expected.isTerminal then
    (.error (.invalidParameter
      ("cannot wait for ".toList ++ expected.text ++ " status".toList)), s)
  else
    match s.inFlight with
    | none => (.error .notPending, s)
    | some f => { s with inFlight := none }.waitRounds f expected (s.now + timeout) timeout

/-- Waits as long as a kind of latency allows. -/
def waitFor (latency : Latency) (expected : Status) (s : Session ε) :
    Except Error Text × Session ε :=
  s.wait (s.timeouts.allowed latency) expected

/-- Sends a command and waits for it for the standard time. -/
def request (command : Text) (expected : Status) (s : Session ε) :
    Except Error Text × Session ε :=
  match s.send command with
  | (.error err, s) => (.error err, s)
  | (.ok _, s) => s.waitFor .standard expected

/-! ## Settings -/

/-- Switches terminators. -/
def configure (t : Terminators) (s : Session ε) : Except Error Unit × Session ε :=
  if s.isPending then (.error .busy, s)
  else
    let (outcome, timeline) := s.timeline.configure t
    (outcome, { s with timeline := timeline })

/-- Changes pacing. -/
def configureTiming (timing : Timing) (s : Session ε) : Except Error Unit × Session ε :=
  if s.isPending then (.error .busy, s)
  else if timing.pollStep = 0 then
    (.error (.invalidParameter ConfigFault.pollStepZero.message), s)
  else
    match s.timeline.setPollStep timing.pollStep with
    | (.ok _, timeline) => (.ok (), { s with timeline := timeline, timing := timing })
    | (.error err, timeline) => (.error err, { s with timeline := timeline })

/-- Replaces the times allowed. -/
def setTimeouts (timeouts : Timeouts) (s : Session ε) : Session ε :=
  { s with timeouts := timeouts }

/-! ## Events -/

/-- Registers a callback in place of the one before. -/
def register (s : Session ε) : Session ε :=
  s.onTimeline fun t => { t with subscribers := t.subscribers.register }

/-- Removes the callback. -/
def clear (s : Session ε) : Session ε :=
  s.onTimeline fun t => { t with subscribers := t.subscribers.clear }

/-- Waits for the next event. -/
def nextEvent (timeout : Nat) (s : Session ε) : Next ε × Session ε :=
  let (next, timeline) := s.timeline.awaitEvent (s.now + timeout)
  (next, { s with timeline := timeline })

/-! ## The rest -/

/-- Asks for the counters. -/
def stats (s : Session ε) : Except Error Stats × Session ε :=
  let (outcome, timeline) := s.timeline.stats
  (outcome, { s with timeline := timeline })

/-- Ends the session. Yields whether the link is up. -/
def shutdown (s : Session ε) : Except Error Bool × Timeline ε := s.timeline.shutdown

end Session

end ModemLink
