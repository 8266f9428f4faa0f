/-
Scripts: what is done with a session, one step at a time.

A step is something the application does, or something that happens by itself. After each step
everything settles. A run is the list of answers to the steps.
-/
import ModemLink.Session.Open

set_option autoImplicit false

namespace ModemLink

/-- A step. -/
inductive Action where
  | send (command : Text)
  /-- begin to send, and give up at the first point where sending has to wait -/
  | sendAbandoned (command : Text)
  | wait (timeout : Nat) (expected : Status)
  | waitFor (latency : Latency) (expected : Status)
  | request (command : Text) (expected : Status)
  | configure (terminators : Terminators)
  | configureTiming (timing : Timing)
  /-- replace the times that are given -/
  | setTimeouts (short standard long : Option Nat)
  | register
  | clear
  | nextEvent (timeout : Nat)
  | stats
  | happen (h : Happening)
deriving DecidableEq, Repr

/-- The answer to a step. -/
inductive Answer (ε : Type) where
  | nothing
  | outcome (r : Except Error Unit)
  | body (r : Except Error Text)
  /-- a command was given up; the failure, if it failed before -/
  | abandoned (failure : Option Error)
  /-- the outcome, and the pacing in force afterwards -/
  | timing (r : Except Error Unit) (timing : Timing)
  | timeouts (t : Timeouts)
  /-- whether a callback is registered -/
  | callback (registered : Bool)
  | event (next : Next ε)
  | stats (r : Except Error Stats)

namespace Session

variable {ε : Type}

/-- Carries out a step, without settling. -/
def act (action : Action) (s : Session ε) : Answer ε × Session ε :=
  match action with
  | .send command =>
    let (r, s) := s.send command
    (.outcome r, s)
  | .sendAbandoned command =>
    let (r, s) := s.sendAbandoned command
    (.abandoned r, s)
  | .wait timeout expected =>
    let (r, s) := s.wait timeout expected
    (.body r, s)
  | .waitFor latency expected =>
    let (r, s) := s.waitFor latency expected
    (.body r, s)
  | .request command expected =>
    let (r, s) := s.request command expected
    (.body r, s)
  | .configure t =>
    let (r, s) := s.configure t
    (.outcome r, s)
  | .configureTiming timing =>
    let (r, s) := s.configureTiming timing
    (.timing r s.timing, s)
  | .setTimeouts short standard long =>
    let old := s.timeouts
    let s := s.setTimeouts
      ⟨short.getD old.short, standard.getD old.standard, long.getD old.long⟩
    (.timeouts s.timeouts, s)
  | .register =>
    let s := s.register
    (.callback s.timeline.subscribers.registered, s)
  | .clear =>
    let s := s.clear
    (.callback s.timeline.subscribers.registered, s)
  | .nextEvent timeout =>
    let (r, s) := s.nextEvent timeout
    (.event r, s)
  | .stats =>
    let (r, s) := s.stats
    (.stats r, s)
  | .happen h => (.nothing, s.onTimeline (·.happen h))

/-- **A step:** the action, and then everything settles. -/
def perform (action : Action) (s : Session ε) : Answer ε × Session ε :=
  let (answer, s) := s.act action
  (answer, s.onTimeline Timeline.settle)

/-- A script, step by step. -/
def run : List Action → Session ε → List (Answer ε) × Session ε
  | [], s => ([], s)
  | action :: more, s =>
    let (answer, s) := s.perform action
    let (answers, s) := run more s
    (answer :: answers, s)

end Session

end ModemLink
