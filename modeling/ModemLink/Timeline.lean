/-
An engine on a clock of its own.

The clock stands still while anything can be done at all, and then goes straight to the next
moment at which something happens: bytes arrive, or somebody's waiting ends. So every run is
determined by what was asked and what was scheduled, and times are whole milliseconds.
-/
import ModemLink.Engine
import ModemLink.Link
import ModemLink.Schedule
import ModemLink.Subscribers

set_option autoImplicit false

namespace ModemLink

/-- What happens without anybody asking the engine for anything. -/
inductive Happening where
  /-- bytes arrive now -/
  | inject (bytes : Bytes)
  /-- bytes arrive after a delay -/
  | injectAfter (delay : Nat) (bytes : Bytes)
  /-- the module learns an answer -/
  | expect (request response : Bytes)
  /-- the link goes up or down -/
  | setConnected (up : Bool)
  /-- time passes -/
  | sleep (time : Nat)
deriving DecidableEq, Repr

/-- An engine over a scripted link, the clock, and what lies ahead. -/
structure Timeline (ε : Type) where
  now : Nat := 0
  ahead : Schedule := []
  engine : Engine Link ε
  subscribers : Subscribers ε := {}

namespace Timeline

variable {ε : Type}

/-! ## The link -/

/-- Something happens to the link. -/
def onLink (f : Link → Link) (t : Timeline ε) : Timeline ε :=
  { t with engine := { t.engine with transport := f t.engine.transport } }

/-- Bytes are going to arrive after a delay. -/
def schedule (delay : Nat) (bytes : Bytes) (t : Timeline ε) : Timeline ε :=
  { t with ahead := t.ahead.add (t.now + delay) bytes }

/-! ## Settling -/

/-- Lets the consumers run. -/
def runConsumers (t : Timeline ε) : Timeline ε :=
  let (q, s) := t.subscribers.run (!t.engine.running) t.engine.events
  { t with engine := { t.engine with events := q }, subscribers := s }

/-- **Settles.** What is due arrives, then the engine runs, then the consumers do. Consumers give
the engine nothing to do, so one round is enough. -/
def settle (t : Timeline ε) : Timeline ε :=
  let t := { t with ahead := t.ahead.later t.now }.onLink (Link.inject (t.ahead.due t.now))
  { t with engine := t.engine.run t.now }.runConsumers

/-- The timeline of an engine that has just taken over a link. -/
def start (config : Config) (table : EventTable ε) (link : Link) : Timeline ε :=
  ({ engine := .start config table link } : Timeline ε).settle

/-! ## Time -/

/-- Goes through the moments up to a time and settles at each. Stops early where `done` holds
after settling. -/
def pass (target : Nat) (done : Timeline ε → Bool) : Schedule → Timeline ε → Timeline ε
  | [], t => { t with now := target }
  | m :: rest, t =>
    if m.time ≤ target then
      let t := { t with now := m.time }.settle
      if done t then t else pass target done rest t
    else { t with now := target }

/-- Lets time pass up to a target, or until something holds if that comes first. -/
def advance (target : Nat) (done : Timeline ε → Bool) (t : Timeline ε) : Timeline ε :=
  if done t then t else pass target done t.ahead t

/-- Lets time pass up to a target. -/
def sleepUntil (target : Nat) (t : Timeline ε) : Timeline ε := t.advance target fun _ => false

/-- Lets something happen. -/
def happen (h : Happening) (t : Timeline ε) : Timeline ε :=
  match h with
  | .inject bytes => t.onLink (Link.inject bytes)
  | .injectAfter delay bytes => t.schedule delay bytes
  | .expect request response => t.onLink (Link.expect request response)
  | .setConnected up => t.onLink (Link.setConnected up)
  | .sleep time => t.sleepUntil (t.now + time)

/-! ## Asking the engine -/

/-- Queues a request and lets it be served. -/
def call (request : Nat → Request) (t : Timeline ε) : Nat × Timeline ε :=
  let (ticket, engine) := t.engine.submit request
  (ticket, { t with engine := engine }.settle)

/-- Sends a command. Yields the ticket under which its resolution is going to stand, and the
number of the request. -/
def transmit (command : Text) (t : Timeline ε) : (Nat × Except Error Nat) × Timeline ε :=
  let (ticket, t) := t.call (.transmit · command)
  match t.engine.reply? ticket with
  | some (.transmitted outcome) => ((ticket, outcome), t)
  | _ => ((ticket, .error .notConnected), t)

/-- Queues a command and stops waiting for it at once. -/
def transmitAbandoned (command : Text) (t : Timeline ε) : Timeline ε :=
  let (ticket, engine) := t.engine.submit (.transmit · command)
  { t with engine := engine.abandon ticket }

/-- Looks at a resolution without waiting, and takes it away if it is there. -/
def collect (ticket : Nat) (t : Timeline ε) : Slot × Timeline ε :=
  let (slot, engine) := t.engine.collect ticket
  (slot, { t with engine := engine })

/-- Asks for a request to be given up. -/
def cancelRequest (number : Nat) (t : Timeline ε) : Timeline ε :=
  { t with engine := t.engine.submitCancel number }

/-- Switches terminators. -/
def configure (terminators : Terminators) (t : Timeline ε) : Except Error Unit × Timeline ε :=
  let (ticket, t) := t.call (.configure · terminators)
  match t.engine.reply? ticket with
  | some (.configured outcome) => (outcome, t)
  | _ => (.error .notConnected, t)

/-- Changes how long one read lasts. -/
def setPollStep (step : Nat) (t : Timeline ε) : Except Error Unit × Timeline ε :=
  if t.engine.running then (.ok (), (t.call fun _ => .setPollStep step).2)
  else (.error .notConnected, t)

/-- Asks for the counters. -/
def stats (t : Timeline ε) : Except Error Stats × Timeline ε :=
  let (ticket, t) := t.call .stats
  match t.engine.reply? ticket with
  | some (.stats s) => (.ok s, t)
  | _ => (.error .notConnected, t)

/-- Ends the engine and gets the link back. Yields whether the link is up. -/
def shutdown (t : Timeline ε) : Except Error Bool × Timeline ε :=
  let (ticket, t) := t.call .shutdown
  match t.engine.reply? ticket with
  | some .stopped => (.ok t.engine.transport.connected, t)
  | _ => (.error .notConnected, t)

/-- Ends the engine at once. -/
def stop (t : Timeline ε) : Timeline ε := { t with engine := t.engine.stop }

/-! ## Events -/

/-- Asks for the next event at this moment. -/
def nextEvent (t : Timeline ε) : Next ε × Timeline ε :=
  let (next, q) := t.subscribers.next (!t.engine.running || !t.engine.events.isOpen) t.engine.events
  (next, { t with engine := { t.engine with events := q } })

/-- Whether asking for the next event yields something. -/
def eventReady (t : Timeline ε) : Bool :=
  match t.nextEvent.1 with
  | .pending => false
  | _ => true

/-- Waits for the next event until a time. -/
def awaitEvent (deadline : Nat) (t : Timeline ε) : Next ε × Timeline ε :=
  (t.advance deadline eventReady).nextEvent

/-- The application stops listening for events. -/
def closeEvents (t : Timeline ε) : Timeline ε :=
  { t with engine := { t.engine with events := t.engine.events.close } }

end Timeline

end ModemLink
