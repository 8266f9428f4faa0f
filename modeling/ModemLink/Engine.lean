/-
The engine: the one party that owns the link.

Applications put requests into a queue; the engine serves them one at a time, writes commands to
the link, feeds what arrives through the receive path, and gives back a reply for each request and
a resolution for each command. Requests come before bytes.

Who asked is known by a ticket. A reply or a resolution that was posted stands under its ticket.
One that was not posted can still come only as long as somebody holds it: the request in the
queue, or the waiter. So whether a channel is closed need not be recorded; `Engine.slot` reads it
off.
-/
import ModemLink.Queue
import ModemLink.Receiver
import ModemLink.Transport

set_option autoImplicit false

namespace ModemLink

/-! ## Requests and replies -/

/-- What an application can ask of the engine. -/
inductive Request where
  /-- start a request and write the command -/
  | transmit (ticket : Nat) (command : Text)
  /-- give up the request with this number -/
  | cancel (number : Nat)
  | configure (ticket : Nat) (terminators : Terminators)
  | setPollStep (step : Nat)
  | stats (ticket : Nat)
  | shutdown (ticket : Nat)
deriving DecidableEq, Repr

/-- What the engine answers. -/
inductive Reply where
  /-- the number of the request, once the command is written -/
  | transmitted (outcome : Except Error Nat)
  | configured (outcome : Except Error Unit)
  | stats (stats : Stats)
  | stopped

/-- A resolution, and when the engine saw it. -/
structure Resolved where
  resolution : Resolution
  time : Nat
deriving DecidableEq, Repr

/-- Who waits for the request in flight. -/
structure Waiter where
  number : Nat
  ticket : Nat
deriving DecidableEq, Repr

/-- Where a resolution stands. -/
inductive Slot where
  | delivered (r : Resolved)
  | waiting
  | closed
deriving DecidableEq, Repr

/-- How many requests may be queued. -/
def requestDepth : Nat := 8

/-- The most that one read asks for. -/
def readSize : Nat := 256

/-- The engine, with everything that it shares with the application. -/
structure Engine (τ ε : Type) where
  receiver : Receiver ε
  transport : τ
  pollStep : Nat
  events : Queue (Notification ε)
  waiter : Option Waiter := none
  /-- false from the first failed read on -/
  connected : Bool := true
  /-- false once the engine has ended -/
  running : Bool := true
  requests : List Request := []
  /-- the tickets whose holders no longer wait for the reply -/
  abandoned : List Nat := []
  /-- the replies posted, newest first -/
  replies : List (Nat × Reply) := []
  /-- the resolutions posted and not collected, newest first -/
  resolutions : List (Nat × Resolved) := []
  nextTicket : Nat := 0

namespace Engine

variable {τ ε : Type}

/-- An engine that has just taken over a link. -/
def start (config : Config) (table : EventTable ε) (transport : τ) : Engine τ ε :=
  { receiver := .new config table
    transport := transport
    pollStep := config.timing.pollStep
    events := { depth := config.queueDepth } }

/-! ## The application's side -/

/-- Queues a request under a new ticket. An engine that has ended takes none. -/
def submit (request : Nat → Request) (e : Engine τ ε) : Nat × Engine τ ε :=
  (e.nextTicket, { e with
    nextTicket := e.nextTicket + 1
    requests := if e.running then e.requests ++ [request e.nextTicket] else e.requests })

/-- Queues the wish to give up a request, if there is room for it. -/
def submitCancel (number : Nat) (e : Engine τ ε) : Engine τ ε :=
  if e.running && e.requests.length < requestDepth then
    { e with requests := e.requests ++ [.cancel number] }
  else e

/-- The holder of a ticket stops waiting for the reply. -/
def abandon (ticket : Nat) (e : Engine τ ε) : Engine τ ε :=
  { e with abandoned := ticket :: e.abandoned }

/-- The reply posted under a ticket. -/
def reply? (ticket : Nat) (e : Engine τ ε) : Option Reply := e.replies.lookup ticket

/-- Whether a request in the queue is a command under this ticket. -/
def queued (ticket : Nat) (e : Engine τ ε) : Bool :=
  e.requests.any fun
    | .transmit t _ => t == ticket
    | _ => false

/-- **Where a resolution stands.** One that is not there can still come while a queued request or
the waiter holds its ticket. -/
def slot (ticket : Nat) (e : Engine τ ε) : Slot :=
  match e.resolutions.lookup ticket with
  | some r => .delivered r
  | none =>
    if e.queued ticket || e.waiter.any (·.ticket == ticket) then .waiting else .closed

/-- Looks at a resolution, and takes it away if it is there. -/
def collect (ticket : Nat) (e : Engine τ ε) : Slot × Engine τ ε :=
  (e.slot ticket, { e with resolutions := e.resolutions.filter (·.1 != ticket) })

/-! ## Serving requests -/

/-- Posts a reply. -/
def post (ticket : Nat) (reply : Reply) (e : Engine τ ε) : Engine τ ε :=
  { e with replies := (ticket, reply) :: e.replies }

/-- Ends the engine. Requests that were not served and the waiter are let go. -/
def stop (e : Engine τ ε) : Engine τ ε :=
  { e with running := false, requests := [], waiter := none }

/-- Gives up the request with this number. -/
def cancel (number : Nat) (e : Engine τ ε) : Engine τ ε :=
  { e with
    receiver := (e.receiver.cancel number).2
    waiter := e.waiter.filter (·.number != number) }

/-- Starts a request and writes its command. If writing fails, the request is given up. -/
def transmit [Transport τ] (now : Nat) (command : Text) (e : Engine τ ε) :
    Except Error Nat × Engine τ ε :=
  match e.receiver.begin command with
  | .error err => (.error err, e)
  | .ok (number, receiver) =>
    match Transport.send now (Utf8.encode command) e.transport with
    | (.ok _, link) => (.ok number, { e with receiver := receiver, transport := link })
    | (.error err, link) =>
      (.error err, { e with receiver := (receiver.cancel number).2, transport := link })

/-- Makes the holder of the ticket wait for the request that was started, and replies. If nobody
waits for the reply any more, the request is given up. -/
def answerTransmit (ticket : Nat) (outcome : Except Error Nat) (e : Engine τ ε) : Engine τ ε :=
  match outcome with
  | .ok number =>
    if ticket ∈ e.abandoned then
      { e with receiver := (e.receiver.cancel number).2, waiter := none }
    else { e with waiter := some ⟨number, ticket⟩ }.post ticket (.transmitted outcome)
  | .error _ =>
    if ticket ∈ e.abandoned then e else e.post ticket (.transmitted outcome)

/-- Switches terminators. -/
def configure (t : Terminators) (e : Engine τ ε) : Except Error Unit × Engine τ ε :=
  match e.receiver.setTerminators t with
  | .error err => (.error err, e)
  | .ok receiver => (.ok (), { e with receiver := receiver })

/-- **Serves a request.** After a failed read no command is written any more. -/
def serve [Transport τ] (now : Nat) (request : Request) (e : Engine τ ε) : Engine τ ε :=
  match request with
  | .transmit ticket command =>
    let (outcome, e) :=
      if e.connected then e.transmit now command else (.error .connectionLost, e)
    e.answerTransmit ticket outcome
  | .cancel number => e.cancel number
  | .configure ticket t =>
    let (outcome, e) := e.configure t
    e.post ticket (.configured outcome)
  | .setPollStep step => { e with pollStep := step }
  | .stats ticket => e.post ticket (.stats e.receiver.stats)
  | .shutdown ticket => (e.post ticket .stopped).stop

/-- Serves the oldest request. -/
def serveNext [Transport τ] (now : Nat) (e : Engine τ ε) : Engine τ ε :=
  match e.requests with
  | [] => e
  | r :: rest => { e with requests := rest }.serve now r

/-! ## Reading -/

/-- Passes on what the receive path produces: a resolution to whoever waits for it, an event to
the queue. -/
def deliver (now : Nat) (output : Output ε) (e : Engine τ ε) : Engine τ ε :=
  match output with
  | .resolved r =>
    match e.waiter with
    | some w =>
      if w.number = r.number then
        { e with waiter := none, resolutions := (w.ticket, ⟨r, now⟩) :: e.resolutions }
      else e
    | none => e
  | .event n =>
    match e.events.offer n with
    | (.full, _) => { e with receiver := e.receiver.noteEventLost }
    | (_, q) => { e with events := q }

/-- Takes the outcome of a read. A timeout is nothing; any other failure ends reading for good
and lets the waiter go. -/
def received (now : Nat) (outcome : Except Error Bytes) (e : Engine τ ε) : Engine τ ε :=
  match outcome with
  | .ok bytes =>
    let (receiver, outputs) := e.receiver.feed bytes
    outputs.foldl (fun e o => e.deliver now o) { e with receiver := receiver }
  | .error .timeout => e
  | .error _ => { e with connected := false, waiter := none }

/-- Reads until nothing is there, at most this many times. -/
def drain [Transport τ] (now : Nat) : Nat → Engine τ ε → Engine τ ε
  | 0, e => e
  | n + 1, e =>
    if e.running && e.connected then
      match Transport.receive readSize e.transport with
      | (none, link) => { e with transport := link }
      | (some outcome, link) => ({ e with transport := link }.received now outcome).drain now n
    else e

/-- **Runs until there is nothing left to do:** first the requests in their order, then the bytes.
Each read takes at least one byte or ends reading, so one read more than there are bytes is
enough. -/
def run [Transport τ] (now : Nat) (e : Engine τ ε) : Engine τ ε :=
  let e := e.requests.length.repeat (serveNext now) e
  e.drain now (Transport.waiting e.transport + 1)

end Engine

end ModemLink
