/-
Who receives the events.

While a callback is registered, a consumer takes the events from the queue and calls it. A new
callback replaces the one before: the consumers form a chain in which the first one holds the
queue, and a consumer that was cancelled passes the queue on instead of taking another event.
Without a callback the application asks for the next event itself, which it can do as soon as the
chain is empty.
-/
import ModemLink.Event.Table
import ModemLink.Queue

set_option autoImplicit false

namespace ModemLink

/-- A consumer that has not ended. -/
structure Consumer where
  callback : Nat
  cancelled : Bool := false
deriving DecidableEq, Repr

/-- A call of a callback. -/
structure Invocation (ε : Type) where
  callback : Nat
  notification : Notification ε
deriving DecidableEq, Repr

/-- What asking for the next event yields at a moment. -/
inductive Next (ε : Type) where
  /-- an event -/
  | event (n : Notification ε)
  /-- nothing, and nothing will come -/
  | absent
  /-- nothing yet -/
  | pending
deriving DecidableEq, Repr

/-- The consumers, and what they have done. -/
structure Subscribers (ε : Type) where
  /-- the consumers that have not ended; the first one holds the queue -/
  chain : List Consumer := []
  /-- whether a callback is registered -/
  registered : Bool := false
  /-- how many callbacks were registered so far -/
  callbacks : Nat := 0
  /-- the calls of callbacks so far -/
  invocations : List (Invocation ε) := []
deriving DecidableEq, Repr

namespace Subscribers

variable {ε : Type}

/-- Cancels every consumer. -/
def cancelAll (chain : List Consumer) : List Consumer :=
  chain.map fun c => { c with cancelled := true }

/-- Registers the next callback in place of the one before. -/
def register (s : Subscribers ε) : Subscribers ε :=
  { s with
    chain := cancelAll s.chain ++ [⟨s.callbacks + 1, false⟩]
    registered := true
    callbacks := s.callbacks + 1 }

/-- Removes the callback. -/
def clear (s : Subscribers ε) : Subscribers ε :=
  { s with chain := cancelAll s.chain, registered := false }

/-- **One step of the consumer that holds the queue.** A cancelled one ends; one that is not takes
an event, and ends when the queue is empty for good. -/
def step (ended : Bool) (q : Queue (Notification ε)) (s : Subscribers ε) :
    Queue (Notification ε) × Subscribers ε :=
  match s.chain with
  | [] => (q, s)
  | c :: rest =>
    if c.cancelled then (q, { s with chain := rest })
    else
      match q.take? with
      | some (n, q) => (q, { s with invocations := s.invocations ++ [⟨c.callback, n⟩] })
      | none => if ended then (q, { s with chain := rest }) else (q, s)

/-- Steps until no consumer can do anything. A step that does something shortens the chain or the
queue. -/
def run (ended : Bool) (q : Queue (Notification ε)) (s : Subscribers ε) :
    Queue (Notification ε) × Subscribers ε :=
  (s.chain.length + q.items.length).repeat (fun p => p.2.step ended p.1) (q, s)

/-- Asks for the next event. With a callback registered there is none to be had. -/
def next (ended : Bool) (q : Queue (Notification ε)) (s : Subscribers ε) :
    Next ε × Queue (Notification ε) :=
  if s.registered then (.absent, q)
  else if !s.chain.isEmpty then (.pending, q)
  else
    match q.take? with
    | some (n, q) => (.event n, q)
    | none => (if ended then .absent else .pending, q)

end Subscribers

end ModemLink
