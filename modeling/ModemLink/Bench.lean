/-
A scripted link by itself on a clock.

Nothing runs beside the caller here, so what is scheduled arrives only while the caller waits: in
a read that finds nothing, or in a sleep.
-/
import ModemLink.Link
import ModemLink.Schedule

set_option autoImplicit false

namespace ModemLink

/-- A scripted link, the clock, and what lies ahead. -/
structure Bench where
  now : Nat := 0
  ahead : Schedule := []
  link : Link := {}
deriving DecidableEq, Repr

namespace Bench

/-- Something happens to the link. -/
def onLink (f : Link → Link) (b : Bench) : Bench := { b with link := f b.link }

/-- Bytes are going to arrive after a delay. -/
def schedule (delay : Nat) (bytes : Bytes) (b : Bench) : Bench :=
  { b with ahead := b.ahead.add (b.now + delay) bytes }

/-- Sends a command. -/
def send (bytes : Bytes) (b : Bench) : Except Error Unit × Bench :=
  let (outcome, link) := b.link.send b.now bytes
  (outcome, { b with link := link })

/-- Lets time pass up to a deadline until a read yields something. -/
def awaitRead (room deadline : Nat) : Schedule → Bench → Except Error Bytes × Bench
  | [], b => (.error .timeout, { b with now := deadline })
  | m :: rest, b =>
    if m.time ≤ deadline then
      let b := { b with now := max b.now m.time, ahead := rest, link := b.link.inject m.bytes }
      match b.link.receive room with
      | (some outcome, link) => (outcome, { b with link := link })
      | (none, _) => awaitRead room deadline rest b
    else (.error .timeout, { b with now := deadline })

/-- Reads, and waits for something to read until the time is over. -/
def receive (room timeout : Nat) (b : Bench) : Except Error Bytes × Bench :=
  match b.link.receive room with
  | (some outcome, link) => (outcome, { b with link := link })
  | (none, _) => awaitRead room (b.now + timeout) b.ahead b

/-- Lets time pass. What is scheduled for the very end arrives with the next wait. -/
def sleep (time : Nat) (b : Bench) : Bench :=
  let target := b.now + time
  let before := b.ahead.takeWhile (·.time < target)
  { now := target
    ahead := b.ahead.dropWhile (·.time < target)
    link := b.link.inject (before.flatMap Moment.bytes) }

end Bench

end ModemLink
