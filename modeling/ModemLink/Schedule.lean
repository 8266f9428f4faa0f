/-
What a module is going to say, and when.

A schedule lists moments in the order of time, each with the bytes that arrive then. Bytes that
are scheduled for the same moment arrive together.
-/
import ModemLink.Text.Basic

set_option autoImplicit false

namespace ModemLink

/-- Bytes that arrive at a time. -/
structure Moment where
  time : Nat
  bytes : Bytes
deriving DecidableEq, Repr

/-- The moments that lie ahead, earliest first. -/
abbrev Schedule := List Moment

namespace Schedule

/-- Adds bytes that arrive at a time, after those already scheduled for it. -/
def add (time : Nat) (bytes : Bytes) : Schedule → Schedule
  | [] => [⟨time, bytes⟩]
  | m :: rest =>
    if time < m.time then ⟨time, bytes⟩ :: m :: rest
    else if time = m.time then ⟨time, m.bytes ++ bytes⟩ :: rest
    else m :: add time bytes rest

/-- The bytes that arrive up to and including a time. -/
def due (time : Nat) (s : Schedule) : Bytes :=
  (s.takeWhile (·.time ≤ time)).flatMap Moment.bytes

/-- The moments after a time. -/
def later (time : Nat) (s : Schedule) : Schedule := s.dropWhile (·.time ≤ time)

end Schedule

end ModemLink
