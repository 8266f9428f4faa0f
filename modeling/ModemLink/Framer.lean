/-
From bytes to lines.

A framer takes one byte at a time. It collects a line until the terminator completes it, and hands
it out without the terminator. A line that grows past the limit is reported once and thrown away
up to its terminator.

With a pair of terminators the first byte is held back until the next one shows whether it ended
the line. With a prompt byte, a line that starts with it is that byte alone.
-/
import ModemLink.Config

set_option autoImplicit false

namespace ModemLink

/-- What a framer hands out. -/
inductive Framed where
  /-- a complete line, without its terminator -/
  | line (bytes : Bytes)
  /-- a line grew past this many bytes and is being discarded -/
  | overlong (limit : Nat)
deriving DecidableEq, Repr

/-- A line being collected. -/
structure Framer where
  terminators : Terminators
  limit : Nat
  prompt : Option UInt8
  /-- the bytes of the line so far -/
  buffer : Bytes := []
  /-- whether the first byte of a terminator pair is held back -/
  held : Bool := false
  /-- whether the rest of the line is thrown away -/
  discarding : Bool := false
deriving DecidableEq, Repr

namespace Framer

/-- A framer at the start of a line. -/
def new (framing : Framing) : Framer :=
  { terminators := framing.terminators, limit := framing.lineLimit, prompt := framing.prompt }

/-- Forgets a line that has been begun. -/
def reset (f : Framer) : Framer := { f with buffer := [], held := false, discarding := false }

/-- Switches terminators, and forgets a line that has been begun. -/
def setTerminators (t : Terminators) (f : Framer) : Framer := { f with terminators := t }.reset

/-! ## One byte -/

/-- Adds a byte to the line, unless the line is full or being discarded. -/
def store (f : Framer) (b : UInt8) : Framer × Option Framed :=
  if f.discarding then (f, none)
  else if f.limit ≤ f.buffer.length then
    ({ f with buffer := [], discarding := true }, some (.overlong f.limit))
  else ({ f with buffer := f.buffer ++ [b] }, none)

/-- Takes a byte that is no terminator. A prompt byte is a line of its own at the start of a
line. -/
def accept (f : Framer) (b : UInt8) : Framer × Option Framed :=
  if !f.discarding && f.buffer.isEmpty && f.prompt == some b then (f, some (.line [b]))
  else f.store b

/-- Ends the line. A discarded line ends silently. -/
def finish (f : Framer) : Framer × Option Framed :=
  if f.discarding then ({ f with buffer := [], discarding := false }, none)
  else ({ f with buffer := [] }, some (.line f.buffer))

/-- Takes a byte when nothing is held back and a pair of terminators is in force. -/
def acceptOrHold (f : Framer) (first b : UInt8) : Framer × Option Framed :=
  if b = first then ({ f with held := true }, none) else f.accept b

/-- **One byte.** A held byte that no second one follows was data after all. When it is the byte
that makes the line too long, the line is reported and the byte at hand goes with it. -/
def push (f : Framer) (b : UInt8) : Framer × Option Framed :=
  match f.terminators with
  | .single last => if b = last then f.finish else f.accept b
  | .pair first second =>
    if f.held then
      let f := { f with held := false }
      if b = second then f.finish
      else
        match f.store first with
        | (f, some report) => (f, some report)
        | (f, none) => f.acceptOrHold first b
    else f.acceptOrHold first b

/-! ## Many bytes -/

/-- Takes bytes one after the other and collects what is handed out. -/
def feed : Framer → Bytes → Framer × List Framed
  | f, [] => (f, [])
  | f, b :: bs =>
    let (f', out) := f.push b
    let (f'', outs) := f'.feed bs
    (f'', out.toList ++ outs)

@[simp] theorem feed_nil (f : Framer) : f.feed [] = (f, []) := rfl

/-- **Chunks do not matter.** Feeding two pieces one after the other is feeding them at once. -/
theorem feed_append (f : Framer) (a b : Bytes) :
    f.feed (a ++ b) = (((f.feed a).1.feed b).1, (f.feed a).2 ++ ((f.feed a).1.feed b).2) := by
  induction a generalizing f with
  | nil => simp
  | cons x xs ih => simp [feed, ih, List.append_assoc]

end Framer

end ModemLink
