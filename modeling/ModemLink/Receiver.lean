/-
The receive path of a session, from bytes to what they mean.

Bytes are framed into lines, and each line is dealt with in order: a continued event in progress
takes it in verbatim; a blank line is skipped; a confirmation ends the command in flight; a reply
line is added to its reply; an event or a plain line is looked up in the table. Nothing is lost
silently: whatever happens to a line is counted.
-/
import ModemLink.Event.Table
import ModemLink.Framer
import ModemLink.Line
import ModemLink.Pending
import ModemLink.Text.Utf8

set_option autoImplicit false

namespace ModemLink

/-! ## State -/

/-- The counters of the receive path. -/
structure Stats where
  /-- complete lines, blank ones included -/
  lines : Nat := 0
  /-- confirmations that ended a command -/
  confirmations : Nat := 0
  /-- confirmations that found no command in flight -/
  strayConfirmations : Nat := 0
  /-- lines added to a reply -/
  bodyLines : Nat := 0
  /-- events announced -/
  events : Nat := 0
  /-- lines with a sentinel that the table does not know -/
  unknownEvents : Nat := 0
  /-- lines discarded for their length -/
  overflows : Nat := 0
  /-- plain lines that the table does not know -/
  droppedLines : Nat := 0
  /-- events that found the queue full -/
  eventsLost : Nat := 0
deriving DecidableEq, Repr

/-- An event that still takes in lines. -/
structure Capture (ε : Type) where
  event : ε
  args : Text
  remaining : Nat
deriving DecidableEq, Repr

/-- What a line can produce. -/
inductive Output (ε : Type) where
  | event (n : Notification ε)
  | resolved (r : Resolution)
deriving DecidableEq, Repr

/-- The receive path of one session. -/
structure Receiver (ε : Type) where
  framer : Framer
  vocabulary : Vocabulary
  table : EventTable ε
  tracker : Tracker
  capture : Option (Capture ε) := none
  stats : Stats := {}
deriving DecidableEq, Repr

namespace Receiver

variable {ε : Type}

/-- A receive path that has seen nothing. -/
def new (config : Config) (table : EventTable ε) : Receiver ε :=
  { framer := .new config.framing
    vocabulary := config.vocabulary
    table := table
    tracker := { capacity := config.vocabulary.replyCapacity } }

/-- Applies a change to the counters. -/
def count (f : Stats → Stats) (r : Receiver ε) : Receiver ε := { r with stats := f r.stats }

/-! ## Requests -/

/-- Whether a command is in flight. -/
def isPending (r : Receiver ε) : Bool := r.tracker.isPending

/-- Starts a request, unless another one is in flight. -/
def begin (command : Text) (r : Receiver ε) : Except Error (Nat × Receiver ε) :=
  (r.tracker.begin r.vocabulary.separators command).map fun (n, t) => (n, { r with tracker := t })

/-- Gives up a request, and says whether it was in flight. -/
def cancel (number : Nat) (r : Receiver ε) : Bool × Receiver ε :=
  let (found, t) := r.tracker.cancel number
  (found, { r with tracker := t })

/-- Switches terminators, unless a command is in flight. Whatever was begun is forgotten. -/
def setTerminators (t : Terminators) (r : Receiver ε) : Except Error (Receiver ε) :=
  if r.isPending then .error .busy
  else .ok { r with framer := r.framer.setTerminators t, capture := none }

/-- Counts an event that found the queue full. -/
def noteEventLost (r : Receiver ε) : Receiver ε :=
  r.count fun s => { s with eventsLost := s.eventsLost + 1 }

/-! ## One line -/

/-- Announces an event. -/
def announce (n : Notification ε) (r : Receiver ε) : Receiver ε × Option (Output ε) :=
  (r.count fun s => { s with events := s.events + 1 }, some (.event n))

/-- Deals with a line that was looked up: an event with trailing lines waits for them. -/
def matched (m : EventMatch ε) (r : Receiver ε) : Receiver ε × Option (Output ε) :=
  if m.trailing = 0 then r.announce ⟨m.event, m.args⟩
  else ({ r with capture := some ⟨m.event, m.args, m.trailing⟩ }, none)

/-- Adds a line to a continued event, which is announced with its last line. -/
def continueCapture (c : Capture ε) (line : Text) (r : Receiver ε) :
    Receiver ε × Option (Output ε) :=
  let args := c.args ++ r.vocabulary.continuation :: line
  if c.remaining - 1 = 0 then { r with capture := none }.announce ⟨c.event, args⟩
  else ({ r with capture := some ⟨c.event, args, c.remaining - 1⟩ }, none)

/-- Deals with a line by what it is. -/
def dispatch (line : Line) (r : Receiver ε) : Receiver ε × Option (Output ε) :=
  match line with
  | .confirmation status failure =>
    match r.tracker.resolve? status failure with
    | some (resolution, t) =>
      ({ r with tracker := t }.count fun s => { s with confirmations := s.confirmations + 1 },
        some (.resolved resolution))
    | none =>
      (r.count fun s => { s with strayConfirmations := s.strayConfirmations + 1 }, none)
  | .body text =>
    ({ r with tracker := r.tracker.append text }.count
      fun s => { s with bodyLines := s.bodyLines + 1 }, none)
  | .event text =>
    match r.table.resolve text with
    | .ok m => r.matched m
    | .error _ => (r.count fun s => { s with unknownEvents := s.unknownEvents + 1 }, none)
  | .plain text =>
    match r.table.resolveBare text with
    | .ok m => r.matched m
    | .error _ => (r.count fun s => { s with droppedLines := s.droppedLines + 1 }, none)

/-- Deals with the text of a line. -/
def handleText (line : Text) (r : Receiver ε) : Receiver ε × Option (Output ε) :=
  match r.capture with
  | some c => r.continueCapture c line
  | none =>
    if Text.trim line = [] then (r, none)
    else r.dispatch (r.vocabulary.classify line r.tracker.pendingName?)

/-- **One line,** as the framer hands it out. -/
def handleLine (raw : Bytes) (r : Receiver ε) : Receiver ε × Option (Output ε) :=
  (r.count fun s => { s with lines := s.lines + 1 }).handleText (Utf8.decode raw)

/-! ## Bytes -/

/-- Deals with what the framer hands out. -/
def handle (item : Framed) (r : Receiver ε) : Receiver ε × Option (Output ε) :=
  match item with
  | .line raw => r.handleLine raw
  | .overlong _ => (r.count fun s => { s with overflows := s.overflows + 1 }, none)

/-- **One byte.** -/
def push (r : Receiver ε) (b : UInt8) : Receiver ε × Option (Output ε) :=
  let (framer, item) := r.framer.push b
  let r := { r with framer := framer }
  match item with
  | none => (r, none)
  | some item => r.handle item

/-- Takes bytes one after the other and collects what they produce. -/
def feed : Receiver ε → Bytes → Receiver ε × List (Output ε)
  | r, [] => (r, [])
  | r, b :: bs =>
    let (r', out) := r.push b
    let (r'', outs) := r'.feed bs
    (r'', out.toList ++ outs)

@[simp] theorem feed_nil (r : Receiver ε) : r.feed [] = (r, []) := rfl

/-- **Chunks do not matter.** Feeding two pieces one after the other is feeding them at once. -/
theorem feed_append (r : Receiver ε) (a b : Bytes) :
    r.feed (a ++ b) = (((r.feed a).1.feed b).1, (r.feed a).2 ++ ((r.feed a).1.feed b).2) := by
  induction a generalizing r with
  | nil => simp
  | cons x xs ih => simp [feed, ih, List.append_assoc]

end Receiver

end ModemLink
