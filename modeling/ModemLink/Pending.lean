/-
The command in flight.

At most one command awaits its confirmation. The tracker holds it with the reply gathered so far,
numbers it, and gives it away as a resolution when the confirmation comes; so each request is
resolved at most once.
-/
import ModemLink.Command
import ModemLink.Error

set_option autoImplicit false

namespace ModemLink

/-! ## The reply -/

/-- A reply being gathered. -/
structure Body where
  text : Text := []
  /-- whether text was left out for lack of room -/
  truncated : Bool := false
deriving DecidableEq, Repr

/-- Adds what fits into the capacity, whole characters only. -/
def Body.push (capacity : Nat) (more : Text) (b : Body) : Body :=
  let room := capacity - b.text.byteLength
  if more.byteLength ≤ room then { b with text := b.text ++ more }
  else ⟨b.text ++ Text.fitting room more, true⟩

/-- The characters between the repeated name and the first line of a reply. -/
def Body.isSeparator (c : Char) : Bool := c == ':' || c == ' ' || c == '=' || c == ','

/-- The first line of a reply without the repeated name and the separators after it. -/
def Body.firstLine (name text : Text) : Text :=
  ((Text.afterFolded? name text).getD text).dropWhile isSeparator

/-! ## The request -/

/-- The command in flight. -/
structure Pending where
  number : Nat
  name : Text
  body : Body := {}
  /-- how many lines the reply has so far -/
  lines : Nat := 0
deriving DecidableEq, Repr

/-- Adds a line to the reply. Every line but the first follows a line break. -/
def Pending.append (capacity : Nat) (text : Text) (p : Pending) : Pending :=
  { p with
    lines := p.lines + 1
    body :=
      if p.lines = 0 then p.body.push capacity (Body.firstLine p.name text)
      else (p.body.push capacity ['\n']).push capacity text }

/-- A request and its end. -/
structure Resolution where
  number : Nat
  name : Text
  status : Status
  body : Text
  truncated : Bool
  failure : Option Failure
deriving DecidableEq, Repr

/-- The resolution of a request with a status. -/
def Pending.resolve (p : Pending) (status : Status) (failure : Option Failure) : Resolution :=
  ⟨p.number, p.name, status, p.body.text, p.body.truncated, failure⟩

/-! ## The tracker -/

/-- The slot for the command in flight. Requests are numbered from one. -/
structure Tracker where
  capacity : Nat
  current : Option Pending := none
  next : Nat := 1
deriving DecidableEq, Repr

namespace Tracker

/-- Whether a command is in flight. -/
def isPending (t : Tracker) : Bool := t.current.isSome

/-- The name of the command in flight, unless it has none. -/
def pendingName? (t : Tracker) : Option Text :=
  (t.current.map Pending.name).filter (· ≠ [])

/-- Starts a request. One that is still unresolved keeps the slot. -/
def begin (t : Tracker) (separators : List Char) (command : Text) : Except Error (Nat × Tracker) :=
  if t.isPending then .error .busy
  else
    .ok (t.next, { t with
      current := some ⟨t.next, Command.name separators command, {}, 0⟩
      next := t.next + 1 })

/-- Adds a line to the reply of the command in flight. -/
def append (t : Tracker) (text : Text) : Tracker :=
  { t with current := t.current.map (Pending.append t.capacity text) }

/-- Ends the command in flight with a terminal status and empties the slot. -/
def resolve? (t : Tracker) (status : Status) (failure : Option Failure) :
    Option (Resolution × Tracker) :=
  if status.isTerminal then
    t.current.map fun p => (p.resolve status failure, { t with current := none })
  else none

/-- Gives up the request with this number, if it is the one in flight, and says whether it was. -/
def cancel (t : Tracker) (number : Nat) : Bool × Tracker :=
  if (t.current.map Pending.number) = some number then (true, { t with current := none })
  else (false, t)

end Tracker

end ModemLink
