/-
A scripted link: a module that answers each command as it was told to.

The script is a list of pairs. Each command that is sent uses up the oldest pair: if it is the
pair's request, the response is queued for reading, and if it is anything else, sending fails.
Without a pair left a command is taken in silence. The module may also speak unprompted.
-/
import ModemLink.Text.Quoted
import ModemLink.Text.Utf8
import ModemLink.Transport

set_option autoImplicit false

namespace ModemLink

/-- A command and what the module answers. -/
structure Exchange where
  request : Bytes
  response : Bytes
deriving DecidableEq, Repr

/-- A command that was sent, and when. -/
structure Sent where
  bytes : Bytes
  time : Nat
deriving DecidableEq, Repr

/-- A scripted link. -/
structure Link where
  script : List Exchange := []
  /-- the bytes that have arrived and were not read yet -/
  inbound : Bytes := []
  /-- the most that one read yields -/
  chunk : Option Nat := none
  connected : Bool := true
  /-- every command sent so far -/
  sent : List Sent := []
deriving DecidableEq, Repr

namespace Link

/-! ## The module's side -/

/-- Adds a pair to the script. -/
def expect (request response : Bytes) (l : Link) : Link :=
  { l with script := l.script ++ [⟨request, response⟩] }

/-- Bytes arrive unprompted. -/
def inject (bytes : Bytes) (l : Link) : Link := { l with inbound := l.inbound ++ bytes }

/-- The link goes up or down. -/
def setConnected (up : Bool) (l : Link) : Link := { l with connected := up }

/-- Limits what one read yields, to one byte at least. -/
def setChunk (n : Nat) (l : Link) : Link := { l with chunk := some (max n 1) }

/-! ## The application's side -/

/-- The failure to send what the script does not expect. -/
def unexpected (expected actual : Bytes) : Error :=
  .protocol ("unexpected send data: expected ".toList ++ Text.quoted (Utf8.decode expected)
    ++ ", got ".toList ++ Text.quoted (Utf8.decode actual))

/-- Sends a command. -/
def send (now : Nat) (bytes : Bytes) (l : Link) : Except Error Unit × Link :=
  if !l.connected then (.error .notConnected, l)
  else
    let l := { l with sent := l.sent ++ [(⟨bytes, now⟩ : Sent)] }
    match l.script with
    | [] => (.ok (), l)
    | e :: script =>
      if bytes = e.request then
        (.ok (), { l with script := script, inbound := l.inbound ++ e.response })
      else (.error (unexpected e.request bytes), { l with script := script })

/-- How many bytes one read with room for `room` yields. -/
def readable (room : Nat) (l : Link) : Nat :=
  min (min l.inbound.length room) (l.chunk.getD l.inbound.length)

/-- Reads what has arrived. -/
def receive (room : Nat) (l : Link) : Option (Except Error Bytes) × Link :=
  if !l.connected then (some (.error .notConnected), l)
  else if l.inbound.isEmpty then (none, l)
  else
    let n := l.readable room
    (some (.ok (l.inbound.take n)), { l with inbound := l.inbound.drop n })

/-- Takes the link down for good; what has arrived is lost. -/
def close (l : Link) : Link := { l with connected := false, inbound := [] }

instance : Transport Link where
  send := send
  receive := receive
  waiting l := l.inbound.length
  isConnected := connected

end Link

end ModemLink
