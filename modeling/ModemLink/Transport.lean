/-
A link to a module, as the engine sees it.

The engine is written for any link. It can send, which may fail; it can read what has arrived,
which may be nothing, some bytes, or the news that the link is gone; and it can ask how much is
waiting to be read.
-/
import ModemLink.Error

set_option autoImplicit false

namespace ModemLink

/-- A link to a module. -/
class Transport (τ : Type) where
  /-- sends bytes at a time -/
  send (now : Nat) (bytes : Bytes) (link : τ) : Except Error Unit × τ
  /-- reads at most `room` bytes, or nothing if nothing is there yet -/
  receive (room : Nat) (link : τ) : Option (Except Error Bytes) × τ
  /-- how many bytes are waiting to be read -/
  waiting (link : τ) : Nat
  /-- whether the link is up -/
  isConnected (link : τ) : Bool

end ModemLink
