/-
Families of modules.

A family is data: how its firmware frames and words its replies, and which events it announces.
Each family has its own type of events.
-/
import ModemLink.Config
import ModemLink.Event.Build

set_option autoImplicit false

namespace ModemLink

/-- A family of modules. -/
structure Family where
  /-- the short name it is chosen by -/
  id : Text
  /-- the name people read -/
  name : Text
  /-- the speed of the firmware out of reset -/
  baudRate : Nat
  terminators : Terminators
  config : Config
  /-- the events of the family -/
  Event : Type
  /-- the name of each event -/
  eventName : Event → Text
  table : Except TableFault (EventTable Event)

/-- The table of a family with its events replaced by their names. -/
def Family.namedTable (f : Family) : Except TableFault (EventTable Text) :=
  f.table.map fun t => t.map f.eventName

end ModemLink
