/-
How a session is opened.

A setup collects the configuration, the event table and the serial device. It can be opened over a
link that is there already, or over the device. The configuration is checked either way.
-/
import ModemLink.Session.Basic

set_option autoImplicit false

namespace ModemLink

/-- The speed that most firmware uses out of reset. -/
def defaultBaudRate : Nat := 115200

/-- What a session is going to be opened with. -/
structure Setup (ε : Type) where
  table : EventTable ε
  config : Config := {}
  device : Option Text := none
  baudRate : Nat := defaultBaudRate

namespace Setup

variable {ε : Type}

/-- Opens a session over a link that is up. -/
def openOver (link : Link) (setup : Setup ε) : Except Error (Session ε) := do
  setup.config.validate
  if link.connected then
    .ok {
      timeline := .start setup.config setup.table link
      timing := setup.config.timing
      timeouts := setup.config.timeouts }
  else .error .notConnected

/-- The failure to open a serial device that does not exist. -/
def deviceMissing (device : Text) : Error :=
  .transport ("failed to open serial port ".toList ++ device
    ++ ": No such file or directory".toList)

/-- Opens a session over a serial device. No device exists here, so this always fails; which failure
it is depends on the setup alone. -/
def openDevice (setup : Setup ε) : Except Error (Session ε) :=
  match setup.device with
  | none => .error (.invalidParameter "serial_port is required for build()")
  | some device => do
    setup.config.validate
    .error (deviceMissing device)

end Setup

end ModemLink
