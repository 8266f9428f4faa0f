/-
Cellular modems.

A command fails plainly, or with the extended codes for equipment and for messages. Sending a
message takes two steps, with a prompt in between that ends no line. A message that is delivered
directly comes as a header and one line of text, and the text is data whatever it looks like.
-/
import ModemLink.Family.Basic

set_option autoImplicit false

namespace ModemLink.Cellular

/-- The events of cellular modems. -/
inductive Event where
  | ready
  | registration
  | gprsRegistration
  | epsRegistration
  | smsReceived
  | smsStored
  | ring
  | callerId
  | callEnded
  | simStatus
  | functionality
  | timeZone
deriving DecidableEq, Repr

/-- The name of each event. -/
def Event.name : Event → Text
  | .ready => "Ready"
  | .registration => "Registration"
  | .gprsRegistration => "GprsRegistration"
  | .epsRegistration => "EpsRegistration"
  | .smsReceived => "SmsReceived"
  | .smsStored => "SmsStored"
  | .ring => "Ring"
  | .callerId => "CallerId"
  | .callEnded => "CallEnded"
  | .simStatus => "SimStatus"
  | .functionality => "Functionality"
  | .timeZone => "TimeZone"

/-- Operations on the network may take minutes. -/
def config : Config where
  framing := { prompt := some 62 }
  vocabulary := {
    failures := ["ERROR", "+CME ERROR", "+CMS ERROR"]
    extras := [(">", .readyForData)]
    continuation := '\n' }
  timeouts := { short := 500, standard := 5000, long := 180000 }

/-- The event table. -/
def table : Except TableFault (EventTable Event) := EventTable.ofCalls [
  .event "CREG" .registration,
  .event "CGREG" .gprsRegistration,
  .event "CEREG" .epsRegistration,
  .event "CMT" .smsReceived 1,
  .event "CMTI" .smsStored,
  .event "CLIP" .callerId,
  .event "CPIN" .simStatus,
  .event "CFUN" .functionality,
  .event "CTZV" .timeZone,
  .bare "RDY" .ready,
  .bare "RING" .ring,
  .bare "NO CARRIER" .callEnded]

/-- Cellular modems as a family. -/
def family : Family where
  id := "cellular"
  name := "Cellular modem (3GPP 27.007)"
  baudRate := 115200
  terminators := .crlf
  config := config
  Event := Event
  eventName := Event.name
  table := table

end ModemLink.Cellular
