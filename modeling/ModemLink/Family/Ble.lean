/-
BLE modules.

Every line ends in a lone carriage return. The state of the connection is announced after a percent
sign, traffic after a plus sign. Any other line with a sentinel is a status.
-/
import ModemLink.Family.Basic

set_option autoImplicit false

namespace ModemLink.Ble

/-- The events of BLE modules. -/
inductive Event where
  | reboot
  | commandMode
  | connected
  | disconnected
  | streamOpen
  | advertisement
  | write
  | notify
  | rssi
  | status
deriving DecidableEq, Repr

/-- The name of each event. -/
def Event.name : Event → Text
  | .reboot => "Reboot"
  | .commandMode => "CommandMode"
  | .connected => "Connected"
  | .disconnected => "Disconnected"
  | .streamOpen => "StreamOpen"
  | .advertisement => "Advertisement"
  | .write => "Write"
  | .notify => "Notify"
  | .rssi => "Rssi"
  | .status => "Status"

/-- The failure token also heads the long form that some firmware writes. -/
def config : Config where
  framing := { terminators := .cr }
  vocabulary := {
    success := "AOK"
    failures := ["ERR"]
    sentinels := ['%', '+']
    separators := ['+', '%'] }

/-- The event table. -/
def table : Except TableFault (EventTable Event) := EventTable.ofCalls [
  .event "CONNECT" .connected,
  .event "DISCONNECT" .disconnected,
  .event "STREAM_OPEN" .streamOpen,
  .event "ADV" .advertisement,
  .event "WV" .write,
  .event "NOTI" .notify,
  .event "RSSI" .rssi,
  .otherwise .status,
  .bare "REBOOT" .reboot,
  .bare "CMD>" .commandMode]

/-- BLE modules as a family. -/
def family : Family where
  id := "ble"
  name := "BLE module (single-CR framing)"
  baudRate := 115200
  terminators := .cr
  config := config
  Event := Event
  eventName := Event.name
  table := table

end ModemLink.Ble
