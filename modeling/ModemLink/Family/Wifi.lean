/-
Wi-Fi modules.

Sending data takes two steps: the module answers the command with a prompt that ends no line, takes
the payload raw, and confirms with a message of its own. Changes of the station and of links come
as bare lines, socket data and clients of the access point with a sentinel.
-/
import ModemLink.Family.Basic

set_option autoImplicit false

namespace ModemLink.Wifi

/-- The events of Wi-Fi modules. -/
inductive Event where
  | ready
  | wifiConnected
  | gotIp
  | wifiDisconnected
  | busyProcessing
  | received
  | stationConnected
  | stationDisconnected
  | stationIp
  | linkConnected
  | linkClosed
  | scanResult
deriving DecidableEq, Repr

/-- The name of each event. -/
def Event.name : Event → Text
  | .ready => "Ready"
  | .wifiConnected => "WifiConnected"
  | .gotIp => "GotIp"
  | .wifiDisconnected => "WifiDisconnected"
  | .busyProcessing => "BusyProcessing"
  | .received => "Received"
  | .stationConnected => "StationConnected"
  | .stationDisconnected => "StationDisconnected"
  | .stationIp => "StationIp"
  | .linkConnected => "LinkConnected"
  | .linkClosed => "LinkClosed"
  | .scanResult => "ScanResult"

/-- Results of a scan make long lines; joining an access point takes many seconds. -/
def config : Config where
  framing := { terminators := .crlf, lineLimit := 512, prompt := some 62 }
  vocabulary := {
    success := "OK"
    failures := ["ERROR", "FAIL"]
    extras := [
      (">", .readyForData),
      ("SEND OK", .success),
      ("SEND FAIL", .failure)]
    replyCapacity := 4096 }
  timeouts := { short := 500, standard := 2000, long := 20000 }

/-- The event table. -/
def table : Except TableFault (EventTable Event) := EventTable.ofCalls [
  .event "IPD" .received,
  .event "STA_CONNECTED" .stationConnected,
  .event "STA_DISCONNECTED" .stationDisconnected,
  .event "DIST_STA_IP" .stationIp,
  .event "LINK_CONN" .linkConnected,
  .event "CWLAP" .scanResult,
  .bare "ready" .ready,
  .bare "WIFI CONNECTED" .wifiConnected,
  .bare "WIFI GOT IP" .gotIp,
  .bare "WIFI DISCONNECT" .wifiDisconnected,
  .bare "busy p..." .busyProcessing,
  .bare "CLOSED" .linkClosed]

/-- Wi-Fi modules as a family. -/
def family : Family where
  id := "wifi"
  name := "Wi-Fi module (ESP-AT style)"
  baudRate := 115200
  terminators := .crlf
  config := config
  Event := Event
  eventName := Event.name
  table := table

end ModemLink.Wifi
