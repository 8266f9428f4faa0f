/-
LoRaWAN modems.

A command fails with one of many tokens. Whatever happens on the network is announced under one
category, with fields between colons. Joining a network is confirmed at once; how it ended is an
event.
-/
import ModemLink.Family.Basic

set_option autoImplicit false

namespace ModemLink.Lora

/-- The events of LoRaWAN modems. -/
inductive Event where
  | joined
  | joinFailed
  | txDone
  | sendConfirmedOk
  | sendConfirmedFailed
  | rx1
  | rx2
  | rxC
  | rxB
  | rxP2p
  | txP2pDone
  | linkCheck
  | other
deriving DecidableEq, Repr

/-- The name of each event. -/
def Event.name : Event → Text
  | .joined => "Joined"
  | .joinFailed => "JoinFailed"
  | .txDone => "TxDone"
  | .sendConfirmedOk => "SendConfirmedOk"
  | .sendConfirmedFailed => "SendConfirmedFailed"
  | .rx1 => "Rx1"
  | .rx2 => "Rx2"
  | .rxC => "RxC"
  | .rxB => "RxB"
  | .rxP2p => "RxP2p"
  | .txP2pDone => "TxP2pDone"
  | .linkCheck => "LinkCheck"
  | .other => "Other"

/-- The failure tokens of the firmware. -/
def failureTokens : List Text := [
  "AT_ERROR",
  "AT_PARAM_ERROR",
  "AT_BUSY_ERROR",
  "AT_TEST_PARAM_OVERFLOW",
  "AT_NO_CLASSB_ENABLE",
  "AT_NO_NETWORK_JOINED",
  "AT_RX_ERROR",
  "AT_MODE_NO_SUPPORT",
  "AT_COMMAND_NOT_FOUND"]

/-- The reasons for which joining a network fails. -/
def joinFailureReasons : List Text := ["RX_TIMEOUT", "TX_TIMEOUT", "MIC", "DUTY_CYCLE"]

/-- The modem loses what is sent right after a reply, so commands keep their distance. -/
def config : Config where
  vocabulary := { failures := failureTokens }
  timing := { minInterval := 50 }
  timeouts := { short := 300, standard := 1000, long := 10000 }

/-- What stands under the one category. -/
def eventCalls : List (LevelCall Event) :=
  [.delimiters [':']]
  ++ joinFailureReasons.map (fun reason => .event ("JOIN_FAILED_".toList ++ reason) .joinFailed)
  ++ [.event "JOINED" .joined,
    .event "TX_DONE" .txDone,
    .event "SEND_CONFIRMED_OK" .sendConfirmedOk,
    .event "SEND_CONFIRMED_FAILED" .sendConfirmedFailed,
    .event "RX_1" .rx1,
    .event "RX_2" .rx2,
    .event "RX_C" .rxC,
    .event "RX_B" .rxB,
    .event "RXP2P" .rxP2p,
    .event "TXP2P DONE" .txP2pDone,
    .event "LINKCHECK" .linkCheck,
    .otherwise .other]

/-- The event table. -/
def table : Except TableFault (EventTable Event) := EventTable.ofCalls [.category "EVT" eventCalls]

/-- LoRaWAN modems as a family. -/
def family : Family where
  id := "lora"
  name := "LoRaWAN modem"
  baudRate := 115200
  terminators := .crlf
  config := config
  Event := Event
  eventName := Event.name
  table := table

end ModemLink.Lora
