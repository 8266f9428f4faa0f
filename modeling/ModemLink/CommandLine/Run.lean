/-
The program: a command line in, an outcome out.

Sessions run over a scripted module that confirms every command, and on a clock of their own.
-/
import ModemLink.CommandLine.Report
import ModemLink.Session.Script

set_option autoImplicit false

namespace ModemLink.CommandLine

/-! ## Sessions -/

/-- A command as it goes over the link. -/
def wireLine (f : Family) (command : Text) (raw : Bool) : Text :=
  if raw then command
  else command ++ f.terminators.bytes.map fun b => Char.ofNat b.toNat

/-- A module that confirms each of these commands with the success token of its family. -/
def confirming (f : Family) (commands : List Text) : Link :=
  let reply := Utf8.encode f.config.vocabulary.success ++ f.terminators.bytes
  { script := commands.map fun c => ⟨Utf8.encode c, reply⟩ }

/-- A session and what was printed on opening it. -/
structure Opened where
  session : Session Text
  out : List Printed

/-- Opens a session with a family, over a scripted module or over a serial device. -/
def openSession (f : Family) (s : Settings) (commands : List Text) : Except Complaint Opened :=
  match f.namedTable with
  | .error fault => .error ⟨"invalid family definition", some fault.toError.message⟩
  | .ok table =>
    let setup : Setup Text := { table := table, config := f.config, baudRate := f.baudRate }
    if s.scripted then
      match setup.openOver (confirming f commands) with
      | .error e => .error ⟨"failed to build session with mock transport", some e.message⟩
      | .ok session =>
        .ok ⟨session, [.text ("Connected (mock transport) -- ".toList ++ f.name)]⟩
    else
      match s.device with
      | none => .error ⟨"--port is required when not using --mock", none⟩
      | some device =>
        let baud := Decimal.ofNat (s.baud.getD f.baudRate)
        match { setup with device := some device }.openDevice with
        | .error e =>
          .error ⟨"failed to open serial port ".toList ++ device ++ " at ".toList ++ baud
            ++ " baud".toList, some e.message⟩
        | .ok session =>
          .ok ⟨session, [.text ("Connected to ".toList ++ device ++ " at ".toList ++ baud
            ++ " baud -- ".toList ++ f.name)]⟩

/-- The lines about the calls of the callback. -/
def eventLines (s : Session Text) : List Printed :=
  s.timeline.subscribers.invocations.map fun i =>
    .text ("[event] ".toList ++ i.notification.event ++ [' '] ++ i.notification.args)

/-- The counters of a session as they are printed. -/
def statsLines (s : Session Text) : List Printed :=
  match s.stats.1 with
  | .ok stats => (statsTable stats).map .text
  | .error _ => []

/-! ## Commands -/

/-- The outcome of a complaint after some output. -/
def complain (out : List Printed) (err : List Text) (c : Complaint) : Outcome :=
  ⟨1, out, err ++ c.lines⟩

/-- Lists the events of a family. -/
def runEvents (f : Family) : Outcome :=
  match f.namedTable with
  | .error fault => complain [] [] ⟨"invalid event table", some fault.toError.message⟩
  | .ok table => { out := (eventTable table.listing).map .text }

/-- Sends a command and waits for its confirmation. -/
def runSend (f : Family) (s : Settings) (command : Text) (expected : Status)
    (latency : Latency) (raw : Bool) : Outcome :=
  let line := wireLine f command raw
  match openSession f s [line] with
  | .error c => complain [] [] c
  | .ok ⟨session, out⟩ =>
    let session := session.register
    let start := session.now
    match session.send line with
    | (.error e, session) =>
      complain (out ++ eventLines session) [] ⟨"send failed", some e.message⟩
    | (.ok _, session) =>
      match session.waitFor latency expected with
      | (.ok body, session) =>
        { out := out ++ eventLines session ++ (if body = [] then [] else [.text body])
            ++ [.confirmedIn (session.now - start)] ++ statsLines session }
      | (.error e, session) =>
        complain (out ++ eventLines session ++ statsLines session) []
          ⟨command ++ " failed".toList, some e.message⟩

/-- Shows events for some seconds. A scripted module says nothing by itself. -/
def runMonitor (f : Family) (s : Settings) (seconds : Nat) : Outcome :=
  match openSession f s [] with
  | .error c => complain [] [] c
  | .ok ⟨session, out⟩ =>
    let session := session.onTimeline fun t => t.sleepUntil (t.now + seconds * 1000)
    let closing : List Printed :=
      if seconds = 0 then [] else [.text "Monitor duration elapsed."]
    { out := out ++ [.text "Monitoring events (Ctrl-C to stop)..."] ++ closing
        ++ statsLines session }

/-- Sends a command again and again and collects the failures, with their numbers. -/
def repeatRequest (line : Text) : (count done : Nat) → Session Text →
    List (Nat × Error) × Session Text
  | 0, _, s => ([], s)
  | n + 1, done, s =>
    let (result, s) := s.request line .success
    let (failures, s) := repeatRequest line n (done + 1) s
    match result with
    | .ok _ => (failures, s)
    | .error e => ((done + 1, e) :: failures, s)

/-- Sends a command many times and counts how often it was confirmed. -/
def runStress (f : Family) (s : Settings) (count : Nat) (command : Text) : Outcome :=
  let line := wireLine f command false
  match openSession f s (List.replicate count line) with
  | .error c => complain [] [] c
  | .ok ⟨session, out⟩ =>
    let start := session.now
    let (failures, session) := repeatRequest line count 0 session
    let time := session.now - start
    let total := Decimal.ofNat count
    let out := out ++ [
      .text ("Stress test: ".toList ++ total ++ " x ".toList ++ command),
      .text [],
      .text "Results:",
      .text ("  Total requests: ".toList ++ total),
      .text ("  Successes:      ".toList ++ Decimal.ofNat (count - failures.length)),
      .text ("  Failures:       ".toList ++ Decimal.ofNat failures.length),
      .elapsed time,
      .rate count time] ++ statsLines session
    let err := failures.map fun (i, e) =>
      ['['] ++ Decimal.ofNat i ++ ['/'] ++ total ++ "] ".toList ++ e.message
    if failures.isEmpty then { out := out }
    else
      complain out err ⟨Decimal.ofNat failures.length ++ " out of ".toList ++ total
        ++ " requests failed".toList, none⟩

/-! ## The program -/

/-- Carries out a command that needs a family. -/
def runWith (f : Family) (s : Settings) : Command → Outcome
  | .events => runEvents f
  | .send command expected latency raw => runSend f s command expected latency raw
  | .monitor seconds => runMonitor f s seconds
  | .stress count command => runStress f s count command
  | _ => {}

/-- Carries out a command. -/
def runCommand (s : Settings) : Command → Outcome
  | .families => { out := (familyTable Family.all).map .text }
  | .devices => { out := [.text "No serial ports found."] }
  | command =>
    match s.family with
    | none => complain [] [] ⟨"--family is required for this command", none⟩
    | some id =>
      match Family.find? id with
      | some f => runWith f s command
      | none =>
        complain [] [] ⟨"unknown family '".toList ++ id
          ++ "'. Run \x60".toList ++ programName ++ " families\x60 for the list".toList, none⟩

/-- **The program.** An unusable command line exits with 2. -/
def run (args : List Text) : Outcome :=
  match parse args with
  | .invalid => { exit := 2, err := ["error: unusable arguments, see --help"] }
  | .version => { out := [.text versionLine] }
  | .help page => { out := page.lines.map .text }
  | .run settings command => runCommand settings command

end ModemLink.CommandLine
