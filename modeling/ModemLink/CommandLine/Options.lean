/-
The command line and what it asks for.

Options stand before the command word, and the command word is followed by options of its own. An
option may be given once. A value is the next argument, or follows an equals sign; an argument that
looks like an option is never a value. Whatever does not fit makes the whole command line invalid.

What is read first wins, with one exception: a value that is an argument of its own is looked at
when the next option or word is read, and a command word reads all that follows it first. So help
asked for behind the command word is shown whatever the last value before the word is.
-/
import ModemLink.Config

set_option autoImplicit false

namespace ModemLink.CommandLine

/-! ## What can be asked for -/

/-- A command with its settings. -/
inductive Command where
  /-- list the families -/
  | families
  /-- list the serial devices -/
  | devices
  /-- list the events of a family -/
  | events
  /-- send a command and wait for its confirmation -/
  | send (command : Text) (expected : Status) (latency : Latency) (raw : Bool)
  /-- show events for some seconds, or for ever -/
  | monitor (seconds : Nat)
  /-- send a command many times -/
  | stress (count : Nat) (command : Text)
deriving DecidableEq, Repr

/-- The settings before the command word. -/
structure Settings where
  family : Option Text := none
  device : Option Text := none
  baud : Option Nat := none
  /-- whether a scripted module takes the place of a device -/
  scripted : Bool := false
  verbose : Bool := false
deriving DecidableEq, Repr

/-- The pages of the built-in help. -/
inductive Page where
  | program
  | families
  | devices
  | events
  | send
  | sendInFull
  | monitor
  | stress
  | help
deriving DecidableEq, Repr

/-- What a command line asks for. -/
inductive Parsed where
  | run (settings : Settings) (command : Command)
  | help (page : Page)
  | version
  | invalid
deriving DecidableEq, Repr

/-! ## Options -/

/-- What an option does. Setting fails on a second use and on an unusable value. -/
inductive Effect (α : Type) where
  | flag (set : α → Option α)
  | value (set : Text → α → Option α)
  | stop (parsed : Parsed)

/-- An option: its long name and its letter, of which it has one at least, and what it does. -/
structure Spec (α : Type) where
  long : Option Text := none
  letter : Option Char := none
  effect : Effect α

/-- How far reading arguments got. -/
inductive Progress (α : Type) where
  /-- the settings, unless the last value does not fit, and the arguments from the first one that
  is no option -/
  | reached (a : Option α) (rest : List Text)
  | stopped (parsed : Parsed)

/-- Whether an argument can only be an option. -/
def looksLikeOption : Text → Bool
  | '-' :: _ :: _ => true
  | _ => false

/-- Letters in one argument, each a flag. -/
def letters {α : Type} (specs : List (Spec α)) : Text → α → Progress α
  | [], a => .reached (some a) []
  | c :: more, a =>
    match (specs.find? fun s => s.letter == some c).map Spec.effect with
    | some (.flag set) =>
      match set a with
      | some a => letters specs more a
      | none => .stopped .invalid
    | some (.stop parsed) => .stopped parsed
    | _ => .stopped .invalid

/-- **Reads options** up to the first argument that is none. The settings are missing from the
moment a value does not fit, which the next option finds out. -/
def options {α : Type} (specs : List (Spec α)) : List Text → Option α → Progress α
  | [], a => .reached a []
  | arg :: rest, a =>
    match arg with
    | '-' :: '-' :: [] => .reached a (arg :: rest)
    | '-' :: '-' :: body =>
      let (name, inline) := match Text.splitFirst? '=' body with
        | some (name, value) => (name, some value)
        | none => (body, none)
      match a, (specs.find? fun s => s.long == some name).map Spec.effect, inline with
      | some a, some (.flag set), none =>
        match set a with
        | some a => options specs rest (some a)
        | none => .stopped .invalid
      | some _, some (.stop parsed), none => .stopped parsed
      | some a, some (.value set), some value =>
        match set value a with
        | some a => options specs rest (some a)
        | none => .stopped .invalid
      | some a, some (.value set), none =>
        match rest with
        | [] => .stopped .invalid
        | value :: rest =>
          if looksLikeOption value then .stopped .invalid
          else options specs rest (set value a)
      | _, _, _ => .stopped .invalid
    | '-' :: c :: more =>
      match a with
      | none => .stopped .invalid
      | some a =>
        match letters specs (c :: more) a with
        | .reached a _ => options specs rest a
        | .stopped parsed => .stopped parsed
    | _ => .reached a (arg :: rest)

/-- A value that may be set once. -/
def once {β : Type} (old : Option β) (new : Option β) : Option (Option β) :=
  match old, new with
  | none, some b => some (some b)
  | _, _ => none

/-- A number that a word of 32 bits can hold. It is read with its sign and compared with the bounds
after that, so that a minus sign before zero is no fault. -/
def word32? (s : Text) : Option Nat :=
  match Decimal.int? s with
  | some (.ofNat n) => if n < UInt32.size then some n else none
  | _ => none

/-- A number that a word of 64 bits can hold. It is read without a minus sign. -/
def word64? (s : Text) : Option Nat := (Decimal.unsigned? s).filter (· < UInt64.size)

/-! ## The options before the command word -/

/-- The options of the program. -/
def programOptions : List (Spec Settings) := [
  { long := some "family"
    effect := .value fun v s => (once s.family (some v)).map fun x => { s with family := x } },
  { long := some "port"
    effect := .value fun v s => (once s.device (some v)).map fun x => { s with device := x } },
  { long := some "baud"
    effect := .value fun v s =>
      (once s.baud (word32? v)).map fun x => { s with baud := x } },
  { long := some "mock"
    effect := .flag fun s => if s.scripted then none else some { s with scripted := true } },
  { long := some "verbose", letter := some 'v'
    effect := .flag fun s => if s.verbose then none else some { s with verbose := true } },
  { long := some "help", letter := some 'h', effect := .stop (.help .program) },
  { long := some "version", letter := some 'V', effect := .stop .version }]

/-! ## The options of each command -/

/-- What the options of a command can set. -/
structure Details where
  command : Option Text := none
  expected : Option Status := none
  latency : Option Latency := none
  raw : Bool := false
  duration : Option Nat := none
  count : Option Nat := none

/-- The confirmation that a word names. -/
def expected? (s : Text) : Option Status :=
  if s = "success".toList then some .success
  else if s = "failure".toList then some .failure
  else if s = "prompt".toList then some .readyForData
  else none

/-- The kind of latency that a word names. -/
def latency? (s : Text) : Option Latency :=
  if s = "short".toList then some .short
  else if s = "standard".toList then some .standard
  else if s = "long".toList then some .long
  else none

/-- The option that shows a page of help, by its name and by its letter. -/
def helpOption (page short : Page) : List (Spec Details) := [
  { long := some "help", effect := .stop (.help page) },
  { letter := some 'h', effect := .stop (.help short) }]

/-- The options of `send`. -/
def sendOptions : List (Spec Details) := [
  { long := some "expect"
    effect := .value fun v d =>
      (once d.expected (expected? v)).map fun x => { d with expected := x } },
  { long := some "timeout"
    effect := .value fun v d =>
      (once d.latency (latency? v)).map fun x => { d with latency := x } },
  { long := some "raw"
    effect := .flag fun d => if d.raw then none else some { d with raw := true } }]
  ++ helpOption .sendInFull .send

/-- The options of `monitor`. -/
def monitorOptions : List (Spec Details) := [
  { long := some "duration"
    effect := .value fun v d =>
      (once d.duration (word64? v)).map fun x => { d with duration := x } }]
  ++ helpOption .monitor .monitor

/-- The options of `stress`. -/
def stressOptions : List (Spec Details) := [
  { long := some "count"
    effect := .value fun v d =>
      (once d.count (word32? v)).map fun x => { d with count := x } },
  { long := some "command"
    effect := .value fun v d => (once d.command (some v)).map fun x => { d with command := x } }]
  ++ helpOption .stress .stress

/-! ## The whole command line -/

/-- Reads options among which words may stand. After a double dash everything is a word. -/
def optionsAndWords (specs : List (Spec Details)) (word : Text → Details → Option Details) :
    Nat → List Text → Details → Except Parsed Details
  | 0, _, _ => .error .invalid
  | n + 1, args, d =>
    match options specs args (some d) with
    | .stopped parsed => .error parsed
    | .reached none _ => .error .invalid
    | .reached (some d) [] => .ok d
    | .reached (some d) (arg :: rest) =>
      if arg = ['-', '-'] then
        match rest.foldlM (fun d w => word w d) d with
        | some d => .ok d
        | none => .error .invalid
      else
        match word arg d with
        | some d => optionsAndWords specs word n rest d
        | none => .error .invalid

/-- A command that takes no words. -/
def noWord (_ : Text) (_ : Details) : Option Details := none

/-- The one word of `send` is the command. -/
def commandWord (w : Text) (d : Details) : Option Details :=
  (once d.command (some w)).map fun x => { d with command := x }

/-- Reads the options of a command and makes the command of them. -/
def commandOf (args : List Text) (specs : List (Spec Details))
    (word : Text → Details → Option Details) (make : Details → Option Command) :
    Except Parsed Command :=
  match optionsAndWords specs word (args.length + 1) args {} with
  | .error parsed => .error parsed
  | .ok d => (make d).elim (.error .invalid) .ok

/-- The page of help that `help` shows for some words. -/
def helpFor : List Text → Parsed
  | [] => .help .program
  | [w] =>
    if w = "families".toList then .help .families
    else if w = "ports".toList then .help .devices
    else if w = "events".toList then .help .events
    else if w = "send".toList then .help .sendInFull
    else if w = "monitor".toList then .help .monitor
    else if w = "stress".toList then .help .stress
    else if w = "help".toList then .help .help
    else .invalid
  | _ => .invalid

/-- Reads a command word and what follows it. -/
def command (w : Text) (args : List Text) : Except Parsed Command :=
  if w = "families".toList then
    commandOf args (helpOption .families .families) noWord fun _ => some .families
  else if w = "ports".toList then
    commandOf args (helpOption .devices .devices) noWord fun _ => some .devices
  else if w = "events".toList then
    commandOf args (helpOption .events .events) noWord fun _ => some .events
  else if w = "send".toList then
    commandOf args sendOptions commandWord fun d =>
      d.command.map fun command =>
        .send command (d.expected.getD .success) (d.latency.getD .standard) d.raw
  else if w = "monitor".toList then
    commandOf args monitorOptions noWord fun d => some (.monitor (d.duration.getD 0))
  else if w = "stress".toList then
    commandOf args stressOptions noWord fun d =>
      some (.stress (d.count.getD 100) (d.command.getD "AT"))
  else if w = "help".toList then .error (helpFor args)
  else .error .invalid

/-- **Reads a command line.** -/
def parse (args : List Text) : Parsed :=
  match options programOptions args (some {}) with
  | .stopped parsed => parsed
  | .reached _ [] => .invalid
  | .reached settings (w :: rest) =>
    match command w rest with
    | .error parsed => parsed
    | .ok command => settings.elim .invalid fun settings => .run settings command

end ModemLink.CommandLine
