/-
The configuration of a session: how lines are framed, which words the firmware uses, how commands
are paced, and how long to wait.

A configuration can be written down freely; `Config.fault?` says what makes one unusable, and
`Config.validate` refuses it.
-/
import ModemLink.Error
import ModemLink.Text.Quoted

set_option autoImplicit false

namespace ModemLink

/-! ## Framing -/

/-- How a line ends. -/
inductive Terminators where
  /-- on the first occurrence of this byte -/
  | single (last : UInt8)
  /-- on the first byte directly followed by the second; a lone first byte is data -/
  | pair (first second : UInt8)
deriving DecidableEq, Repr

namespace Terminators

/-- Carriage return and line feed. -/
def crlf : Terminators := .pair 13 10

/-- A lone carriage return. -/
def cr : Terminators := .single 13

/-- The form that modules are configured with: two bytes, and whether the second one counts. -/
def ofMode (first second : UInt8) (two : Bool) : Terminators :=
  if two then .pair first second else .single first

/-- The bytes that end a line. -/
def bytes : Terminators → Bytes
  | .single a => [a]
  | .pair a b => [a, b]

/-- The terminators as tables show them. -/
def text : Terminators → Text
  | .single a => "Single(".toList ++ Decimal.ofNat a.toNat ++ [')']
  | .pair a b =>
    "Pair(".toList ++ Decimal.ofNat a.toNat ++ ", ".toList ++ Decimal.ofNat b.toNat ++ [')']

end Terminators

/-- Line framing. -/
structure Framing where
  terminators : Terminators := .crlf
  /-- the longest line, in bytes -/
  lineLimit : Nat := 256
  /-- a byte that is a whole line when a line starts with it -/
  prompt : Option UInt8 := none
deriving DecidableEq, Repr

/-! ## Vocabulary -/

/-- The fixed words that a firmware uses in its replies. -/
structure Vocabulary where
  success : Text := "OK"
  failures : List Text := ["ERROR"]
  /-- further confirmations, looked at before `success` and `failures` -/
  extras : List (Text × Status) := []
  /-- the characters that start a reply body or an event -/
  sentinels : List Char := ['+']
  /-- the characters that may stand between `AT` and the command name -/
  separators : List Char := ['+']
  /-- the largest reply body, in bytes -/
  replyCapacity : Nat := 1024
  /-- what stands before each line that a continued event takes in -/
  continuation : Char := '\n'
deriving DecidableEq, Repr

/-! ## Time -/

/-- Pacing, in milliseconds. -/
structure Timing where
  /-- the least time between a confirmation and the next command -/
  minInterval : Nat := 10
  /-- how often a wait looks again, and how long one read lasts -/
  pollStep : Nat := 10
deriving DecidableEq, Repr

/-- How long commands take: those answered at once, ordinary ones, and those that use the radio. -/
inductive Latency where
  | short
  | standard
  | long
deriving DecidableEq, Repr

/-- The time allowed for each kind of latency, in milliseconds. -/
structure Timeouts where
  short : Nat := 300
  standard : Nat := 1000
  long : Nat := 20000
deriving DecidableEq, Repr

/-- The time allowed for a kind of latency. -/
def Timeouts.allowed (t : Timeouts) : Latency → Nat
  | .short => t.short
  | .standard => t.standard
  | .long => t.long

/-! ## The whole -/

/-- The configuration of one session. -/
structure Config where
  framing : Framing := {}
  vocabulary : Vocabulary := {}
  timing : Timing := {}
  timeouts : Timeouts := {}
  /-- how many events may be queued for the application -/
  queueDepth : Nat := 32
deriving DecidableEq, Repr

/-- What makes a configuration unusable. -/
inductive ConfigFault where
  | lineLimitZero
  | pollStepZero
  | successEmpty
  | failureEmpty
  | extraUnusable (token : Text) (status : Status)
  | sentinelsMissing
  | replyCapacityZero
  | queueDepthZero
deriving DecidableEq, Repr

/-- The wording of each fault. -/
def ConfigFault.message : ConfigFault → Text
  | .lineLimitZero => "max_line_len must be non-zero"
  | .pollStepZero => "poll_step must be non-zero"
  | .successEmpty => "success token must not be empty"
  | .failureEmpty => "failure tokens must not be empty"
  | .extraUnusable token status =>
    "extra confirmation ".toList ++ Text.quoted token
      ++ " must be non-empty and map to a terminal status, not ".toList ++ status.text
  | .sentinelsMissing => "at least one sentinel is required"
  | .replyCapacityZero => "reply_capacity must be non-zero"
  | .queueDepthZero => "event_queue_depth must be non-zero"

namespace Vocabulary

/-- Whether an extra confirmation is unusable: its token is empty or its status ends nothing. -/
def extraUnusable (e : Text × Status) : Bool := e.1.isEmpty || !e.2.isTerminal

end Vocabulary

namespace Config

/-- The first fault of a configuration, in the order in which its parts are listed. -/
def fault? (c : Config) : Option ConfigFault :=
  if c.framing.lineLimit = 0 then some .lineLimitZero
  else if c.timing.pollStep = 0 then some .pollStepZero
  else if c.vocabulary.success = [] then some .successEmpty
  else if c.vocabulary.failures.any List.isEmpty then some .failureEmpty
  else match c.vocabulary.extras.find? Vocabulary.extraUnusable with
    | some (token, status) => some (.extraUnusable token status)
    | none =>
      if c.vocabulary.sentinels = [] then some .sentinelsMissing
      else if c.vocabulary.replyCapacity = 0 then some .replyCapacityZero
      else if c.queueDepth = 0 then some .queueDepthZero
      else none

/-- Refuses a configuration with a fault. -/
def validate (c : Config) : Except Error Unit :=
  match c.fault? with
  | some fault => .error (.invalidParameter fault.message)
  | none => .ok ()

end Config

end ModemLink
