/-
How a command ends.

A request is unresolved until the module confirms it; from then on it has one of the terminal
statuses for good. A failure may come with a label and a code, which the module writes after the
failure token.
-/
import ModemLink.Text.Decimal

set_option autoImplicit false

namespace ModemLink

/-! ## Status -/

/-- The outcome of a command. -/
inductive Status where
  /-- no confirmation seen yet -/
  | unresolved
  /-- the module accepted the command -/
  | success
  /-- the module rejected the command -/
  | failure
  /-- the module waits for a raw payload -/
  | readyForData
  /-- a status that only one family of modules has -/
  | custom (n : UInt8)
deriving DecidableEq, Repr

namespace Status

/-- Every status but `unresolved` ends a request. -/
def isTerminal : Status → Bool
  | .unresolved => false
  | _ => true

/-- The status as messages show it. -/
def text : Status → Text
  | .unresolved => "unresolved"
  | .success => "success"
  | .failure => "failure"
  | .readyForData => "ready-for-data"
  | .custom n => "custom(".toList ++ Decimal.ofNat n.toNat ++ ")".toList

end Status

/-! ## Failure detail -/

/-- What a failure confirmation says beyond its token: a label and a code, empty and zero where
the module gives none. -/
structure Failure where
  label : Text := []
  code : Int := 0
deriving DecidableEq, Repr

namespace Failure

/-- The characters that may separate a failure token from its detail. -/
def isSeparator (c : Char) : Bool := c == ':' || c == ' '

/-- **Detail of a failure.** After separators the text is `label,code`, a code, a label, or
nothing; a code that is no number of 32 bits counts as zero. -/
def ofText (text : Text) : Failure :=
  let detail := Text.trim (text.dropWhile isSeparator)
  match Text.splitFirst? ',' detail with
  | some (label, code) => ⟨Text.trim label, (Decimal.int32? (Text.trim code)).getD 0⟩
  | none =>
    match Decimal.int32? detail with
    | some code => ⟨[], code⟩
    | none => ⟨detail, 0⟩

/-- The detail in brackets as a message ends with it: label and code, a code other than zero
alone, or nothing. -/
def remark : Option Failure → Text
  | none => []
  | some f =>
    if f.label ≠ [] then " (".toList ++ f.label ++ ", code ".toList ++ Decimal.ofInt f.code ++ [')']
    else if f.code ≠ 0 then " (code ".toList ++ Decimal.ofInt f.code ++ [')']
    else []

end Failure

end ModemLink
