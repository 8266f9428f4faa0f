/-
Everything that can go wrong, as causes, and the one place that words them.
-/
import ModemLink.Status

set_option autoImplicit false

namespace ModemLink

/-- The cause of a failed operation. -/
inductive Error where
  /-- the link could not be opened or written -/
  | transport (text : Text)
  /-- the other side did not say what the protocol allows -/
  | protocol (text : Text)
  /-- a line grew past the limit and was discarded -/
  | lineTooLong (limit : Nat)
  /-- another request is still unresolved -/
  | busy
  /-- nothing arrived in time -/
  | timeout
  /-- a confirmation arrived, and not the one that was expected -/
  | mismatch (expected actual : Status) (failure : Option Failure)
  /-- a line matches no entry of the event table -/
  | unknownEvent (text : Text)
  /-- there is no request to wait for -/
  | notPending
  /-- a configuration, a table entry or an argument is unusable -/
  | invalidParameter (text : Text)
  /-- there is no connection, or the engine has ended -/
  | notConnected
  /-- the connection broke -/
  | connectionLost
  /-- the operating system reports an error -/
  | io (text : Text)
deriving DecidableEq, Repr

/-- The wording of each cause. -/
def Error.message : Error → Text
  | .transport text => "transport error: ".toList ++ text
  | .protocol text => "protocol error: ".toList ++ text
  | .lineTooLong limit =>
    "line exceeded ".toList ++ Decimal.ofNat limit ++ " bytes and was discarded".toList
  | .busy => "busy: a request is already awaiting confirmation"
  | .timeout => "timeout waiting for confirmation"
  | .mismatch expected actual failure =>
    "confirmation mismatch: expected ".toList ++ expected.text ++ ", got ".toList ++ actual.text
      ++ Failure.remark failure
  | .unknownEvent text => "unknown event: ".toList ++ text
  | .notPending => "no request is awaiting confirmation"
  | .invalidParameter text => "invalid parameter: ".toList ++ text
  | .notConnected => "not connected"
  | .connectionLost => "connection lost"
  | .io text => "I/O error: ".toList ++ text

end ModemLink
