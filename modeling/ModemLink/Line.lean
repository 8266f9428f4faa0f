/-
What a line is.

A complete line is one of four things: a confirmation that ends the pending command, a piece of
that command's reply, an event that nobody asked for, or plain text. Confirmation tokens and the
name of the pending command are compared without regard to the case of ASCII letters.
-/
import ModemLink.Config

set_option autoImplicit false

namespace ModemLink

/-- The kinds of lines, with what is read out of them. -/
inductive Line where
  /-- the end of a command; only failures carry a detail -/
  | confirmation (status : Status) (failure : Option Failure)
  /-- a piece of the pending command's reply, without its sentinel -/
  | body (text : Text)
  /-- an event, without its sentinel -/
  | event (text : Text)
  /-- anything else -/
  | plain (text : Text)
deriving DecidableEq, Repr

namespace Text

/-- **Whole word.** Whether the text begins with the name, up to case, and the name does not go
on. An empty name is never there. -/
def namesCommand (text name : Text) : Bool :=
  !name.isEmpty &&
    match afterFolded? name text with
    | none => false
    | some [] => true
    | some (c :: _) => !isWordChar c

/-- The shortest of several texts, the later one of two equally long. -/
def shortest? : List Text → Option Text
  | [] => none
  | s :: rest =>
    match shortest? rest with
    | none => some s
    | some t => if s.length < t.length then some s else some t

end Text

namespace Vocabulary

/-- The status of the first extra confirmation whose token heads the line. -/
def extra? (v : Vocabulary) (line : Text) : Option Status :=
  (v.extras.find? fun e => (Text.afterFolded? e.1 line).isSome).map Prod.snd

/-- What follows the longest failure token that heads the line. The longest token leaves the
shortest rest. -/
def failureDetail? (v : Vocabulary) (line : Text) : Option Text :=
  Text.shortest? (v.failures.filterMap (Text.afterFolded? · line))

/-- The confirmation that a trimmed line is, if it is one. Extra tokens come first, then the
success token, then the failure tokens. -/
def confirmation? (v : Vocabulary) (line : Text) : Option (Status × Option Failure) :=
  match v.extra? line with
  | some status => some (status, none)
  | none =>
    if (Text.afterFolded? v.success line).isSome then some (.success, none)
    else (v.failureDetail? line).map fun rest => (.failure, some (Failure.ofText rest))

/-- **What a line is,** given the name of the pending command if there is one. Blanks around the
line do not count. -/
def classify (v : Vocabulary) (line : Text) (pending : Option Text) : Line :=
  let line := Text.trim line
  match v.confirmation? line with
  | some (status, failure) => .confirmation status failure
  | none =>
    match line with
    | [] => .plain []
    | c :: text =>
      if c ∈ v.sentinels then
        if pending.any (Text.namesCommand text) then .body text else .event text
      else .plain line

end Vocabulary

end ModemLink
