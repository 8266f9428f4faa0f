/-
The name of a command: the word by which a module repeats it at the head of each reply line.
-/
import ModemLink.Text.Basic

set_option autoImplicit false

namespace ModemLink.Command

/-- The longest name that is kept. -/
def nameLimit : Nat := 32

/-- The text after one leading separator, if there is one. -/
def dropSeparator (separators : List Char) : Text → Text
  | [] => []
  | c :: s => if c ∈ separators then s else c :: s

/-- **The name of a command.** After blanks, `AT` in either case and at most one separator, the
letters, digits and underscores that follow. Text that does not begin with `AT` has no name. -/
def name (separators : List Char) (command : Text) : Text :=
  match Text.afterFolded? "AT".toList (Text.trimStart command) with
  | none => []
  | some rest => ((dropSeparator separators rest).takeWhile Text.isWordChar).take nameLimit

end ModemLink.Command
