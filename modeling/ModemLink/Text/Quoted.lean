/-
Quoted text: how a message shows a text whose characters it does not know.

The text stands between double quotes. A quote, a backslash, and the usual control characters are
written with a backslash; a character that is never shown as it is becomes its number in
hexadecimal; an apostrophe stays.
-/
import ModemLink.Text.Unprintable

set_option autoImplicit false

namespace ModemLink.Text

/-- The number of a character in lower-case hexadecimal, between braces. -/
def numbered (c : Char) : Text :=
  ['\\', 'u', '{'] ++ Nat.toDigits 16 c.toNat ++ ['}']

/-- One character between the quotes. -/
def escaped (c : Char) : Text :=
  match c with
  | '"' => ['\\', '"']
  | '\\' => ['\\', '\\']
  | '\n' => ['\\', 'n']
  | '\r' => ['\\', 'r']
  | '\t' => ['\\', 't']
  | '\x00' => ['\\', '0']
  | c => if isPrintable c then [c] else numbered c

/-- The text between double quotes. -/
def quoted (s : Text) : Text := ['"'] ++ s.flatMap escaped ++ ['"']

end ModemLink.Text
