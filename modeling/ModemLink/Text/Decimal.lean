/-
Decimal numbers: how they are written, and how a number within given bounds is read.

Reading is strict. A number is an optional sign and one or more ASCII digits, with nothing around
them, and it is refused when it lies outside the bounds.
-/
import ModemLink.Text.Basic

set_option autoImplicit false

namespace ModemLink.Decimal

open ModemLink

/-! ## Writing -/

/-- The digits of a natural number, without leading zeros. -/
def ofNat (n : Nat) : Text := Nat.toDigits 10 n

/-- A minus sign before the digits of a negative number, the digits alone otherwise. -/
def ofInt : Int → Text
  | .ofNat n => ofNat n
  | .negSucc n => '-' :: ofNat (n + 1)

/-! ## Reading -/

/-- The value of a run of ASCII digits, continuing the value of those already read. -/
def digits? : Nat → Text → Option Nat
  | acc, [] => some acc
  | acc, c :: s => if c.isDigit then digits? (acc * 10 + (c.toNat - '0'.toNat)) s else none

/-- One or more ASCII digits. -/
def nat? : Text → Option Nat
  | [] => none
  | s => digits? 0 s

/-- An optional plus sign, then one or more ASCII digits. -/
def unsigned? : Text → Option Nat
  | '+' :: s => nat? s
  | s => nat? s

/-- An optional sign, then one or more ASCII digits. -/
def int? : Text → Option Int
  | '-' :: s => (nat? s).map fun n => -(n : Int)
  | '+' :: s => (nat? s).map fun n => (n : Int)
  | s => (nat? s).map fun n => (n : Int)

/-- The bounds of a signed number of 32 bits, both included. -/
def inInt32 (n : Int) : Bool := -2147483648 ≤ n && n ≤ 2147483647

/-- A number that a signed word of 32 bits can hold. -/
def int32? (s : Text) : Option Int := (int? s).filter inInt32

end ModemLink.Decimal
