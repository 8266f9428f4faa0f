/-
UTF-8, written exactly and read leniently.

A line that arrives over a serial link may hold anything. Reading never fails: every longest
beginning of a character that breaks off, and every byte that can begin no character, becomes one
replacement character, and reading goes on with the next byte. The reader is a state machine of
one byte at a time; its state is the character that has been begun.
-/
import ModemLink.Text.Basic

set_option autoImplicit false

namespace ModemLink.Utf8

open ModemLink

/-! ## Writing -/

/-- The bytes of a text. -/
def encode (s : Text) : Bytes := s.flatMap String.utf8EncodeChar

@[simp] theorem encode_nil : encode [] = [] := rfl

@[simp] theorem encode_append (s t : Text) : encode (s ++ t) = encode s ++ encode t := by
  simp [encode]

/-- The bytes number what `Text.byteLength` says. -/
theorem length_encode (s : Text) : (encode s).length = s.byteLength := by
  induction s with
  | nil => rfl
  | cons c s ih =>
    simp only [encode, List.flatMap_cons, List.length_append, Text.byteLength_cons] at ih ⊢
    rw [ih, String.length_utf8EncodeChar]

/-! ## Reading -/

/-- What stands for bytes that form no character. -/
def replacement : Char := Char.ofNat 0xFFFD

/-- A character that has been begun: the value of the bits read so far, how many bytes are
missing, and the bounds of the next one. -/
structure Begun where
  value : Nat
  missing : Nat
  low : Nat
  high : Nat
deriving DecidableEq, Repr

/-- What a byte can be where a character starts. -/
inductive Lead where
  /-- a character by itself -/
  | whole (c : Char)
  /-- the first byte of a longer character -/
  | opens (b : Begun)
  /-- no first byte -/
  | stray
deriving DecidableEq, Repr

/-- The first bytes. The bounds of the second byte keep out overlong forms, surrogates and values
past the last code point. -/
def Lead.ofByte (b : UInt8) : Lead :=
  let n := b.toNat
  if n < 0x80 then .whole (Char.ofNat n)
  else if n < 0xC2 then .stray
  else if n < 0xE0 then .opens ⟨n - 0xC0, 1, 0x80, 0xBF⟩
  else if n = 0xE0 then .opens ⟨0, 2, 0xA0, 0xBF⟩
  else if n = 0xED then .opens ⟨0xD, 2, 0x80, 0x9F⟩
  else if n < 0xF0 then .opens ⟨n - 0xE0, 2, 0x80, 0xBF⟩
  else if n = 0xF0 then .opens ⟨0, 3, 0x90, 0xBF⟩
  else if n < 0xF4 then .opens ⟨n - 0xF0, 3, 0x80, 0xBF⟩
  else if n = 0xF4 then .opens ⟨4, 3, 0x80, 0x8F⟩
  else .stray

/-- A byte where a character starts: the characters it completes, and the one it begins. -/
def start (b : UInt8) : Text × Option Begun :=
  match Lead.ofByte b with
  | .whole c => ([c], none)
  | .opens g => ([], some g)
  | .stray => ([replacement], none)

/-- One byte. A begun character either goes on with it or is given up, and in the second case the
byte starts anew. -/
def step : Option Begun → UInt8 → Text × Option Begun
  | none, b => start b
  | some g, b =>
    if g.low ≤ b.toNat ∧ b.toNat ≤ g.high then
      let value := g.value * 64 + (b.toNat - 0x80)
      if g.missing = 1 then ([Char.ofNat value], none)
      else ([], some ⟨value, g.missing - 1, 0x80, 0xBF⟩)
    else
      let (out, next) := start b
      (replacement :: out, next)

/-- Reads on from a character that may have been begun. -/
def decodeFrom : Option Begun → Bytes → Text
  | none, [] => []
  | some _, [] => [replacement]
  | state, b :: bs =>
    let (out, next) := step state b
    out ++ decodeFrom next bs

/-- The text of any bytes whatever. -/
def decode (bytes : Bytes) : Text := decodeFrom none bytes

end ModemLink.Utf8
