/-
Text and bytes, as every other module sees them.

Text is the list of its characters. Lines, tokens and command names are short, and what is done
to them is always one of four things: trim, compare a head, cut after a head, split at a
separator. Each of these is a structural recursion here, so that nothing later has to speak of
positions.

Two lengths occur. `List.length` counts characters; `byteLength` counts the bytes of the UTF-8
form, and is what capacities are measured in.
-/
set_option autoImplicit false

namespace ModemLink

/-- Text is its characters, in order. -/
abbrev Text := List Char

/-- Raw bytes, as they travel over a link. -/
abbrev Bytes := List UInt8

/-- A string literal stands for its characters. -/
instance : Coe String Text := ⟨String.toList⟩

namespace Text

/-! ## Lengths -/

/-- The number of bytes in the UTF-8 form. -/
def byteLength : Text → Nat
  | [] => 0
  | c :: s => c.utf8Size + byteLength s

@[simp] theorem byteLength_nil : byteLength [] = 0 := rfl

@[simp] theorem byteLength_cons (c : Char) (s : Text) :
    byteLength (c :: s) = c.utf8Size + byteLength s := rfl

@[simp] theorem byteLength_append (s t : Text) :
    byteLength (s ++ t) = byteLength s + byteLength t := by
  induction s with
  | nil => simp
  | cons c s ih => rw [List.cons_append, byteLength_cons, byteLength_cons, ih, Nat.add_assoc]

/-- The longest beginning of the text that fits into `room` bytes without cutting a character. -/
def fitting : Nat → Text → Text
  | _, [] => []
  | room, c :: s => if c.utf8Size ≤ room then c :: fitting (room - c.utf8Size) s else []

/-- What fits, fits. -/
theorem byteLength_fitting_le (room : Nat) (s : Text) : byteLength (fitting room s) ≤ room := by
  induction s generalizing room with
  | nil => simp [fitting]
  | cons c s ih =>
    by_cases h : c.utf8Size ≤ room
    · have := ih (room - c.utf8Size)
      simp only [fitting, if_pos h, byteLength_cons]
      omega
    · simp [fitting, h]

/-! ## Blanks -/

/-- The inclusive ranges of the Unicode property `White_Space`. -/
def blankRanges : List (Nat × Nat) :=
  [(0x09, 0x0D), (0x20, 0x20), (0x85, 0x85), (0xA0, 0xA0), (0x1680, 0x1680), (0x2000, 0x200A),
   (0x2028, 0x2029), (0x202F, 0x202F), (0x205F, 0x205F), (0x3000, 0x3000)]

/-- Whether a code point lies in one of the inclusive ranges. -/
def inRanges (ranges : List (Nat × Nat)) (n : Nat) : Bool :=
  ranges.any fun r => r.1 ≤ n && n ≤ r.2

/-- A blank is a character with the Unicode property `White_Space`. -/
def isBlank (c : Char) : Bool := inRanges blankRanges c.toNat

/-- The text without its leading blanks. -/
def trimStart (s : Text) : Text := s.dropWhile isBlank

/-- The text without its trailing blanks. -/
def trimEnd (s : Text) : Text := (s.reverse.dropWhile isBlank).reverse

/-- The text without the blanks at either end. -/
def trim (s : Text) : Text := trimEnd (trimStart s)

/-! ## Heads -/

/-- What is left of a text after `head`, which has to stand at its start exactly. -/
def after? : (head text : Text) → Option Text
  | [], s => some s
  | _ :: _, [] => none
  | h :: hs, c :: s => if h = c then after? hs s else none

/-- What is left of a text after `head`, which has to stand at its start up to the case of ASCII
letters. -/
def afterFolded? : (head text : Text) → Option Text
  | [], s => some s
  | _ :: _, [] => none
  | h :: hs, c :: s => if h.toLower = c.toLower then afterFolded? hs s else none

/-- Whether two texts are the same up to the case of ASCII letters. -/
def equalFolded (s t : Text) : Bool := s.map Char.toLower == t.map Char.toLower

/-- `after?` answers exactly when the text is the head and something more. -/
theorem after?_eq_some_iff {head text rest : Text} :
    after? head text = some rest ↔ text = head ++ rest := by
  induction head generalizing text with
  | nil => simp [after?, eq_comm]
  | cons h hs ih =>
    cases text with
    | nil => simp [after?]
    | cons c s =>
      by_cases hc : h = c
      · simp [after?, hc, ih]
      · simp [after?, hc, Ne.symm hc]

/-- `afterFolded?` cuts off as many characters as the head has, and these are the head's up to
case. -/
theorem afterFolded?_eq_some_iff {head text rest : Text} :
    afterFolded? head text = some rest ↔
      ∃ front, text = front ++ rest ∧ front.map Char.toLower = head.map Char.toLower := by
  induction head generalizing text with
  | nil => simp [afterFolded?, eq_comm]
  | cons h hs ih =>
    cases text with
    | nil => simp [afterFolded?]
    | cons c s =>
      by_cases hc : h.toLower = c.toLower
      · simp only [afterFolded?, if_pos hc, ih]
        constructor
        · rintro ⟨front, rfl, hf⟩
          exact ⟨c :: front, rfl, by simp [hf, hc]⟩
        · rintro ⟨front, hs', hf⟩
          cases front with
          | nil => simp at hf
          | cons d front =>
            simp only [List.cons_append, List.cons.injEq] at hs'
            simp only [List.map_cons, List.cons.injEq] at hf
            exact ⟨front, hs'.2, hf.2⟩
      · simp only [afterFolded?, if_neg hc]
        constructor
        · simp
        · rintro ⟨front, hs', hf⟩
          cases front with
          | nil => simp at hf
          | cons d front =>
            simp only [List.cons_append, List.cons.injEq] at hs'
            simp only [List.map_cons, List.cons.injEq] at hf
            exact absurd (hs'.1 ▸ hf.1).symm hc

/-! ## Words and separators -/

/-- The characters a command name is made of: ASCII letters, digits and the underscore. -/
def isWordChar (c : Char) : Bool := c.isAlphanum || c == '_'

/-- The punctuation of ASCII. -/
def isPunctuation (c : Char) : Bool :=
  inRanges [(0x21, 0x2F), (0x3A, 0x40), (0x5B, 0x60), (0x7B, 0x7E)] c.toNat

/-- The text before and after the first occurrence of a character, if it occurs. -/
def splitFirst? (mark : Char) : Text → Option (Text × Text)
  | [] => none
  | c :: s =>
    if c = mark then some ([], s) else (splitFirst? mark s).map fun p => (c :: p.1, p.2)

/-- The non-empty runs of characters between separators. -/
def fields (isSeparator : Char → Bool) : Text → List Text
  | [] => []
  | c :: s =>
    if isSeparator c then fields isSeparator s
    else match s with
      | [] => [[c]]
      | d :: _ =>
        if isSeparator d then [c] :: fields isSeparator s
        else match fields isSeparator s with
          | [] => [[c]]
          | f :: fs => (c :: f) :: fs

end Text

end ModemLink
