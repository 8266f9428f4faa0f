/-
Lines cut at byte offsets.

Whether a line begins with a token, up to the case of ASCII letters, can be seen in its bytes without looking
at its characters, and what follows the token begins at a byte offset: as far into the line as the token is
long. The test must not be taken in by bytes that merely look alike, and the cut must not go through a
character.

Both hold because the form of a character shows where it ends. Bytes that begin with the form of a text are
the form of a text that begins so (`encode_prefix_iff`), and writing letters small changes no byte outside
ASCII (`map_lowered_encode`). So a text that passes the test begins with characters of the token, and there is
a boundary behind them.

The name of a command, the kind of a line, the repeated name and the first line of a reply are each given
here as they are found by offsets, where a cut may fail. None does, and what is found is the same.
-/
import Mathlib
import ModemLink.Pending
import ModemLink.Proofs.Text.Boundary
import ModemLink.Proofs.Line.Confirmation

set_option autoImplicit false

namespace ModemLink

namespace Utf8

/-! ## Bytes -/

/-- The small form of an ASCII letter; any other byte as it is. -/
def lowered (b : UInt8) : UInt8 := if 65 ≤ b.toNat ∧ b.toNat ≤ 90 then b + 32 else b

/-- **The test on bytes:** they are not fewer than those of the head, and as many of them as it has are
the same up to the case of ASCII letters. -/
def heads (head bytes : Bytes) : Bool :=
  head.length ≤ bytes.length && (bytes.take head.length).map lowered == head.map lowered

/-- **The cut at an offset.** It fails past the end, and inside a character. -/
def from? (i : Nat) (bytes : Bytes) : Option Bytes :=
  if isBoundary bytes i then some (bytes.drop i) else none

theorem heads_iff {head bytes : Bytes} :
    heads head bytes = true ↔ head.map lowered <+: bytes.map lowered := by
  unfold heads
  rw [Bool.and_eq_true, decide_eq_true_iff, beq_iff_eq, List.prefix_iff_eq_take, List.length_map,
    ← List.map_take]
  constructor
  · rintro ⟨-, h⟩
    exact h.symm
  · intro h
    refine ⟨?_, h.symm⟩
    have hlength := congrArg List.length h
    rw [List.length_map, List.length_map, List.length_take] at hlength
    omega

/-! ## Characters -/

/-- **Writing a letter small** changes its one byte, and no byte of any other character. -/
theorem map_lowered_encodeChar (c : Char) :
    (String.utf8EncodeChar c).map lowered = String.utf8EncodeChar c.toLower := by
  by_cases hc : c.toNat < 0x80
  · have hascii : ∀ n < 128, (String.utf8EncodeChar (Char.ofNat n)).map lowered
        = String.utf8EncodeChar (Char.ofNat n).toLower := by decide
    have hsmall := hascii c.toNat hc
    rw [Char.ofNat_toNat] at hsmall
    exact hsmall
  · -- no byte of the character is one of ASCII, and it is no letter with another form
    have hhigh : 0x80 ≤ c.toNat := Nat.le_of_not_lt hc
    have hbytes : ∀ b ∈ String.utf8EncodeChar c, lowered b = b := by
      intro b hb
      have hlow := le_of_mem_encodeChar hhigh hb
      exact if_neg (by omega)
    rw [Text.toLower_of_not_ascii hhigh, List.map_congr_left hbytes, List.map_id']

theorem map_lowered_encode (s : Text) : (encode s).map lowered = encode s.folded := by
  induction s with
  | nil => rfl
  | cons c s ih =>
    rw [encode_cons, List.map_append, map_lowered_encodeChar, ih, Text.folded_cons, encode_cons]

/-- What follows the form of a text is read as if it stood alone. -/
theorem decode_encode_append (s : Text) (rest : Bytes) :
    decode (encode s ++ rest) = s ++ decode rest := by
  unfold decode
  induction s with
  | nil => rfl
  | cons c s ih => rw [encode_cons, List.append_assoc, decodeFrom_encodeChar, ih, List.cons_append]

/-- **No text looks like the beginning of another one** without being it. -/
theorem encode_prefix_iff {s t : Text} : encode s <+: encode t ↔ s <+: t := by
  constructor
  · rintro ⟨rest, hrest⟩
    -- the bytes behind the form need not be a text by themselves, but they are read as one
    refine ⟨decode rest, ?_⟩
    rw [← decode_encode_append, hrest, decode_encode]
  · rintro ⟨rest, rfl⟩
    rw [encode_append]
    exact List.prefix_append _ _

end Utf8

namespace Text

/-- Whether a text begins with another one, by the test on bytes. -/
def headsByBytes (head s : Text) : Bool := Utf8.heads (Utf8.encode head) (Utf8.encode s)

/-- The text from a byte offset on, if it can be cut there. -/
def from? (i : Nat) (s : Text) : Option Text := (Utf8.from? i (Utf8.encode s)).map Utf8.decode

/-- **The test on bytes is the comparison of characters.** -/
theorem headsByBytes_iff {head s : Text} : headsByBytes head s = true ↔ BeginsFolded head s := by
  unfold headsByBytes
  rw [Utf8.heads_iff, Utf8.map_lowered_encode, Utf8.map_lowered_encode, Utf8.encode_prefix_iff]
  unfold BeginsFolded folded
  constructor
  · rintro ⟨rest, hrest⟩
    obtain ⟨front, back, rfl, hfront, -⟩ := List.map_eq_append_iff.mp hrest.symm
    exact ⟨front, List.prefix_append front back, beq_iff_eq.mpr hfront⟩
  · rintro ⟨front, ⟨rest, rfl⟩, hfront⟩
    rw [← beq_iff_eq.mp hfront, List.map_append]
    exact List.prefix_append _ _

/-- Behind a beginning of the text there is always a cut. -/
theorem from?_append (front rest : Text) : from? front.byteLength (front ++ rest) = some rest := by
  have hboundary : Utf8.isBoundary (Utf8.encode (front ++ rest)) front.byteLength = true :=
    (Utf8.isBoundary_encode_iff _ _).mpr ⟨front, List.prefix_append front rest, rfl⟩
  unfold from? Utf8.from?
  rw [if_pos hboundary, Utf8.encode_append, ← Utf8.length_encode, List.drop_left, Option.map_some,
    Utf8.decode_encode]

theorem from?_cons (c : Char) (s : Text) : from? c.utf8Size (c :: s) = some s := from?_append [c] s

/-- A cut that is made is made at a boundary. -/
theorem isBoundary_of_from? {i : Nat} {s rest : Text} (h : from? i s = some rest) :
    Utf8.isBoundary (Utf8.encode s) i = true := by
  obtain ⟨bytes, hbytes, -⟩ := Option.map_eq_some_iff.mp h
  unfold Utf8.from? at hbytes
  split at hbytes
  · assumption
  · cases hbytes

/-! ## Behind a head -/

theorem headsByBytes_eq_isSome (head s : Text) : headsByBytes head s = (afterFolded? head s).isSome := by
  rw [Bool.eq_iff_iff, headsByBytes_iff, isSome_afterFolded?_iff]

/-- **The cut behind a head** is as far into the text as the head is long. -/
theorem from?_of_follows {head s rest : Text} (h : FollowsFolded head s rest) :
    from? head.byteLength s = some rest := by
  obtain ⟨front, rfl, hfolded⟩ := h
  rw [← byteLength_eq_of_equalFolded hfolded]
  exact from?_append front rest

theorem from?_of_afterFolded? {head s rest : Text} (h : afterFolded? head s = some rest) :
    from? head.byteLength s = some rest :=
  from?_of_follows (afterFolded?_eq_some_iff_follows.mp h)

/-- Where the test succeeds, the cut does. -/
theorem isBoundary_of_headsByBytes {head s : Text} (h : headsByBytes head s = true) :
    Utf8.isBoundary (Utf8.encode s) head.byteLength = true := by
  obtain ⟨rest, hfollows⟩ := beginsFolded_iff.mp (headsByBytes_iff.mp h)
  exact isBoundary_of_from? (from?_of_follows hfollows)

/-! ## The repeated name -/

/-- Whether a text repeats a name, by offsets. -/
def namesCommandByOffsets? (text name : Text) : Option Bool :=
  if name.isEmpty || !headsByBytes name text then some false
  else (from? name.byteLength text).map fun rest =>
    match rest with
    | [] => true
    | c :: _ => !isWordChar c

theorem namesCommandByOffsets?_eq (text name : Text) :
    namesCommandByOffsets? text name = some (namesCommand text name) := by
  unfold namesCommandByOffsets? namesCommand
  rw [headsByBytes_eq_isSome]
  cases name.isEmpty with
  | true => rfl
  | false =>
    cases hafter : afterFolded? name text with
    | none => rfl
    | some rest =>
      simp only [Option.isSome_some, Bool.not_true, Bool.or_false, Bool.not_false, Bool.true_and,
        Bool.false_eq_true, if_false, from?_of_afterFolded? hafter, Option.map_some]
      cases rest <;> rfl

/-! ## The longest token -/

/-- The text with the most bytes, the last of those that have as many. -/
def longest? (texts : List Text) : Option Text := texts.reverse.argmax byteLength

theorem longest?_eq_none_iff {texts : List Text} : longest? texts = none ↔ texts = [] := by
  unfold longest?
  rw [List.argmax_eq_none, List.reverse_eq_nil_iff]

theorem of_longest?_eq_some {texts : List Text} {s : Text} (h : longest? texts = some s) :
    s ∈ texts ∧ ∀ t ∈ texts, t.byteLength ≤ s.byteLength := by
  refine ⟨List.mem_reverse.mp (List.argmax_mem h), fun t ht => ?_⟩
  exact List.le_of_mem_argmax (List.mem_reverse.mpr ht) h

end Text

/-! ## The name of a command -/

namespace Command

open Text

/-- The text after one leading separator, by offsets. -/
def dropSeparatorByOffsets? (separators : List Char) (s : Text) : Option Text :=
  match s with
  | [] => some []
  | c :: _ => if c ∈ separators then from? c.utf8Size s else some s

theorem dropSeparatorByOffsets?_eq (separators : List Char) (s : Text) :
    dropSeparatorByOffsets? separators s = some (dropSeparator separators s) := by
  cases s with
  | nil => rfl
  | cons c s =>
    unfold dropSeparatorByOffsets? dropSeparator
    simp only [from?_cons]
    split <;> rfl

/-- The name of a command, by offsets. `AT` is two bytes long. -/
def nameByOffsets? (separators : List Char) (command : Text) : Option Text :=
  let text := trimStart command
  if headsByBytes "AT" text then
    ((from? 2 text).bind (dropSeparatorByOffsets? separators)).map fun word =>
      (word.takeWhile isWordChar).take nameLimit
  else some []

theorem nameByOffsets?_eq (separators : List Char) (command : Text) :
    nameByOffsets? separators command = some (name separators command) := by
  unfold nameByOffsets? name
  simp only [headsByBytes_eq_isSome]
  cases hafter : afterFolded? "AT".toList (trimStart command) with
  | none => rfl
  | some rest =>
    -- two bytes are the two letters of `AT`
    have hcut : from? 2 (trimStart command) = some rest := from?_of_afterFolded? hafter
    rw [Option.isSome_some, if_pos rfl, hcut, Option.bind_some, dropSeparatorByOffsets?_eq,
      Option.map_some]

end Command

/-! ## The first line of a reply -/

/-- The first line of a reply without the repeated name, by offsets. -/
def Body.firstLineByOffsets? (name text : Text) : Option Text :=
  let behind := if Text.headsByBytes name text then Text.from? name.byteLength text else some text
  behind.map fun rest => rest.dropWhile isSeparator

theorem Body.firstLineByOffsets?_eq (name text : Text) :
    firstLineByOffsets? name text = some (firstLine name text) := by
  unfold firstLineByOffsets? firstLine
  rw [Text.headsByBytes_eq_isSome]
  cases hafter : Text.afterFolded? name text with
  | none => rfl
  | some rest =>
    rw [Option.isSome_some, if_pos rfl, Text.from?_of_afterFolded? hafter]
    rfl

/-! ## What a line is -/

namespace Vocabulary

open Text

variable (v : Vocabulary)

/-- The confirmation that a line is, by offsets. The detail of a failure is behind the longest failure
token. -/
def confirmationByOffsets? (line : Text) : Option (Option (Status × Option Failure)) :=
  match v.extras.find? fun e => headsByBytes e.1 line with
  | some e => some (some (e.2, none))
  | none =>
    if headsByBytes v.success line then some (some (.success, none))
    else
      match longest? (v.failures.filter (headsByBytes · line)) with
      | none => some none
      | some token =>
        (from? token.byteLength line).map fun rest => some (.failure, some (Failure.ofText rest))

/-- What a line is, by offsets. The text of a body or an event is behind the sentinel. -/
def classifyByOffsets? (line : Text) (pending : Option Text) : Option Line :=
  let line := trim line
  (v.confirmationByOffsets? line).bind fun confirmation =>
    match confirmation with
    | some (status, failure) => some (.confirmation status failure)
    | none =>
      match line with
      | [] => some (.plain [])
      | c :: _ =>
        if c ∈ v.sentinels then
          (from? c.utf8Size line).bind fun text =>
            match pending with
            | none => some (.event text)
            | some name =>
              (namesCommandByOffsets? text name).map fun named =>
                if named then .body text else .event text
        else some (.plain line)

variable {v}

/-- The longest of the failure tokens that head the line is the one that decides. -/
theorem isLongestFailure_of_longest? {line token : Text}
    (h : longest? (v.failures.filter (headsByBytes · line)) = some token) :
    ∃ rest, v.IsLongestFailure line token rest := by
  obtain ⟨hmem, hle⟩ := of_longest?_eq_some h
  obtain ⟨hfailure, hheads⟩ := List.mem_filter.mp hmem
  obtain ⟨rest, hfollows⟩ := beginsFolded_iff.mp (headsByBytes_iff.mp hheads)
  refine ⟨rest, hfailure, hfollows, fun other hother hbegins => ?_⟩
  exact hle other (List.mem_filter.mpr ⟨hother, headsByBytes_iff.mpr hbegins⟩)

/-- Without a failure token at its head a line has no detail. -/
theorem failureDetail?_eq_none {line : Text}
    (h : longest? (v.failures.filter (headsByBytes · line)) = none) : v.failureDetail? line = none := by
  rw [longest?_eq_none_iff, List.filter_eq_nil_iff] at h
  unfold failureDetail?
  rw [shortest?_eq_none_iff, List.filterMap_eq_nil_iff]
  intro token htoken
  have hnot := h token htoken
  rw [headsByBytes_iff] at hnot
  exact afterFolded?_eq_none_iff.mpr hnot

theorem confirmationByOffsets?_eq (line : Text) :
    v.confirmationByOffsets? line = some (v.confirmation? line) := by
  unfold confirmationByOffsets? confirmation? extra?
  simp only [headsByBytes_eq_isSome]
  cases v.extras.find? fun e => (afterFolded? e.1 line).isSome with
  | some e => rfl
  | none =>
    simp only [Option.map_none]
    by_cases hsuccess : (afterFolded? v.success line).isSome = true
    · rw [if_pos hsuccess, if_pos hsuccess]
    · rw [if_neg hsuccess, if_neg hsuccess]
      simp only [← headsByBytes_eq_isSome]
      -- the longest failure token leaves the shortest rest, which is what the detail is taken from
      cases hlongest : longest? (v.failures.filter (headsByBytes · line)) with
      | none => rw [failureDetail?_eq_none hlongest, Option.map_none]
      | some token =>
        obtain ⟨rest, hfailure⟩ := isLongestFailure_of_longest? hlongest
        simp only [(failureDetail?_eq_some_iff line rest).mpr ⟨token, hfailure⟩,
          from?_of_follows hfailure.follows, Option.map_some]

theorem classifyByOffsets?_eq (line : Text) (pending : Option Text) :
    v.classifyByOffsets? line pending = some (v.classify line pending) := by
  unfold classifyByOffsets? classify
  simp only [confirmationByOffsets?_eq, Option.bind_some]
  cases v.confirmation? (trim line) with
  | some confirmation => rfl
  | none =>
    cases trim line with
    | nil => rfl
    | cons c text =>
      by_cases hsentinel : c ∈ v.sentinels
      · simp only [if_pos hsentinel, from?_cons, Option.bind_some]
        cases pending with
        | none => rfl
        | some name =>
          simp only [namesCommandByOffsets?_eq, Option.map_some, Option.any_some]
      · simp only [if_neg hsentinel]

end Vocabulary

/-! ## All of them -/

/-- **No cut goes through a character.** The test on bytes succeeds exactly if the text begins, character by
character, with those of the head up to the case of ASCII letters. There is a boundary behind the head then.
Every cut that is made behind a head or a sentinel is at a boundary, for the name of any command, for what any
line is under any vocabulary, for any repeated name and any first line of a reply, and what is found by
offsets is what is found by characters. -/
theorem offsets_on_boundaries (head s : Text) :
    (Text.headsByBytes head s = true
        ↔ ∃ front rest, s = front ++ rest ∧ List.Forall₂ (fun c d => c.toLower = d.toLower) front head)
      ∧ (Text.headsByBytes head s = true → Utf8.isBoundary (Utf8.encode s) head.byteLength = true)
      ∧ (∀ separators command,
        Command.nameByOffsets? separators command = some (Command.name separators command))
      ∧ (∀ (v : Vocabulary) line pending,
        v.classifyByOffsets? line pending = some (v.classify line pending))
      ∧ (∀ text name, Text.namesCommandByOffsets? text name = some (Text.namesCommand text name))
      ∧ ∀ name text, Body.firstLineByOffsets? name text = some (Body.firstLine name text) := by
  refine ⟨?_, Text.isBoundary_of_headsByBytes, Command.nameByOffsets?_eq,
    fun v => v.classifyByOffsets?_eq, Text.namesCommandByOffsets?_eq, Body.firstLineByOffsets?_eq⟩
  rw [Text.headsByBytes_iff, Text.beginsFolded_iff]
  unfold Text.FollowsFolded
  rw [exists_comm]
  refine exists_congr fun front => exists_congr fun rest => and_congr_right fun _ => ?_
  -- equal up to case is equal up to case character by character
  rw [Text.equalFolded_iff, ← List.forall₂_eq_eq_eq]
  exact List.forall₂_map_left_iff.trans List.forall₂_map_right_iff

/-- A failure token of four characters in five bytes: a cut behind its fourth byte would go through the last
character. The cut behind the token does not, and the detail is found. -/
theorem offsets_on_boundaries_accented :
    let v : Vocabulary := { failures := ["+RRÉ"] }
    Text.headsByBytes "+RRÉ" "+rrÉ é€" = true
      ∧ Utf8.isBoundary (Utf8.encode "+rrÉ é€".toList) 5 = true
      ∧ Utf8.isBoundary (Utf8.encode "+rrÉ é€".toList) 4 = false
      ∧ v.classifyByOffsets? "+rrÉ é€" none = some (.confirmation .failure (some ⟨"é€", 0⟩)) := by
  intro v
  have hheads : Text.headsByBytes "+RRÉ" "+rrÉ é€" = true := by decide
  obtain ⟨-, hboundary, -, hclassify, -⟩ := offsets_on_boundaries "+RRÉ" "+rrÉ é€"
  refine ⟨hheads, hboundary hheads, by decide, ?_⟩
  rw [hclassify]
  decide

end ModemLink
