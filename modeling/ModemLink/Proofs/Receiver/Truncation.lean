/-
What the flag of a reply says.

A reply is gathered in pieces. Each piece is cut to the room that is left, and the flag is set when one is
cut. The flag says exactly whether the reply differs from everything that was said: what is cut loses a
character at least, and no piece that comes later makes up for it, since none adds more than itself. So it
is lengths, and not contents, that carry the argument.

The pieces are cut in their bytes, by going back from the room that is left to the last boundary of
characters. `RawBody` is the reply as it is gathered that way. The way back never leads below zero, and the
bytes are those of the reply, so they are the form of a text whatever was cut.
-/
import ModemLink.Proofs.Receiver.Capacity
import ModemLink.Proofs.Text.Boundary

set_option autoImplicit false

namespace ModemLink

/-! ## Pieces -/

/-- The pieces in which the lines of a reply are added: the first line without the repeated name, and a
line break in front of each other line. -/
def replyPieces (name : Text) : List Text → List Text
  | [] => []
  | first :: more => Body.firstLine name first :: more.flatMap fun text => [['\n'], text]

/-- The pieces are everything that was said. -/
theorem flatten_replyPieces (name : Text) (texts : List Text) :
    (replyPieces name texts).flatten = fullReply name texts := by
  have hmore (more : List Text) :
      (more.flatMap fun text => [['\n'], text]).flatten = more.flatMap ('\n' :: ·) := by
    induction more with
    | nil => rfl
    | cons text more ih =>
      rw [List.flatMap_cons, List.flatten_append, ih, List.flatMap_cons]
      simp only [List.flatten_cons, List.flatten_nil, List.append_nil, List.singleton_append]
  cases texts with
  | nil => rfl
  | cons first more => rw [replyPieces, List.flatten_cons, hmore, fullReply]

/-- Adds pieces one after the other. -/
def Body.pushAll (capacity : Nat) (pieces : List Text) (b : Body) : Body :=
  pieces.foldl (fun b piece => b.push capacity piece) b

/-- Lines behind the first one are two pieces each. -/
theorem Pending.gather_more_body (capacity : Nat) (texts : List Text) {p : Pending}
    (h : p.lines ≠ 0) :
    (p.gather capacity texts).body
      = p.body.pushAll capacity (texts.flatMap fun text => [['\n'], text]) := by
  induction texts generalizing p with
  | nil => rfl
  | cons text texts ih =>
    have hbody : (p.append capacity text).body
        = (p.body.push capacity ['\n']).push capacity text := by
      unfold append
      rw [if_neg h]
    have hnext := ih (p := p.append capacity text) (Nat.succ_ne_zero _)
    rw [hbody] at hnext
    exact hnext

/-- **A reply is gathered in its pieces.** -/
theorem Pending.gather_body (capacity : Nat) (texts : List Text) {p : Pending} (h : p.lines = 0) :
    (p.gather capacity texts).body = p.body.pushAll capacity (replyPieces p.name texts) := by
  cases texts with
  | nil => rfl
  | cons first more =>
    have hbody : (p.append capacity first).body
        = p.body.push capacity (Body.firstLine p.name first) := by
      unfold append
      rw [if_pos h]
    have hmore := gather_more_body capacity more (p := p.append capacity first) (Nat.succ_ne_zero _)
    rw [hbody] at hmore
    exact hmore

/-! ## The flag -/

/-- **An honest reply** to what was said: it is within the capacity, it is all of that while the flag is
not set, and it is shorter once the flag is set. -/
structure Body.Honest (capacity : Nat) (full : Text) (b : Body) : Prop where
  fits : b.text.byteLength ≤ capacity
  whole : b.truncated = false → b.text = full
  shorter : b.truncated = true → b.text.length < full.length

namespace Body

variable {capacity : Nat} {full : Text} {b : Body}

theorem honest_empty (capacity : Nat) : Honest capacity [] {} :=
  ⟨Nat.zero_le _, fun _ => rfl, nofun⟩

/-- No more is added than there is room for. -/
theorem byteLength_push_le (h : b.text.byteLength ≤ capacity) (more : Text) :
    (b.push capacity more).text.byteLength ≤ capacity := by
  have hmore := Text.byteLength_fitting_le (capacity - b.text.byteLength) more
  rw [push_text, Text.byteLength_append]
  omega

/-- **One more piece** keeps a reply honest. -/
theorem Honest.push (h : b.Honest capacity full) (more : Text) :
    (b.push capacity more).Honest capacity (full ++ more) := by
  refine ⟨byteLength_push_le h.fits more, ?_, ?_⟩
  · -- the flag is not set, so nothing was cut before, and this piece was not cut either
    intro hflag
    unfold Body.push at hflag ⊢
    by_cases hroom : more.byteLength ≤ capacity - b.text.byteLength
    · simp only [if_pos hroom] at hflag ⊢
      rw [h.whole hflag]
    · simp only [if_neg hroom] at hflag
      cases hflag
  · intro hflag
    unfold Body.push at hflag ⊢
    by_cases hroom : more.byteLength ≤ capacity - b.text.byteLength
    · simp only [if_pos hroom] at hflag ⊢
      have hshorter := h.shorter hflag
      rw [List.length_append, List.length_append]
      omega
    · simp only [if_neg hroom]
      -- this piece was cut, and what was there before is no longer than it should be
      obtain ⟨c, rest, hcut, -⟩ := Text.exists_of_lt (Nat.lt_of_not_le hroom)
      have hlength := congrArg List.length hcut
      have hbefore : b.text.length ≤ full.length := by
        cases hset : b.truncated with
        | false => exact Nat.le_of_eq (congrArg List.length (h.whole hset))
        | true => exact Nat.le_of_lt (h.shorter hset)
      rw [List.length_append, List.length_cons] at hlength
      rw [List.length_append, List.length_append]
      omega

theorem Honest.pushAll (h : b.Honest capacity full) (pieces : List Text) :
    (b.pushAll capacity pieces).Honest capacity (full ++ pieces.flatten) := by
  induction pieces generalizing b full with
  | nil =>
    rw [List.flatten_nil, List.append_nil]
    exact h
  | cons piece pieces ih =>
    rw [List.flatten_cons, ← List.append_assoc]
    exact ih (h.push piece)

/-- **The flag of an honest reply** is set exactly if the reply is not all that was said. -/
theorem Honest.truncated_iff (h : b.Honest capacity full) : b.truncated = true ↔ b.text ≠ full := by
  constructor
  · rintro hflag rfl
    exact Nat.lt_irrefl _ (h.shorter hflag)
  · intro hne
    by_contra hflag
    exact hne (h.whole (Bool.eq_false_iff.mpr hflag))

end Body

/-! ## In bytes -/

/-- A reply as the bytes that are kept of it. -/
structure RawBody where
  bytes : Bytes := []
  truncated : Bool := false
deriving DecidableEq, Repr

namespace RawBody

/-- Adds bytes, up to the last boundary of characters within the room that is left. Yields nothing if
looking for it leads below zero. -/
def push? (capacity : Nat) (more : Bytes) (b : RawBody) : Option RawBody :=
  let room := capacity - b.bytes.length
  if more.length ≤ room then some { b with bytes := b.bytes ++ more }
  else (Utf8.boundaryBefore? more room).map fun cut => ⟨b.bytes ++ more.take cut, true⟩

/-- Adds pieces one after the other. -/
def pushAll? (capacity : Nat) (pieces : List Bytes) (b : RawBody) : Option RawBody :=
  pieces.foldlM (fun b piece => b.push? capacity piece) b

end RawBody

namespace Body

/-- The bytes of a reply. -/
def raw (b : Body) : RawBody := ⟨Utf8.encode b.text, b.truncated⟩

/-- **Cutting bytes is cutting characters.** The boundary is found, and what stands before it is the
longest beginning of the piece that fits. -/
theorem raw_push? (capacity : Nat) (more : Text) (b : Body) :
    b.raw.push? capacity (Utf8.encode more) = some (b.push capacity more).raw := by
  unfold RawBody.push? raw Body.push
  simp only [Utf8.length_encode]
  by_cases hroom : more.byteLength ≤ capacity - b.text.byteLength
  · simp only [if_pos hroom, Utf8.encode_append]
  · have hbegins := (Text.isLongestFit_fitting (capacity - b.text.byteLength) more).begins
    simp only [if_neg hroom, Utf8.boundaryBefore?_encode, Option.map_some, Utf8.take_encode hbegins,
      Utf8.encode_append]

theorem raw_pushAll? (capacity : Nat) (pieces : List Text) (b : Body) :
    b.raw.pushAll? capacity (pieces.map Utf8.encode) = some (b.pushAll capacity pieces).raw := by
  induction pieces generalizing b with
  | nil => rfl
  | cons piece pieces ih =>
    unfold RawBody.pushAll?
    rw [List.map_cons, List.foldlM_cons, raw_push?]
    exact ih (b.push capacity piece)

end Body

/-! ## The tracker -/

/-- **The flag says whether anything is missing.** A command is begun and lines are added to its reply.
Whatever the capacity and whatever the lines, the bytes of the reply are within the capacity and those of a
text, each search for a boundary ends at one, and the flag is set exactly if the reply is not everything
that was said. A terminal status ends the command with this reply and this flag. -/
theorem truncated_iff_reply_differs (capacity next : Nat) (separators : List Char) (command : Text)
    (texts : List Text) :
    let name := Command.name separators command
    ∃ begun p, ({ capacity := capacity, next := next } : Tracker).begin separators command
        = .ok (next, begun)
      ∧ (texts.foldl Tracker.append begun).current = some p
      ∧ RawBody.pushAll? capacity ((replyPieces name texts).map Utf8.encode) {}
        = some ⟨Utf8.encode p.body.text, p.body.truncated⟩
      ∧ (Utf8.encode p.body.text).length ≤ capacity
      ∧ (p.body.truncated = true ↔ p.body.text ≠ fullReply name texts)
      ∧ ∀ status failure, (texts.foldl Tracker.append begun).resolve? status failure
        = if status.isTerminal then
            some (⟨next, name, status, p.body.text, p.body.truncated, failure⟩,
              { capacity := capacity, next := next + 1 })
          else none := by
  intro name
  have hbegin : ({ capacity := capacity, next := next } : Tracker).begin separators command
      = .ok (next, { capacity := capacity, current := some ⟨next, name, {}, 0⟩, next := next + 1 }) :=
    rfl
  obtain ⟨p, hp⟩ : ∃ p, p = Pending.gather capacity texts ⟨next, name, {}, 0⟩ := ⟨_, rfl⟩
  have hgathered : texts.foldl Tracker.append
        { capacity := capacity, current := some ⟨next, name, {}, 0⟩, next := next + 1 }
      = { capacity := capacity, current := some p, next := next + 1 } := by
    rw [hp]
    exact Tracker.foldl_append_eq rfl texts
  obtain ⟨hnumber, hname⟩ : p.number = next ∧ p.name = name := by
    rw [hp]
    exact Pending.gather_fixed capacity texts _
  have hbody : p.body = Body.pushAll capacity (replyPieces name texts) {} := by
    rw [hp]
    exact Pending.gather_body capacity texts rfl
  have hhonest : p.body.Honest capacity (fullReply name texts) := by
    rw [hbody, ← flatten_replyPieces]
    exact (Body.honest_empty capacity).pushAll _
  refine ⟨_, p, hbegin, congrArg Tracker.current hgathered, ?_, ?_, hhonest.truncated_iff,
    fun status failure => ?_⟩
  · rw [hbody]
    exact Body.raw_pushAll? capacity (replyPieces name texts) {}
  · rw [Utf8.length_encode]
    exact hhonest.fits
  · rw [hgathered, ← hnumber, ← hname]
    rfl

/-- An empty line behind a reply that fills the capacity is missed by its line break. -/
example : Pending.gather 3 ["X: abc", ""] ⟨1, "X", {}, 0⟩ = ⟨1, "X", ⟨"abc", true⟩, 2⟩ := by decide

end ModemLink
