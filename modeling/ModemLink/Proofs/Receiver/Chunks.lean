/-
Bytes as they arrive, in chunks.

A link hands over what it has got so far, so where one chunk ends and the next one begins says
nothing about the lines in them: a cut may fall between the two bytes of a terminator, into a
character, into a line that continues an event or into one that is being thrown away.

A chunk is taken in two passes. The whole of it is framed, and only then is dealt with what the
framer has handed out, one item after the other. `Receiver.feed` has one pass and deals with a line
before it looks at the byte behind it. That the two come to the same, and that cuts do not matter,
rests on one fact: neither pass reads what the other one writes. Framing is a matter of the framer
alone, and what an item does has nothing to do with the framer (`handleAll_framer`).
-/
import ModemLink.Proofs.Receiver.Lines

set_option autoImplicit false

namespace ModemLink.Receiver

open ModemLink

variable {ε : Type}

/-! ## One chunk -/

/-- Takes a chunk in: all of it is framed before the first item is dealt with. -/
def takeChunk (r : Receiver ε) (chunk : Bytes) : Receiver ε × List (Output ε) :=
  ({ r with framer := (r.framer.feed chunk).1 } : Receiver ε).handleAll (r.framer.feed chunk).2

/-- Dealing with the items leaves the framer where the chunk has taken it. -/
theorem takeChunk_framer (r : Receiver ε) (chunk : Bytes) :
    (r.takeChunk chunk).1.framer = (r.framer.feed chunk).1 :=
  (handleAll_fixed _ _).2.2

/-- **Two passes are one.** -/
theorem takeChunk_eq_feed (r : Receiver ε) (chunk : Bytes) : r.takeChunk chunk = r.feed chunk := by
  rw [takeChunk, handleAll_framer, feed_eq_handleAll]

/-- The items of a chunk do the same whatever the framer has gone on to. -/
theorem handleAll_takeChunk (r : Receiver ε) (chunk : Bytes) (f : Framer) :
    ({ r with framer := f } : Receiver ε).handleAll (r.framer.feed chunk).2
      = ({ (r.takeChunk chunk).1 with framer := f }, (r.takeChunk chunk).2) := by
  simp only [takeChunk, handleAll_framer]

/-- **A cut does not matter.** The items of the first piece are dealt with before the second piece
is framed, or after it; the framer stands at the cut in either case. -/
theorem takeChunk_append (r : Receiver ε) (a b : Bytes) :
    r.takeChunk (a ++ b)
      = (((r.takeChunk a).1.takeChunk b).1,
        (r.takeChunk a).2 ++ ((r.takeChunk a).1.takeChunk b).2) := by
  have hcut : (r.takeChunk a).1.framer = (r.framer.feed a).1 := takeChunk_framer r a
  have hframed : r.framer.feed (a ++ b)
      = (((r.takeChunk a).1.framer.feed b).1,
        (r.framer.feed a).2 ++ ((r.takeChunk a).1.framer.feed b).2) := by
    rw [Framer.feed_append, hcut]
  calc r.takeChunk (a ++ b)
      = ({ r with framer := ((r.takeChunk a).1.framer.feed b).1 } : Receiver ε).handleAll
          ((r.framer.feed a).2 ++ ((r.takeChunk a).1.framer.feed b).2) := by
        rw [takeChunk, hframed]
    _ = (((r.takeChunk a).1.takeChunk b).1,
          (r.takeChunk a).2 ++ ((r.takeChunk a).1.takeChunk b).2) := by
        rw [handleAll_append, handleAll_takeChunk]
        rfl

/-! ## Chunks in a row -/

/-- Takes chunks in one after the other and collects what they produce. -/
def takeChunks : Receiver ε → List Bytes → Receiver ε × List (Output ε)
  | r, [] => (r, [])
  | r, chunk :: chunks =>
    let (r', out) := r.takeChunk chunk
    let (r'', outs) := r'.takeChunks chunks
    (r'', out ++ outs)

/-- **Chunking does not matter.** However bytes are cut into chunks, empty ones included, and
whatever state the receive path is in, taking in the chunks one after the other produces what
taking in all bytes at once produces, and ends in the same state; and so does taking the bytes one
by one. -/
theorem chunking_irrelevant (r : Receiver ε) (chunks : List Bytes) :
    r.takeChunks chunks = r.takeChunk chunks.flatten
      ∧ r.takeChunk chunks.flatten = r.feed chunks.flatten := by
  refine ⟨?_, takeChunk_eq_feed r chunks.flatten⟩
  induction chunks generalizing r with
  | nil => rfl
  | cons chunk chunks ih =>
    rw [List.flatten_cons, takeChunk_append, ← ih]
    rfl

end ModemLink.Receiver
