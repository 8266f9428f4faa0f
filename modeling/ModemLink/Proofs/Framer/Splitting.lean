/-
A stream and its lines.

As long as no line is too long, a framer loses nothing: what it has taken in is the lines that it
has handed out, each with the bytes that ended it, and what it still holds of a line that has not
ended. This file says so, and says that there is no other way to cut the stream that keeps to the
rules of framing:

* a line ends at the leftmost terminator behind its start, and the terminator is not part of it;
* where a line would begin with the prompt byte, that byte is a line by itself and nothing ends it,
  unless the byte also begins the terminator, in which case it is no prompt;
* what is left over holds no terminator and does not begin with a prompt.

The first half is an invariant of the framer (`Clean`) with one step lemma. The second half does not
speak of framers at all.
-/
import ModemLink.Proofs.Framer.WireLine

set_option autoImplicit false

namespace ModemLink

/-! ## The rules -/

namespace Framing

/-- **A prompt.** The byte is a line by itself where a line begins with it. A byte that begins the
terminator is none, even where it is set as the prompt. -/
def IsPrompt (g : Framing) (b : UInt8) : Prop :=
  g.prompt = some b ∧ g.terminators.bytes.head? ≠ some b

instance (g : Framing) (b : UInt8) : Decidable (g.IsPrompt b) :=
  inferInstanceAs (Decidable (_ ∧ _))

/-- The bytes that end a line: none behind a prompt, the terminator behind any other line. -/
def ending (g : Framing) : Bytes → Bytes
  | [b] => if g.IsPrompt b then [] else g.terminators.bytes
  | _ => g.terminators.bytes

/-- **A stream cut into lines** and an unfinished rest by the rules of framing. -/
structure Splits (g : Framing) (stream : Bytes) (lines : List Bytes) (rest : Bytes) : Prop where
  /-- nothing is lost, added or moved -/
  stream_eq : stream = lines.flatMap (fun line => line ++ g.ending line) ++ rest
  /-- a line ends at the leftmost terminator -/
  leftmost (line : Bytes) : line ∈ lines → g.terminators.IsWireLine line
  /-- a line that begins with a prompt is the prompt -/
  prompt_alone (line : Bytes) (b : UInt8) : line ∈ lines → g.IsPrompt b → line.head? = some b →
    line = [b]
  /-- no line has ended in the rest -/
  rest_open : ¬ g.terminators.bytes <:+: rest
  /-- the rest is no prompt that still has to be handed out -/
  rest_head (b : UInt8) : g.IsPrompt b → rest.head? ≠ some b

theorem ending_prompt {g : Framing} {b : UInt8} (h : g.IsPrompt b) : g.ending [b] = [] :=
  if_pos h

theorem ending_of_head {g : Framing} {line : Bytes}
    (h : ∀ b, g.IsPrompt b → line.head? ≠ some b) : g.ending line = g.terminators.bytes := by
  unfold ending
  split
  · next b => exact if_neg fun hb => h b hb rfl
  · rfl

end Framing

/-! ## Bytes without a terminator -/

namespace Terminators

theorem bytes_ne_nil (t : Terminators) : t.bytes ≠ [] := by
  cases t <;> exact List.cons_ne_nil _ _

theorem not_infix_nil (t : Terminators) : ¬ t.bytes <:+: [] := by
  rw [List.infix_nil]
  exact t.bytes_ne_nil

/-- One more byte completes a single terminator only if it is one. -/
theorem not_infix_concat_single {last b : UInt8} {u : Bytes}
    (hu : ¬ (single last).bytes <:+: u) (hb : b ≠ last) :
    ¬ (single last).bytes <:+: u ++ [b] := by
  rw [List.infix_concat_iff, List.suffix_concat_iff]
  rintro ((hnil | ⟨front, hfront, -⟩) | hold)
  · exact bytes_ne_nil _ hnil
  · have hlast := congrArg List.getLast? hfront
    rw [List.getLast?_concat] at hlast
    exact hb (Option.some.inj hlast).symm
  · exact hu hold

/-- One more byte completes a pair only if it is the second byte and stands behind the first. -/
theorem not_infix_concat_pair {first second b : UInt8} {u : Bytes}
    (hu : ¬ (pair first second).bytes <:+: u) (hb : u.getLast? = some first → b ≠ second) :
    ¬ (pair first second).bytes <:+: u ++ [b] := by
  rw [List.infix_concat_iff, List.suffix_concat_iff]
  rintro ((hnil | ⟨front, hfront, hsuffix⟩) | hold)
  · exact bytes_ne_nil _ hnil
  · have hparts : [first] ++ [second] = front ++ [b] := hfront
    obtain ⟨hone, hlast⟩ := List.append_inj' hparts rfl
    obtain ⟨before, hbefore⟩ := hsuffix
    refine hb ?_ (List.head_eq_of_cons_eq hlast).symm
    rw [← hbefore, ← hone, List.getLast?_concat]
  · exact hu hold

/-- A line behind which the terminator is missing its last byte still, without holding one, is a
wire line. -/
theorem isWireLine_of_unended {t : Terminators} {line : Bytes}
    (h : ¬ t.bytes <:+: line ++ t.bytes.dropLast) : t.IsWireLine line := by
  intro i hi hprefix
  have hwhole : line ++ t.bytes
      = line ++ t.bytes.dropLast ++ [t.bytes.getLast t.bytes_ne_nil] := by
    rw [List.append_assoc, List.dropLast_concat_getLast]
  have hle : i ≤ (line ++ t.bytes.dropLast).length := by
    rw [List.length_append]
    omega
  rw [hwhole, List.drop_append_of_le_length hle, List.prefix_concat_iff] at hprefix
  rcases hprefix with hall | hshort
  · -- too long for a terminator, since something of the line is in it
    have hlength := congrArg List.length hall
    rw [← List.drop_append_of_le_length hle, ← hwhole, List.length_drop, List.length_append]
      at hlength
    omega
  · exact h (hshort.isInfix.trans (List.drop_suffix i _).isInfix)

/-- Of two wire lines with their terminators at the start of one stream none is the longer one. -/
theorem IsWireLine.length_le {t : Terminators} {line line' more more' : Bytes}
    (hline' : t.IsWireLine line')
    (h : line ++ (t.bytes ++ more) = line' ++ (t.bytes ++ more')) :
    line'.length ≤ line.length := by
  apply Nat.le_of_not_lt
  intro hlt
  have hdrop : (line' ++ t.bytes).drop line.length ++ more' = t.bytes ++ more := by
    rw [← List.drop_append_of_le_length (by rw [List.length_append]; omega), List.append_assoc, ← h,
      List.drop_left]
  apply hline' line.length hlt
  apply List.prefix_of_prefix_length_le (hdrop ▸ List.prefix_append t.bytes more)
    (List.prefix_append _ more')
  rw [List.length_drop, List.length_append]
  omega

end Terminators

/-! ## The framer keeps to the rules -/

namespace Framer

/-- The configuration of a framer. -/
def framing (f : Framer) : Framing := ⟨f.terminators, f.limit, f.prompt⟩

/-- What has come of a line that has not ended: the bytes in the buffer, and the first byte of the
terminator if it is held back. -/
def unended (f : Framer) : Bytes := f.buffer ++ if f.held then f.terminators.bytes.take 1 else []

/-- **A framer that has lost nothing.** It is not throwing a line away, and what has come of the
line is where the rules want it. -/
structure Clean (f : Framer) : Prop where
  discarding_eq : f.discarding = false
  /-- only the first byte of a pair is held back -/
  held_pair : f.held = true → ∃ first second, f.terminators = .pair first second
  /-- no terminator has gone by -/
  unended_open : ¬ f.terminators.bytes <:+: f.unended
  /-- the first byte of a pair is held back if it is the last one that came -/
  last_held (first second : UInt8) : f.held = false → f.terminators = .pair first second →
    f.buffer.getLast? ≠ some first
  /-- no prompt is kept back -/
  unended_head (b : UInt8) : f.framing.IsPrompt b → f.unended.head? ≠ some b

/-- **What one byte comes to,** given the configuration and what has come of the line before it. -/
inductive Moves (g : Framing) (u : Bytes) (b : UInt8) : Framer → Option Framed → Prop where
  /-- the line goes on -/
  | on (f : Framer) (hclean : f.Clean) (hg : f.framing = g) (hu : f.unended = u ++ [b]) :
    Moves g u b f none
  /-- the line has ended -/
  | ended (f : Framer) (line : Bytes) (hclean : f.Clean) (hg : f.framing = g) (hu : f.unended = [])
    (hline : g.terminators.IsWireLine line)
    (hprompt : ∀ p, g.IsPrompt p → line.head? = some p → line = [p])
    (hwhole : u ++ [b] = line ++ g.ending line) : Moves g u b f (some (.line line))
  /-- the line is too long -/
  | overlong (f : Framer) (limit : Nat) : Moves g u b f (some (.overlong limit))

/-- A framer with nothing in it is clean. -/
theorem clean_of_empty (f : Framer) (hd : f.discarding = false) (hh : f.held = false)
    (hb : f.buffer = []) : f.Clean ∧ f.unended = [] := by
  have hu : f.unended = [] := by
    rw [unended, hb, hh]
    rfl
  refine ⟨⟨hd, fun h => ?_, ?_, fun first second _ _ h => ?_, fun b _ h => ?_⟩, hu⟩
  · rw [hh] at h
    cases h
  · rw [hu]
    exact f.terminators.not_infix_nil
  · rw [hb] at h
    cases h
  · rw [hu] at h
    cases h

/-- A byte that begins no terminator and completes none. It is a prompt, or data, or too much. -/
theorem accept_moves (f : Framer) (b : UInt8) (hd : f.discarding = false) (hh : f.held = false)
    (hb : f.terminators.bytes.head? ≠ some b)
    (hopen : ¬ f.terminators.bytes <:+: f.buffer ++ [b])
    (hhead : ∀ p, f.framing.IsPrompt p → f.buffer.head? ≠ some p) :
    Moves f.framing f.buffer b (f.accept b).1 (f.accept b).2 := by
  unfold accept
  by_cases hprompt : f.buffer = [] ∧ f.prompt = some b
  · obtain ⟨hempty, hset⟩ := hprompt
    have hisprompt : f.framing.IsPrompt b := ⟨hset, hb⟩
    obtain ⟨hclean, hu⟩ := clean_of_empty f hd hh hempty
    rw [if_pos (by simp [hd, hempty, hset])]
    refine .ended f [b] hclean rfl hu ?_ (fun p _ hp => ?_) ?_
    · rw [Terminators.isWireLine_cons]
      refine ⟨fun hprefix => hb ?_, Terminators.isWireLine_nil _⟩
      obtain ⟨more, hmore⟩ := hprefix
      have hfirst := congrArg List.head? hmore
      rw [List.head?_append, List.head?_eq_some_head (Terminators.bytes_ne_nil _),
        Option.some_or, ← List.head?_eq_some_head] at hfirst
      exact hfirst
    · rw [Option.some.inj hp]
    · rw [hempty, Framing.ending_prompt hisprompt]
      rfl
  · rw [if_neg (by simpa [hd] using hprompt)]
    unfold store
    rw [if_neg (by rw [hd]; exact Bool.false_ne_true)]
    by_cases hfull : f.limit ≤ f.buffer.length
    · rw [if_pos hfull]
      exact .overlong _ _
    · rw [if_neg hfull]
      have hu : ({ f with buffer := f.buffer ++ [b] } : Framer).unended = f.buffer ++ [b] := by
        rw [unended, hh]
        exact List.append_nil _
      refine .on _ ⟨hd, fun h => ?_, ?_, fun first second _ hpair => ?_, fun p hp => ?_⟩ rfl hu
      · rw [hh] at h
        cases h
      · rw [hu]
        exact hopen
      · rw [List.getLast?_concat]
        rw [show f.terminators = .pair first second from hpair] at hb
        exact fun h => hb h.symm
      · rw [hu]
        -- the line begins as before, or with a byte that would have been taken for a prompt
        cases hempty : f.buffer with
        | nil =>
          intro h
          exact hprompt ⟨hempty, hp.1.trans (h.symm ▸ rfl)⟩
        | cons x xs =>
          have := hhead p hp
          rw [hempty] at this
          exact this

/-- A byte that completes no pair. The first byte of a pair is held back. -/
theorem acceptOrHold_moves (f : Framer) (first second b : UInt8)
    (hpair : f.terminators = .pair first second) (hd : f.discarding = false) (hh : f.held = false)
    (hopen : ¬ f.terminators.bytes <:+: f.buffer ++ [b])
    (hhead : ∀ p, f.framing.IsPrompt p → f.buffer.head? ≠ some p) :
    Moves f.framing f.buffer b (f.acceptOrHold first b).1 (f.acceptOrHold first b).2 := by
  unfold acceptOrHold
  by_cases hb : b = first
  · rw [if_pos hb]
    have hu : ({ f with held := true } : Framer).unended = f.buffer ++ [b] := by
      rw [hb]
      simp only [unended, hpair, if_true]
      rfl
    refine .on _ ⟨hd, fun _ => ⟨first, second, hpair⟩, ?_, fun _ _ h => ?_, fun p hp => ?_⟩ rfl hu
    · rw [hu]
      exact hopen
    · cases h
    · rw [hu]
      cases hempty : f.buffer with
      | nil =>
        -- the byte begins the terminator, so it is no prompt
        intro h
        apply hp.2
        rw [show ({ f with held := true } : Framer).framing.terminators = _ from hpair, ← hb]
        exact h
      | cons x xs =>
        have := hhead p hp
        rw [hempty] at this
        exact this
  · rw [if_neg hb]
    refine accept_moves f b hd hh ?_ hopen hhead
    rw [hpair]
    exact fun h => hb (Option.some.inj h).symm

/-- The last byte of the terminator ends the line. -/
theorem finish_moves (f : Framer) (b : UInt8) (hd : f.discarding = false) (hh : f.held = false)
    (hopen : ¬ f.terminators.bytes <:+: f.buffer ++ f.terminators.bytes.dropLast)
    (hhead : ∀ p, f.framing.IsPrompt p → f.buffer.head? ≠ some p)
    (hb : f.terminators.bytes = f.terminators.bytes.dropLast ++ [b]) :
    Moves f.framing (f.buffer ++ f.terminators.bytes.dropLast) b f.finish.1 f.finish.2 := by
  unfold finish
  rw [if_neg (by rw [hd]; exact Bool.false_ne_true)]
  obtain ⟨hclean, hu⟩ := clean_of_empty { f with buffer := [] } hd hh rfl
  refine .ended _ f.buffer hclean rfl hu (Terminators.isWireLine_of_unended hopen)
    (fun p hp h => absurd h (hhead p hp)) ?_
  rw [Framing.ending_of_head hhead, List.append_assoc, ← hb]
  rfl

/-- The buffer does not begin with a prompt either. -/
theorem Clean.buffer_head {f : Framer} (h : f.Clean) (p : UInt8) (hp : f.framing.IsPrompt p) :
    f.buffer.head? ≠ some p := by
  intro hbuffer
  apply h.unended_head p hp
  rw [unended, List.head?_append, hbuffer]
  rfl

/-- With a single terminator nothing is held back. -/
theorem Clean.not_held {f : Framer} (h : f.Clean) {last : UInt8} (ht : f.terminators = .single last) :
    f.held = false := by
  cases hh : f.held with
  | false => rfl
  | true =>
    obtain ⟨first, second, hpair⟩ := h.held_pair hh
    rw [ht] at hpair
    cases hpair

theorem unended_of_free {f : Framer} (hh : f.held = false) : f.unended = f.buffer := by
  rw [unended, hh]
  exact List.append_nil _

/-- **A byte with a single terminator** in force. -/
theorem Clean.push_single {last : UInt8} {limit : Nat} {prompt : Option UInt8} {buffer : Bytes}
    (h : Clean ⟨.single last, limit, prompt, buffer, false, false⟩) (b : UInt8) :
    Moves ⟨.single last, limit, prompt⟩ buffer b
      (push ⟨.single last, limit, prompt, buffer, false, false⟩ b).1
      (push ⟨.single last, limit, prompt, buffer, false, false⟩ b).2 := by
  have hopen := h.unended_open
  rw [unended_of_free rfl] at hopen
  by_cases hb : b = last
  · have hmoves : Moves _ (buffer ++ []) b _ _ :=
      finish_moves ⟨.single last, limit, prompt, buffer, false, false⟩ b rfl rfl
        ((List.append_nil buffer).symm ▸ hopen) h.buffer_head (hb ▸ rfl)
    rw [List.append_nil] at hmoves
    simp only [push, if_pos hb]
    exact hmoves
  · simp only [push, if_neg hb]
    exact accept_moves ⟨.single last, limit, prompt, buffer, false, false⟩ b rfl rfl
      (fun hlast => hb (Option.some.inj hlast).symm)
      (Terminators.not_infix_concat_single hopen hb) h.buffer_head

/-- **A byte with a pair** in force and nothing held back. -/
theorem Clean.push_free {first second : UInt8} {limit : Nat} {prompt : Option UInt8}
    {buffer : Bytes} (h : Clean ⟨.pair first second, limit, prompt, buffer, false, false⟩)
    (b : UInt8) :
    Moves ⟨.pair first second, limit, prompt⟩ buffer b
      (push ⟨.pair first second, limit, prompt, buffer, false, false⟩ b).1
      (push ⟨.pair first second, limit, prompt, buffer, false, false⟩ b).2 := by
  have hopen := h.unended_open
  rw [unended_of_free rfl] at hopen
  exact acceptOrHold_moves ⟨.pair first second, limit, prompt, buffer, false, false⟩ first second b
    rfl rfl rfl
    (Terminators.not_infix_concat_pair hopen
      fun hlast => absurd hlast (h.last_held first second rfl rfl)) h.buffer_head

/-- **A byte behind the first one of a pair.** It ends the line, or shows that the byte held back
was data; that one is stored before the byte at hand is looked at, and was in the line already. -/
theorem Clean.push_held {first second : UInt8} {limit : Nat} {prompt : Option UInt8}
    {buffer : Bytes} (h : Clean ⟨.pair first second, limit, prompt, buffer, true, false⟩)
    (b : UInt8) :
    Moves ⟨.pair first second, limit, prompt⟩ (buffer ++ [first]) b
      (push ⟨.pair first second, limit, prompt, buffer, true, false⟩ b).1
      (push ⟨.pair first second, limit, prompt, buffer, true, false⟩ b).2 := by
  have hopen : ¬ (Terminators.pair first second).bytes <:+: buffer ++ [first] := h.unended_open
  by_cases hb : b = second
  · have hmoves := finish_moves ⟨.pair first second, limit, prompt, buffer, false, false⟩ b rfl rfl
      hopen h.buffer_head (hb ▸ rfl)
    simp only [push, if_true, if_pos hb]
    exact hmoves
  · by_cases hfull : limit ≤ buffer.length
    · simp only [push, if_true, if_neg hb, store, Bool.false_eq_true, if_false, if_pos hfull]
      exact .overlong _ _
    · simp only [push, if_true, if_neg hb, store, Bool.false_eq_true, if_false, if_neg hfull]
      exact acceptOrHold_moves ⟨.pair first second, limit, prompt, buffer ++ [first], false, false⟩
        first second b rfl rfl rfl (Terminators.not_infix_concat_pair hopen fun _ => hb)
        h.unended_head

/-- **Every byte is one of the moves.** -/
theorem Clean.push_moves {f : Framer} (h : f.Clean) (b : UInt8) :
    Moves f.framing f.unended b (f.push b).1 (f.push b).2 := by
  obtain ⟨t, limit, prompt, buffer, held, discarding⟩ := f
  obtain rfl : discarding = false := h.discarding_eq
  cases t with
  | single last =>
    obtain rfl : held = false := h.not_held rfl
    rw [unended_of_free rfl]
    exact h.push_single b
  | pair first second =>
    cases held with
    | false =>
      rw [unended_of_free rfl]
      exact h.push_free b
    | true => exact h.push_held b

end Framer

/-! ## Streams -/

namespace Framing

theorem Splits.nil {g : Framing} {rest : Bytes} (hopen : ¬ g.terminators.bytes <:+: rest)
    (hhead : ∀ b, g.IsPrompt b → rest.head? ≠ some b) : g.Splits rest [] rest :=
  ⟨rfl, fun _ h => absurd h List.not_mem_nil, fun _ _ h => absurd h List.not_mem_nil, hopen, hhead⟩

theorem Splits.cons {g : Framing} {line stream rest : Bytes} {lines : List Bytes}
    (hline : g.terminators.IsWireLine line)
    (hprompt : ∀ p, g.IsPrompt p → line.head? = some p → line = [p])
    (h : g.Splits stream lines rest) :
    g.Splits (line ++ g.ending line ++ stream) (line :: lines) rest := by
  refine ⟨?_, fun w hw => ?_, fun w b hw hb hhead => ?_, h.rest_open, h.rest_head⟩
  · rw [List.flatMap_cons, List.append_assoc _ _ rest, ← h.stream_eq]
  · rcases List.mem_cons.mp hw with rfl | hw
    · exact hline
    · exact h.leftmost w hw
  · rcases List.mem_cons.mp hw with rfl | hw
    · exact hprompt b hb hhead
    · exact h.prompt_alone w b hw hb hhead

/-- A stream that is cut is its first line with its end, and then a stream that is cut. -/
theorem Splits.of_cons {g : Framing} {line stream rest : Bytes} {lines : List Bytes}
    (h : g.Splits stream (line :: lines) rest) :
    ∃ more, stream = line ++ (g.ending line ++ more) ∧ g.Splits more lines rest := by
  refine ⟨lines.flatMap (fun line => line ++ g.ending line) ++ rest, ?_, rfl, fun w hw => ?_,
    fun w b hw => ?_, h.rest_open, h.rest_head⟩
  · rw [h.stream_eq, List.flatMap_cons]
    simp only [List.append_assoc]
  · exact h.leftmost w (List.mem_cons_of_mem line hw)
  · exact h.prompt_alone w b (List.mem_cons_of_mem line hw)

/-- A line with its end is never empty, and begins with a prompt exactly if it is that prompt. -/
theorem Splits.line_cases {g : Framing} {line stream rest : Bytes} {lines : List Bytes}
    (h : g.Splits stream (line :: lines) rest) :
    (∃ b, g.IsPrompt b ∧ line = [b] ∧ g.ending line = [])
      ∨ (∀ b, g.IsPrompt b → line.head? ≠ some b) ∧ g.ending line = g.terminators.bytes := by
  by_cases hprompt : ∃ b, g.IsPrompt b ∧ line.head? = some b
  · obtain ⟨b, hb, hhead⟩ := hprompt
    obtain rfl := h.prompt_alone line b List.mem_cons_self hb hhead
    exact .inl ⟨b, hb, rfl, ending_prompt hb⟩
  · have hno (b : UInt8) (hb : g.IsPrompt b) : line.head? ≠ some b :=
      fun hhead => hprompt ⟨b, hb, hhead⟩
    exact .inr ⟨hno, ending_of_head hno⟩

/-- What is left over is not cut any further. -/
theorem Splits.not_rest {g : Framing} {line stream rest : Bytes} {lines lines' : List Bytes}
    (h : g.Splits stream (line :: lines) rest) (h' : g.Splits stream lines' stream) : False := by
  obtain ⟨more, hstream, -⟩ := h.of_cons
  rcases h.line_cases with ⟨b, hb, rfl, hending⟩ | ⟨-, hending⟩
  · apply h'.rest_head b hb
    rw [hstream]
    rfl
  · apply h'.rest_open
    rw [hstream, hending]
    exact List.infix_append' line _ more

/-- No line begins with a prompt that another cut makes a line of. -/
theorem Splits.prompt_first {g : Framing} {line stream rest rest' : Bytes} {lines lines' : List Bytes}
    {b : UInt8} (hb : g.IsPrompt b) (h : g.Splits stream ([b] :: lines) rest)
    (h' : g.Splits stream (line :: lines') rest') : line = [b] := by
  obtain ⟨more, hstream, -⟩ := h.of_cons
  obtain ⟨more', hstream', -⟩ := h'.of_cons
  have hfirst : (line ++ (g.ending line ++ more')).head? = some b := by
    rw [← hstream', hstream]
    rfl
  rcases h'.line_cases with ⟨c, -, rfl, -⟩ | ⟨hno, hending⟩
  · rw [Option.some.inj hfirst]
  · rw [List.head?_append] at hfirst
    cases line with
    | nil =>
      rw [hending, List.head?_append, List.head?_eq_some_head g.terminators.bytes_ne_nil,
        List.head?_nil, Option.none_or, Option.some_or, ← List.head?_eq_some_head] at hfirst
      exact absurd hfirst hb.2
    | cons c line => exact absurd hfirst (hno b hb)

/-- **The first line** is the same however a stream is cut. -/
theorem Splits.first_unique {g : Framing} {line line' stream rest rest' : Bytes}
    {lines lines' : List Bytes} (h : g.Splits stream (line :: lines) rest)
    (h' : g.Splits stream (line' :: lines') rest') : line = line' := by
  rcases h.line_cases with ⟨b, hb, rfl, -⟩ | ⟨-, hending⟩
  · exact (h.prompt_first hb h').symm
  rcases h'.line_cases with ⟨b, hb, rfl, -⟩ | ⟨-, hending'⟩
  · exact h'.prompt_first hb h
  -- no prompt is involved, so each of the two lines ends at the first terminator in the stream
  obtain ⟨more, hstream, -⟩ := h.of_cons
  obtain ⟨more', hstream', -⟩ := h'.of_cons
  rw [hending] at hstream
  rw [hending'] at hstream'
  have hsame := hstream.symm.trans hstream'
  have hle := (h'.leftmost line' List.mem_cons_self).length_le hsame
  have hge := (h.leftmost line List.mem_cons_self).length_le hsame.symm
  exact (List.append_inj hsame (Nat.le_antisymm hge hle)).1

/-- **There is one way** to cut a stream. The induction is on the lines of one cut. -/
theorem Splits.unique {g : Framing} {stream rest rest' : Bytes} {lines lines' : List Bytes}
    (h : g.Splits stream lines rest) (h' : g.Splits stream lines' rest') :
    lines' = lines ∧ rest' = rest := by
  induction lines generalizing stream lines' with
  | nil =>
    obtain rfl : stream = rest := h.stream_eq
    cases lines' with
    | nil => exact ⟨rfl, h'.stream_eq.symm⟩
    | cons line' lines' => exact (h'.not_rest h).elim
  | cons line lines ih =>
    cases lines' with
    | nil =>
      obtain rfl : stream = rest' := h'.stream_eq
      exact (h.not_rest h').elim
    | cons line' lines' =>
      obtain rfl := h.first_unique h'
      obtain ⟨more, hstream, hmore⟩ := h.of_cons
      obtain ⟨more', hstream', hmore'⟩ := h'.of_cons
      have hsame : more' = more :=
        List.append_cancel_left (List.append_cancel_left (hstream'.symm.trans hstream))
      obtain ⟨hlines, hrest⟩ := ih hmore (hsame ▸ hmore')
      exact ⟨congrArg (line :: ·) hlines, hrest⟩

end Framing

/-- **A run without a report** cuts what the framer was in the middle of, and the bytes behind it,
by the rules. The induction is on the bytes; a byte either adds to the line or ends it. -/
theorem Framer.Clean.feed_splits {f : Framer} (h : f.Clean) (bytes : Bytes)
    (hfit : ∀ limit, .overlong limit ∉ (f.feed bytes).2) :
    ∃ lines, (f.feed bytes).2 = lines.map .line
      ∧ f.framing.Splits (f.unended ++ bytes) lines (f.feed bytes).1.unended := by
  induction bytes generalizing f with
  | nil =>
    refine ⟨[], rfl, ?_⟩
    rw [List.append_nil]
    exact .nil h.unended_open h.unended_head
  | cons b bytes ih =>
    have hmoves := h.push_moves b
    rw [show f.feed (b :: bytes) = (((f.push b).1.feed bytes).1,
      (f.push b).2.toList ++ ((f.push b).1.feed bytes).2) from rfl] at hfit ⊢
    generalize f.push b = after at hmoves hfit
    obtain ⟨f', out⟩ := after
    cases hmoves with
    | on hclean hg hu =>
      obtain ⟨lines, hlines, hsplits⟩ := ih hclean hfit
      refine ⟨lines, hlines, ?_⟩
      rw [hg, hu, List.append_assoc] at hsplits
      exact hsplits
    | ended line hclean hg hu hline hprompt hwhole =>
      -- the framer is empty, and the line with its end is all that it had taken in
      obtain ⟨lines, hlines, hsplits⟩ := ih hclean fun limit hmem =>
        hfit limit (List.mem_cons_of_mem _ hmem)
      refine ⟨line :: lines, congrArg (Framed.line line :: ·) hlines, ?_⟩
      rw [hg, hu] at hsplits
      have hcons := Framing.Splits.cons hline hprompt hsplits
      rw [← hwhole, List.append_assoc] at hcons
      exact hcons
    | overlong limit => exact absurd List.mem_cons_self (hfit limit)

/-- **Nothing is lost, and there is one way to cut.** A framer that takes in a stream without
reporting an overlong line hands out lines, and nothing else. With the bytes that ended them, and
with what has come of the line that has not ended, they are the stream, cut by the rules of framing;
and no other lines and no other rest are.

That a prompt is ended by nothing belongs to the rules: otherwise a prompt in front of a terminator
could be read with the terminator as its end as well as with an empty line behind it. -/
theorem Framer.stream_splits (g : Framing) (stream : Bytes)
    (hfit : ∀ limit, .overlong limit ∉ ((Framer.new g).feed stream).2) :
    ∃ lines, ((Framer.new g).feed stream).2 = lines.map .line
      ∧ g.Splits stream lines ((Framer.new g).feed stream).1.unended
      ∧ ∀ lines' rest', g.Splits stream lines' rest' →
          lines' = lines ∧ rest' = ((Framer.new g).feed stream).1.unended := by
  obtain ⟨hclean, hempty⟩ := clean_of_empty (Framer.new g) rfl rfl rfl
  obtain ⟨lines, hlines, hsplits⟩ := hclean.feed_splits stream hfit
  have hstream : g.Splits stream lines ((Framer.new g).feed stream).1.unended := by
    rw [hempty, List.nil_append] at hsplits
    exact hsplits
  exact ⟨lines, hlines, hstream, fun lines' rest' h' => hstream.unique h'⟩

/-- A line that ends with a carriage return of its own, a prompt, and a line that may be about to
end. -/
theorem Framer.stream_splits_prompt :
    (∀ limit, .overlong limit ∉
        ((Framer.new ⟨.crlf, 4, some 62⟩).feed [97, 13, 13, 10, 62, 98, 13]).2)
      ∧ Framing.Splits ⟨.crlf, 4, some 62⟩ [97, 13, 13, 10, 62, 98, 13] [[97, 13], [62]] [98, 13]
      ∧ ∀ lines rest,
          Framing.Splits ⟨.crlf, 4, some 62⟩ [97, 13, 13, 10, 62, 98, 13] lines rest →
          lines = [[97, 13], [62]] ∧ rest = [98, 13] := by
  have hout : ((Framer.new ⟨.crlf, 4, some 62⟩).feed [97, 13, 13, 10, 62, 98, 13]).2
      = [[97, 13], [62]].map .line := by decide
  have hfit : ∀ limit, .overlong limit ∉
      ((Framer.new ⟨.crlf, 4, some 62⟩).feed [97, 13, 13, 10, 62, 98, 13]).2 := by
    rw [hout]
    intro limit h
    simp at h
  obtain ⟨lines, hlines, hsplits, hunique⟩ :=
    Framer.stream_splits ⟨.crlf, 4, some 62⟩ [97, 13, 13, 10, 62, 98, 13] hfit
  have hsame : [[97, 13], [62]] = lines :=
    (List.map_inj_right fun _ _ h => Framed.line.inj h).mp (hout.symm.trans hlines)
  rw [← hsame] at hsplits hunique
  exact ⟨hfit, hsplits, hunique⟩

end ModemLink
