/-
Lines as they travel: the bytes of a line, then its terminator.

A framer sees one byte at a time and has to find out by itself where a line ends. This file says
what it makes of a line that starts where the framer is at the start of a line. The line may hold
the first byte of a terminator pair as data, also at its very end, and it may be longer than the
limit.

A framer at the start of a line is one that has nothing to forget, `f.reset = f`.
-/
import ModemLink.Framer

set_option autoImplicit false

namespace ModemLink

/-! ## Wire lines -/

namespace Terminators

/-- **A wire line.** Bytes in which, with the terminator behind them, no terminator stands before
their end. -/
def IsWireLine (t : Terminators) (w : Bytes) : Prop :=
  ∀ i < w.length, ¬ t.bytes <+: (w ++ t.bytes).drop i

instance (t : Terminators) (w : Bytes) : Decidable (t.IsWireLine w) :=
  inferInstanceAs (Decidable (∀ i < w.length, ¬ t.bytes <+: (w ++ t.bytes).drop i))

@[simp] theorem isWireLine_nil (t : Terminators) : t.IsWireLine [] := by
  intro i hi
  simp at hi

/-- A wire line does not begin with a terminator, and goes on as a wire line. -/
theorem isWireLine_cons (t : Terminators) (b : UInt8) (w : Bytes) :
    t.IsWireLine (b :: w) ↔ ¬ t.bytes <+: b :: (w ++ t.bytes) ∧ t.IsWireLine w := by
  constructor
  · intro h
    refine ⟨h 0 (by simp), fun i hi => ?_⟩
    have := h (i + 1) (by simpa using hi)
    simpa using this
  · rintro ⟨h0, hw⟩ i hi
    cases i with
    | zero => simpa using h0
    | succ i => simpa using hw i (by simpa using hi)

/-- The byte that ends a line does not occur in it. -/
theorem isWireLine_single_cons (last b : UInt8) (w : Bytes) :
    (single last).IsWireLine (b :: w) ↔ b ≠ last ∧ (single last).IsWireLine w := by
  rw [isWireLine_cons]
  simp [bytes, eq_comm]

/-- After the first byte of a pair the second one does not follow. -/
theorem isWireLine_pair_cons_cons (first second b : UInt8) (w : Bytes) :
    (pair first second).IsWireLine (first :: b :: w) ↔
      b ≠ second ∧ (pair first second).IsWireLine (b :: w) := by
  rw [isWireLine_cons]
  simp [bytes, eq_comm]

/-- The first byte of a pair ends a line only if the terminator behind it does not begin too
early, which it would with two equal bytes. -/
theorem isWireLine_pair_first (first second : UInt8) :
    (pair first second).IsWireLine [first] ↔ first ≠ second := by
  rw [isWireLine_cons]
  simp [bytes, eq_comm]

/-- What is left of a wire line is one. -/
theorem IsWireLine.of_cons {t : Terminators} {b : UInt8} {w : Bytes}
    (h : t.IsWireLine (b :: w)) : t.IsWireLine w :=
  ((isWireLine_cons t b w).mp h).2

end Terminators

/-! ## One line, from the start of a line -/

/-- What a framer hands out for a line that it has seen to its end. -/
def Framed.ofLine (limit : Nat) (w : Bytes) : Framed :=
  if w.length ≤ limit then .line w else .overlong limit

/-- **A line that hides its own end.** Its last byte is the first one of the pair and is the very
byte that makes the line too long. -/
def Terminators.Hides (t : Terminators) (limit : Nat) (w : Bytes) : Prop :=
  match t with
  | .single _ => False
  | .pair first _ => w.length = limit + 1 ∧ w.getLast? = some first

instance (t : Terminators) (limit : Nat) (w : Bytes) : Decidable (t.Hides limit w) :=
  match t with
  | .single _ => inferInstanceAs (Decidable False)
  | .pair first _ =>
    inferInstanceAs (Decidable (w.length = limit + 1 ∧ w.getLast? = some first))

namespace Framer

/-- Whatever a line that is being discarded holds, its end is found, and nothing is handed out.
The induction is on what is left of the line; a byte that is held back belongs to it. -/
theorem feed_discarding_pair (first second : UInt8) (limit : Nat) (prompt : Option UInt8)
    (buf : Bytes) (held : Bool) (w : Bytes)
    (hw : (Terminators.pair first second).IsWireLine (if held then first :: w else w)) :
    feed ⟨.pair first second, limit, prompt, buf, held, true⟩ (w ++ [first, second])
      = (⟨.pair first second, limit, prompt, [], false, false⟩, []) := by
  induction w generalizing held with
  | nil =>
    cases held with
    | false => simp [feed, push, acceptOrHold, finish]
    | true =>
      have hne : first ≠ second := by
        simpa [Terminators.isWireLine_pair_first] using hw
      simp [feed, push, acceptOrHold, finish, store, hne]
  | cons b w ih =>
    cases held with
    | false =>
      simp only [Bool.false_eq_true, if_false] at hw
      by_cases hb : b = first
      · have := ih true (by simpa [hb] using hw)
        simp [feed, push, acceptOrHold, hb, this]
      · have := ih false (by simpa using hw.of_cons)
        simp [feed, push, acceptOrHold, accept, store, hb, this]
    | true =>
      simp only [if_true, Terminators.isWireLine_pair_cons_cons] at hw
      obtain ⟨hsecond, hw⟩ := hw
      by_cases hb : b = first
      · subst hb
        have := ih true (by simpa using hw)
        simp [feed, push, acceptOrHold, store, hsecond, this]
      · have := ih false (by simpa using hw.of_cons)
        simp [feed, push, acceptOrHold, accept, store, hb, hsecond, this]

theorem feed_discarding_single (last : UInt8) (limit : Nat) (prompt : Option UInt8)
    (buf : Bytes) (w : Bytes) (hw : (Terminators.single last).IsWireLine w) :
    feed ⟨.single last, limit, prompt, buf, false, true⟩ (w ++ [last])
      = (⟨.single last, limit, prompt, [], false, false⟩, []) := by
  induction w with
  | nil => simp [feed, push, finish]
  | cons b w ih =>
    rw [Terminators.isWireLine_single_cons] at hw
    simp [feed, push, accept, store, hw.1, ih hw.2]

/-- A byte of data where no prompt is looked for goes into the buffer, or makes the line too
long. -/
theorem accept_collecting (t : Terminators) (limit : Nat) (prompt : Option UInt8) (buf : Bytes)
    (b : UInt8) (hp : buf = [] → prompt ≠ some b) :
    accept ⟨t, limit, prompt, buf, false, false⟩ b
      = if limit ≤ buf.length then (⟨t, limit, prompt, [], false, true⟩, some (.overlong limit))
        else (⟨t, limit, prompt, buf ++ [b], false, false⟩, none) := by
  have hno : ¬ (buf = [] ∧ prompt = some b) := fun h => hp h.1 h.2
  simp [accept, store, hno]

/-- The outcome of a line: handed out whole, or reported. After a report the framer is back at the
start of a line, unless the line hides its end. -/
def outcome (t : Terminators) (limit : Nat) (prompt : Option UInt8) (line : Bytes) :
    Framer × List Framed :=
  (⟨t, limit, prompt, [], false, decide (t.Hides limit line)⟩, [.ofLine limit line])

/-- A line within the limit hides nothing. -/
theorem outcome_of_le (t : Terminators) (limit : Nat) (prompt : Option UInt8) (line : Bytes)
    (h : line.length ≤ limit) :
    outcome t limit prompt line = (⟨t, limit, prompt, [], false, false⟩, [.line line]) := by
  have hshown : ¬ t.Hides limit line := by
    cases t with
    | single _ => exact id
    | pair _ _ => rintro ⟨hl, -⟩; omega
  simp [outcome, hshown, Framed.ofLine, h]

/-- A line that is too long and does not hide its end is reported. -/
theorem outcome_of_shown (t : Terminators) (limit : Nat) (prompt : Option UInt8) (line : Bytes)
    (hlong : limit < line.length) (hshown : ¬ t.Hides limit line) :
    outcome t limit prompt line = (⟨t, limit, prompt, [], false, false⟩, [.overlong limit]) := by
  simp only [outcome, hshown, decide_false, Framed.ofLine]
  rw [if_neg (by omega)]

/-- A line that is too long by more than its last byte, or by a byte that begins no terminator,
does not hide its end. -/
theorem outcome_of_lt (first second : UInt8) (limit : Nat) (prompt : Option UInt8)
    (line : Bytes) (b : UInt8) (rest : Bytes) (hline : limit ≤ line.length)
    (hrest : limit < line.length ∨ b ≠ first) :
    outcome (.pair first second) limit prompt (line ++ b :: rest)
      = (⟨.pair first second, limit, prompt, [], false, false⟩, [.overlong limit]) := by
  apply outcome_of_shown
  · simp only [List.length_append, List.length_cons]
    omega
  · rintro ⟨hl, hlast⟩
    simp only [List.length_append, List.length_cons] at hl
    cases rest with
    | cons x xs => simp only [List.length_cons] at hl; omega
    | nil =>
      rcases hrest with h | h
      · simp only [List.length_nil] at hl; omega
      · simp at hlast; exact h hlast

/-- **A line, from wherever its collection has got to.** The line is what is in the buffer, the
byte held back, and what still comes. The induction is on what still comes; a byte of data is
dealt with alike whether or not another one has just been released before it. -/
theorem feed_collecting_pair (first second : UInt8) (limit : Nat) (prompt : Option UInt8)
    (buf : Bytes) (held : Bool) (w : Bytes) (hbuf : buf.length ≤ limit)
    (hw : (Terminators.pair first second).IsWireLine (if held then first :: w else w))
    (hp : ∀ b, (buf ++ if held then first :: w else w).head? = some b → prompt ≠ some b) :
    feed ⟨.pair first second, limit, prompt, buf, held, false⟩ (w ++ [first, second])
      = outcome (.pair first second) limit prompt (buf ++ if held then first :: w else w) := by
  induction w generalizing buf held with
  | nil =>
    cases held with
    | false => simp [feed, push, acceptOrHold, finish, outcome_of_le, hbuf]
    | true =>
      have hne : first ≠ second := by
        simpa [Terminators.isWireLine_pair_first] using hw
      by_cases hfull : limit ≤ buf.length
      -- the report comes with the first byte of the terminator, which is lost
      · have hlen : buf.length = limit := by omega
        simp [feed, push, acceptOrHold, accept, store, outcome, Framed.ofLine,
          Terminators.Hides, hne, hne.symm, hlen]
      · have hle : (buf ++ [first]).length ≤ limit := by simp; omega
        simp [feed, push, acceptOrHold, finish, store, hne, hfull, outcome_of_le _ _ _ _ hle]
  | cons b w ih =>
    have data : ∀ buf : Bytes, buf.length ≤ limit → b ≠ first →
        (Terminators.pair first second).IsWireLine w →
        (∀ c, (buf ++ b :: w).head? = some c → prompt ≠ some c) →
        (let r := accept ⟨.pair first second, limit, prompt, buf, false, false⟩ b
          let more := r.1.feed (w ++ [first, second])
          (more.1, r.2.toList ++ more.2))
        = outcome (.pair first second) limit prompt (buf ++ b :: w) := by
      intro buf hbuf hb hw hp
      rw [accept_collecting _ _ _ _ _ (by rintro rfl; exact hp b rfl)]
      by_cases hfull : limit ≤ buf.length
      · simp [hfull, feed_discarding_pair first second limit prompt [] false w (by simpa using hw),
          outcome_of_lt first second limit prompt buf b w hfull (.inr hb)]
      · have := ih (buf ++ [b]) false (by simp; omega) (by simpa using hw) (by simpa using hp)
        simp [hfull, this]
    cases held with
    | false =>
      simp only [Bool.false_eq_true, if_false] at hw hp ⊢
      by_cases hb : b = first
      · subst hb
        have := ih buf true hbuf (by simpa using hw) (by simpa using hp)
        simpa [feed, push, acceptOrHold] using this
      · simpa [feed, push, acceptOrHold, hb] using data buf hbuf hb hw.of_cons hp
    | true =>
      simp only [if_true, Terminators.isWireLine_pair_cons_cons] at hw hp ⊢
      obtain ⟨hsecond, hw⟩ := hw
      by_cases hfull : limit ≤ buf.length
      -- the byte at hand is lost with the report, but it is followed by more of the line
      · have hlost := feed_discarding_pair first second limit prompt [] false w
          (by simpa using hw.of_cons)
        have hout := outcome_of_lt first second limit prompt (buf ++ [first]) b w
          (by simp; omega) (.inl (by simp; omega))
        rw [List.append_assoc, List.singleton_append] at hout
        simp [feed, push, store, hsecond, hfull, hlost, hout]
      · by_cases hb : b = first
        · subst hb
          have := ih (buf ++ [b]) true (by simp; omega) (by simpa using hw) (by simpa using hp)
          simpa [feed, push, acceptOrHold, store, hsecond, hfull] using this
        · have := data (buf ++ [first]) (by simp; omega) hb hw.of_cons (by simpa using hp)
          simpa [feed, push, acceptOrHold, store, hb, hsecond, hfull] using this

/-- With a single terminator nothing is held back, and nothing is lost. -/
theorem feed_collecting_single (last : UInt8) (limit : Nat) (prompt : Option UInt8) (buf w : Bytes)
    (hbuf : buf.length ≤ limit) (hw : (Terminators.single last).IsWireLine w)
    (hp : ∀ b, (buf ++ w).head? = some b → prompt ≠ some b) :
    feed ⟨.single last, limit, prompt, buf, false, false⟩ (w ++ [last])
      = outcome (.single last) limit prompt (buf ++ w) := by
  induction w generalizing buf with
  | nil => simp [feed, push, finish, outcome_of_le, hbuf]
  | cons b w ih =>
    rw [Terminators.isWireLine_single_cons] at hw
    obtain ⟨hlast, hw⟩ := hw
    simp only [List.cons_append, feed, push, hlast, if_false]
    rw [accept_collecting _ _ _ _ _ (by rintro rfl; exact hp b rfl)]
    by_cases hfull : limit ≤ buf.length
    · have hout := outcome_of_shown (.single last) limit prompt (buf ++ b :: w)
        (by simp; omega) id
      simp [hfull, feed_discarding_single last limit prompt [] w hw, hout]
    · have := ih (buf ++ [b]) (by simp; omega) hw (by simpa using hp)
      simp [hfull, this]

/-- **A wire line.** A framer at the start of a line hands out the line, or one report if it is
too long, and is at the start of a line again unless the line hides its end. The line must not
start with the prompt. -/
theorem feed_wireLine (f : Framer) (hf : f.reset = f) (w : Bytes)
    (hw : f.terminators.IsWireLine w) (hp : ∀ b, w.head? = some b → f.prompt ≠ some b) :
    f.feed (w ++ f.terminators.bytes)
      = ({ f with discarding := decide (f.terminators.Hides f.limit w) }, [.ofLine f.limit w]) := by
  obtain ⟨t, limit, prompt, buf, held, discarding⟩ := f
  simp only [reset, mk.injEq, true_and] at hf
  obtain ⟨rfl, rfl, rfl⟩ := hf
  cases t with
  | single last => exact feed_collecting_single last limit prompt [] w (by simp) hw hp
  | pair first second =>
    exact feed_collecting_pair first second limit prompt [] false w (by simp) hw hp

/-- **A line that is thrown away** has no effect but to bring its end. -/
theorem feed_discarded (f : Framer) (hf : f.reset = f) (w : Bytes)
    (hw : f.terminators.IsWireLine w) :
    feed { f with discarding := true } (w ++ f.terminators.bytes) = (f, []) := by
  obtain ⟨t, limit, prompt, buf, held, discarding⟩ := f
  simp only [reset, mk.injEq, true_and] at hf
  obtain ⟨rfl, rfl, rfl⟩ := hf
  cases t with
  | single last => exact feed_discarding_single last limit prompt [] w hw
  | pair first second => exact feed_discarding_pair first second limit prompt [] false w hw

/-- **A prompt** at the start of a line is handed out as a line, and the framer stays there. -/
theorem push_prompt (f : Framer) (hf : f.reset = f) (b : UInt8) (hp : f.prompt = some b)
    (hb : f.terminators.bytes.head? ≠ some b) : f.push b = (f, some (.line [b])) := by
  obtain ⟨t, limit, prompt, buf, held, discarding⟩ := f
  simp only [reset, mk.injEq, true_and] at hf
  obtain ⟨rfl, rfl, rfl⟩ := hf
  cases hp
  cases t with
  | single last =>
    have hne : b ≠ last := fun h => hb (congrArg some h.symm)
    simp [push, accept, hne]
  | pair first second =>
    have hne : b ≠ first := fun h => hb (congrArg some h.symm)
    simp [push, acceptOrHold, accept, hne]

end Framer

/-! ## Lines in a row -/

/-- What a framer hands out for wire lines in a row. The line after one that hides its end is
lost. -/
def Framed.ofLines (t : Terminators) (limit : Nat) : List Bytes → List Framed
  | [] => []
  | [w] => [.ofLine limit w]
  | w :: next :: ws =>
    .ofLine limit w :: if t.Hides limit w then ofLines t limit ws else ofLines t limit (next :: ws)

/-- No line is handed out twice. -/
theorem Framed.length_ofLines_le (t : Terminators) (limit : Nat) (ws : List Bytes) :
    (ofLines t limit ws).length ≤ ws.length := by
  fun_induction ofLines t limit ws with
  | case1 => simp
  | case2 w => simp
  | case3 w next ws ih1 ih2 =>
    simp only [List.length_cons] at ih2 ⊢
    split <;> omega

/-- Every line has an item of its own exactly if no line but the last hides its end. -/
theorem Framed.ofLines_eq_map_iff (t : Terminators) (limit : Nat) (ws : List Bytes) :
    ofLines t limit ws = ws.map (ofLine limit) ↔ ∀ w ∈ ws.dropLast, ¬ t.Hides limit w := by
  fun_induction ofLines t limit ws with
  | case1 => simp
  | case2 w => simp
  | case3 w next ws ih1 ih2 =>
    by_cases hw : t.Hides limit w
    -- one item is missing from here on
    · have hlen := length_ofLines_le t limit ws
      simp only [if_pos hw, List.map_cons, List.cons.injEq, true_and]
      constructor
      · intro h
        have := congrArg List.length h
        simp at this
        omega
      · intro h
        exact absurd hw (h w (by simp))
    · simp only [if_neg hw, List.map_cons, List.cons.injEq, true_and] at ih2 ⊢
      rw [ih2]
      simp [hw]

/-- A framer at the start of a line, or with a line to throw away first, deals with wire lines in a
row one after the other. -/
theorem Framer.feed_wireLines (f : Framer) (hf : f.reset = f) (hp : f.prompt = none)
    (ws : List Bytes) (hws : ∀ w ∈ ws, f.terminators.IsWireLine w) :
    (f.feed (ws.flatMap (· ++ f.terminators.bytes))).2
      = Framed.ofLines f.terminators f.limit ws := by
  fun_induction Framed.ofLines f.terminators f.limit ws with
  | case1 => rfl
  | case2 w =>
    have hw := feed_wireLine f hf w (hws w (by simp)) (by simp [hp])
    simp [hw]
  | case3 w next ws ih1 ih2 =>
    have hw := feed_wireLine f hf w (hws w (by simp)) (by simp [hp])
    rw [List.flatMap_cons, feed_append, hw]
    by_cases hides : f.terminators.Hides f.limit w
    · have hnext := feed_discarded f hf next (hws next (by simp))
      rw [List.flatMap_cons, feed_append]
      simp only [hides, decide_true, hnext, if_true]
      rw [← ih1 fun v hv => hws v (by simp [hv])]
      simp
    · have hsame : ({ f with discarding := false } : Framer) = f := by
        obtain ⟨t, limit, prompt, buf, held, discarding⟩ := f
        simp only [reset, mk.injEq, true_and] at hf
        simp [hf.2.2]
      simp only [hides, decide_false, hsame, if_false]
      rw [← ih2 fun v hv => hws v (List.mem_cons_of_mem w hv)]
      rfl

/-- **Recovery from overlong lines.** Wire lines in a row give one item each, in their order, the
line itself or one report of the limit, exactly if no line but the last hides its end. In any case
they give what `Framed.ofLines` says: only the line right behind a hidden end is lost. -/
theorem Framer.overlong_recovery_iff (t : Terminators) (limit : Nat) (ws : List Bytes)
    (hws : ∀ w ∈ ws, t.IsWireLine w) :
    let items := ((Framer.new ⟨t, limit, none⟩).feed (ws.flatMap (· ++ t.bytes))).2
    items = Framed.ofLines t limit ws
      ∧ (items = ws.map (Framed.ofLine limit) ↔ ∀ w ∈ ws.dropLast, ¬ t.Hides limit w) := by
  intro items
  have hitems : items = Framed.ofLines t limit ws :=
    Framer.feed_wireLines (Framer.new ⟨t, limit, none⟩) rfl rfl ws hws
  refine ⟨hitems, ?_⟩
  rw [hitems]
  exact Framed.ofLines_eq_map_iff t limit ws

/-- A line of five bytes, with a lone carriage return in it, is one too long for four. It is
reported, and the line behind it arrives. -/
theorem Framer.overlong_recovery_crlf :
    ((Framer.new ⟨.crlf, 4, none⟩).feed
        ([[97, 98, 13, 99, 100], [79, 75]].flatMap (· ++ Terminators.crlf.bytes))).2
      = [.overlong 4, .line [79, 75]] :=
  (Framer.overlong_recovery_iff .crlf 4 [[97, 98, 13, 99, 100], [79, 75]] (by decide)).2.mpr
    (by decide)

/-- With the carriage return at the end of the overlong line, its end is not found, and the line
behind it is lost. -/
theorem Framer.hidden_end_loses_next_line :
    (∀ w ∈ ([[97, 98, 99, 100, 13], [79, 75]] : List Bytes), Terminators.crlf.IsWireLine w)
      ∧ ((Framer.new ⟨.crlf, 4, none⟩).feed
          ([[97, 98, 99, 100, 13], [79, 75]].flatMap (· ++ Terminators.crlf.bytes))).2
        ≠ [[97, 98, 99, 100, 13], [79, 75]].map (Framed.ofLine 4) := by
  decide

end ModemLink
