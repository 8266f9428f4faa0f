/-
The lines that belong to an event.

An event with trailing lines takes in the lines behind its header and is announced with the last of
them. What it counts are lines that the framer hands out. A line beyond the limit is not handed out,
so it is not counted either, although it has gone by on the wire: the event goes on waiting, and the
line that it takes in instead is one that was not meant for it, be it the confirmation of the
command in flight.

So the event ends with the last of its wire lines exactly if none of them is too long.
-/
import ModemLink.Proofs.Receiver.Lines
import ModemLink.Proofs.Receiver.Requests

set_option autoImplicit false

namespace ModemLink

/-! ## Lines among items -/

/-- Whether an item is a line. -/
def Framed.isLine : Framed → Bool
  | .line _ => true
  | .overlong _ => false

/-- No more lines are handed out than there are wire lines within the limit. -/
theorem Framed.countP_ofLines_le (t : Terminators) (limit : Nat) (ws : List Bytes) :
    (ofLines t limit ws).countP isLine ≤ ws.countP fun w => decide (w.length ≤ limit) := by
  have hone (w : Bytes) : (ofLine limit w).isLine = decide (w.length ≤ limit) := by
    unfold ofLine
    by_cases hw : w.length ≤ limit
    · rw [if_pos hw, decide_eq_true hw]
      rfl
    · rw [if_neg hw, decide_eq_false hw]
      rfl
  fun_induction ofLines t limit ws with
  | case1 => exact Nat.le_refl 0
  | case2 w =>
    rw [List.countP_cons, List.countP_cons, hone]
    exact Nat.le_refl _
  | case3 w next ws ih1 ih2 =>
    rw [List.countP_cons, List.countP_cons, hone]
    apply Nat.add_le_add_right
    -- whether or not the next line is lost, what is handed out comes from the lines behind
    by_cases hides : t.Hides limit w
    · rw [if_pos hides]
      exact Nat.le_trans ih1 (List.Sublist.countP_le (List.sublist_cons_self next ws))
    · rw [if_neg hides]
      exact ih2

namespace Receiver

variable {ε : Type}

/-! ## An event that goes on -/

/-- What lines add to the text of an event: the mark before each of them, and the line. -/
def continuationText (mark : Char) (raws : List Bytes) : Text :=
  raws.flatMap fun raw => mark :: Utf8.decode raw

/-- How many lines the event that goes on is still waiting for. -/
def missing (r : Receiver ε) : Nat := r.capture.elim 0 Capture.remaining

theorem handle_of_capture (r : Receiver ε) (c : Capture ε) (hc : r.capture = some c)
    (raw : Bytes) : r.handle (.line raw) = r.counted.continueCapture c (Utf8.decode raw) := by
  have hcounted : r.counted.capture = some c := hc
  show r.counted.handleText (Utf8.decode raw) = _
  unfold handleText
  rw [hcounted]

/-- **All of its lines.** The event is announced with the last one, and nothing else has changed
but the counters. -/
theorem handleAll_completes (raws : List Bytes) (hne : raws ≠ []) (r : Receiver ε) (event : ε)
    (args : Text) (hc : r.capture = some ⟨event, args, raws.length⟩) :
    r.handleAll (raws.map .line)
      = ({ r with
            capture := none
            stats := r.stats + { lines := raws.length, events := 1 } },
        [.event ⟨event, args ++ continuationText r.vocabulary.continuation raws⟩]) := by
  induction raws generalizing r args with
  | nil => exact absurd rfl hne
  | cons raw raws ih =>
    have hhandle := handle_of_capture r _ hc raw
    cases raws with
    | nil =>
      have hdone : r.handle (.line raw)
          = ({ r with capture := none, stats := r.stats + { lines := 1, events := 1 } },
            some (.event ⟨event, args ++ r.vocabulary.continuation :: Utf8.decode raw⟩)) := hhandle
      rw [List.map_cons, handleAll_cons, hdone, continuationText, List.flatMap_singleton]
      rfl
    | cons next raws =>
      -- there is a line to come, so the event goes on with one line less to wait for
      have htaken : r.handle (.line raw)
          = ({ r.counted with capture := some ⟨event,
                args ++ r.vocabulary.continuation :: Utf8.decode raw, (next :: raws).length⟩ },
            none) := hhandle
      have hmore := ih (List.cons_ne_nil next raws) (r.handle (.line raw)).1
        (args ++ r.vocabulary.continuation :: Utf8.decode raw) (by rw [htaken])
      have hstats : r.stats + { lines := 1 } + { lines := (next :: raws).length, events := 1 }
          = r.stats + { lines := (raw :: next :: raws).length, events := 1 } := by
        simp only [Stats.add_def, List.length_cons]
        simp only [Stats.mk.injEq, and_true]
        omega
      rw [List.map_cons, handleAll_cons, hmore, ← hstats, htaken]
      simp only [continuationText, List.flatMap_cons, List.append_assoc, List.cons_append,
        Option.toList_none, List.nil_append]
      rfl

/-- **No more lines than are missing.** Each of them leaves one less to wait for, whatever it says;
nothing is resolved. Lines that were given up leave everything as it is. -/
theorem handleAll_missing (items : List Framed) (r : Receiver ε)
    (hle : items.countP Framed.isLine ≤ r.missing) :
    (r.handleAll items).1.missing = r.missing - items.countP Framed.isLine
      ∧ Output.resolutions (r.handleAll items).2 = [] := by
  induction items generalizing r with
  | nil => exact ⟨rfl, rfl⟩
  | cons item items ih =>
    rw [handleAll_cons, Output.resolutions_append]
    cases item with
    | overlong limit =>
      rw [List.countP_cons_of_neg Bool.false_ne_true] at hle ⊢
      exact ih _ hle
    | line raw =>
      rw [List.countP_cons_of_pos rfl] at hle ⊢
      cases hc : r.capture with
      | none =>
        have hzero : r.missing = 0 := by rw [missing, hc, Option.elim_none]
        omega
      | some c =>
        have hmissing : r.missing = c.remaining := by rw [missing, hc, Option.elim_some]
        rw [handle_of_capture r c hc raw]
        unfold continueCapture
        by_cases hlast : c.remaining - 1 = 0
        · simp only [if_pos hlast]
          obtain ⟨hrest, hout⟩ := ih ({ r.counted with capture := none }.announce
            ⟨c.event, c.args ++ r.counted.vocabulary.continuation :: Utf8.decode raw⟩).1
            (by show _ ≤ 0; omega)
          refine ⟨?_, ?_⟩
          · rw [hrest]
            show 0 - _ = _
            omega
          · rw [hout]
            rfl
        · simp only [if_neg hlast]
          obtain ⟨hrest, hout⟩ := ih { r.counted with capture := some ⟨c.event,
            c.args ++ r.counted.vocabulary.continuation :: Utf8.decode raw, c.remaining - 1⟩ }
            (by show _ ≤ c.remaining - 1; omega)
          refine ⟨?_, ?_⟩
          · rw [hrest]
            show c.remaining - 1 - _ = _
            omega
          · rw [hout]
            rfl

/-! ## On the wire -/

/-- Lines as they travel, each with the terminator behind it. -/
def onWire (t : Terminators) (ws : List Bytes) : Bytes := ws.flatMap (· ++ t.bytes)

theorem onWire_append (t : Terminators) (ws more : List Bytes) :
    onWire t (ws ++ more) = onWire t ws ++ onWire t more :=
  List.flatMap_append

/-- **The header** opens the event and leaves the framer at the start of the next line. -/
theorem feed_header (r : Receiver ε) (hstart : r.framer.reset = r.framer)
    (hprompt : r.framer.prompt = none) {header : Bytes} {m : EventMatch ε}
    (hheader : r.framer.terminators.IsWireLine header) (hfits : header.length ≤ r.framer.limit)
    (hl : r.IsLookedAt header) (hm : r.Knows header m) (hmore : m.trailing ≠ 0) :
    r.feed (onWire r.framer.terminators [header])
      = ({ r.counted with capture := some ⟨m.event, m.args, m.trailing⟩ }, []) := by
  have hopened : r.counted.matched m
      = ({ r.counted with capture := some ⟨m.event, m.args, m.trailing⟩ }, none) := if_neg hmore
  have hfeed := feed_line r hstart header hheader (by simp [hprompt]) hfits
  rw [handle_of_knows r header m hl hm, hopened] at hfeed
  rw [onWire, List.flatMap_singleton]
  exact hfeed

/-- **An event that fits** is announced with all of its lines, and but for the counters the receive
path is back where it was before the header. -/
theorem feed_fitting (r : Receiver ε) (hstart : r.framer.reset = r.framer)
    (hprompt : r.framer.prompt = none) {header : Bytes} {m : EventMatch ε}
    (hheader : r.framer.terminators.IsWireLine header) (hfits : header.length ≤ r.framer.limit)
    (hl : r.IsLookedAt header) (hm : r.Knows header m) {ws : List Bytes} (hsome : ws ≠ [])
    (hcount : ws.length = m.trailing) (hws : ∀ w ∈ ws, r.framer.terminators.IsWireLine w)
    (hfit : ∀ w ∈ ws, w.length ≤ r.framer.limit) :
    r.feed (onWire r.framer.terminators (header :: ws))
      = (r.withStats (r.stats + { lines := ws.length + 1, events := 1 }),
        [.event ⟨m.event, m.args ++ continuationText r.vocabulary.continuation ws⟩]) := by
  have hmore : m.trailing ≠ 0 := by
    rw [← hcount]
    exact fun h => hsome (List.length_eq_zero_iff.mp h)
  have hopen := feed_header r hstart hprompt hheader hfits hl hm hmore
  have hlines := feed_lines { r.counted with capture := some ⟨m.event, m.args, m.trailing⟩ } hstart
    hprompt ws hws hfit
  have hdone := handleAll_completes ws hsome
    { r.counted with capture := some ⟨m.event, m.args, m.trailing⟩ } m.event m.args (by rw [hcount])
  have hstats : r.stats + { lines := 1 } + { lines := ws.length, events := 1 }
      = r.stats + { lines := ws.length + 1, events := 1 } := by
    rw [Stats.add_assoc, Nat.add_comm ws.length 1]
    rfl
  have hcapture : r.capture = none := hl.capture_eq_none
  have hrest : Receiver.feed { r.counted with capture := some ⟨m.event, m.args, m.trailing⟩ }
      (onWire r.framer.terminators ws)
      = (r.withStats (r.stats + { lines := ws.length + 1, events := 1 }),
        [.event ⟨m.event, m.args ++ continuationText r.vocabulary.continuation ws⟩]) := by
    rw [withStats, ← hstats, hcapture]
    exact hlines.trans hdone
  rw [← List.singleton_append, onWire_append, feed_append, hopen]
  exact hrest

/-- Wire lines one of which is too long are not enough lines for an event that waits for as many:
it still waits behind them, and with one more line nothing is resolved yet. -/
theorem missing_of_overlong (r : Receiver ε) (hstart : r.framer.reset = r.framer)
    (hprompt : r.framer.prompt = none) (ws : List Bytes)
    (hws : ∀ w ∈ ws, r.framer.terminators.IsWireLine w) (hmissing : r.missing = ws.length)
    (hlong : ¬ ∀ w ∈ ws, w.length ≤ r.framer.limit) :
    (r.feed (onWire r.framer.terminators ws)).1.missing ≠ 0
      ∧ ∀ next, r.framer.terminators.IsWireLine next →
        Output.resolutions ((r.feed (onWire r.framer.terminators ws)).1.feed
          (onWire r.framer.terminators [next])).2 = [] := by
  have hfew : (ws.countP fun w => decide (w.length ≤ r.framer.limit)) < ws.length := by
    refine Nat.lt_of_le_of_ne List.countP_le_length fun hall => hlong ?_
    intro w hw
    exact of_decide_eq_true (List.countP_eq_length.mp hall w hw)
  constructor
  · have hitems := Framer.feed_wireLines r.framer hstart hprompt ws hws
    have hcount := Framed.countP_ofLines_le r.framer.terminators r.framer.limit ws
    obtain ⟨hleft, -⟩ := handleAll_missing (Framed.ofLines r.framer.terminators r.framer.limit ws) r
      (by omega)
    rw [feed_eq_handleAll, onWire, hitems]
    show (handleAll r _).1.missing ≠ 0
    omega
  · intro next hnext
    -- both stretches together hold no more lines than are missing
    have hitems := Framer.feed_wireLines r.framer hstart hprompt (ws ++ [next]) (by
      intro w hw
      rcases List.mem_append.mp hw with hw | hw
      · exact hws w hw
      · rw [List.mem_singleton.mp hw]
        exact hnext)
    have hcount := Framed.countP_ofLines_le r.framer.terminators r.framer.limit (ws ++ [next])
    have hone : ([next].countP fun w => decide (w.length ≤ r.framer.limit)) ≤ 1 :=
      List.countP_le_length
    rw [List.countP_append] at hcount
    obtain ⟨-, hnone⟩ := handleAll_missing
      (Framed.ofLines r.framer.terminators r.framer.limit (ws ++ [next])) r (by omega)
    have hall : Output.resolutions (r.feed (onWire r.framer.terminators (ws ++ [next]))).2 = [] := by
      rw [feed_eq_handleAll, onWire, hitems]
      exact hnone
    rw [onWire_append, feed_append, Output.resolutions_append] at hall
    exact (List.append_eq_nil_iff.mp hall).2

/-- **The lines of an event.** Behind the header of an event with trailing lines come as many wire
lines as it has, of any length.

* It has ended behind the last of them exactly if none of them is too long.
* In that case it is announced with all of them, and but for the counters the receive path is back
  where it was before the header.
* A confirmation on the next line ends the command in flight exactly in that case. -/
theorem continuation_lines_iff (r : Receiver ε) (hstart : r.framer.reset = r.framer)
    (hprompt : r.framer.prompt = none) (header : Bytes) (m : EventMatch ε)
    (hheader : r.framer.terminators.IsWireLine header) (hfits : header.length ≤ r.framer.limit)
    (hl : r.IsLookedAt header) (hm : r.Knows header m) (ws : List Bytes) (hsome : ws ≠ [])
    (hcount : ws.length = m.trailing) (hws : ∀ w ∈ ws, r.framer.terminators.IsWireLine w) :
    let behind := r.feed (onWire r.framer.terminators (header :: ws))
    let allFit := ∀ w ∈ ws, w.length ≤ r.framer.limit
    (behind.1.capture = none ↔ allFit)
      ∧ (allFit → behind
          = ({ r with stats := r.stats + { lines := ws.length + 1, events := 1 } },
            [.event ⟨m.event, m.args ++ continuationText r.vocabulary.continuation ws⟩]))
      ∧ ∀ p next status failure, r.tracker.current = some p →
          r.framer.terminators.IsWireLine next → next.length ≤ r.framer.limit →
          r.IsLookedAt next → r.kind next = .confirmation status failure →
          status.isTerminal = true →
          ((behind.1.feed (onWire r.framer.terminators [next])).2
            = [.resolved (p.resolve status failure)] ↔ allFit) := by
  intro behind allFit
  have hmore : m.trailing ≠ 0 := by
    rw [← hcount]
    exact fun h => hsome (List.length_eq_zero_iff.mp h)
  have hopen := feed_header r hstart hprompt hheader hfits hl hm hmore
  have hfit (h : allFit) : behind
      = (r.withStats (r.stats + { lines := ws.length + 1, events := 1 }),
        [.event ⟨m.event, m.args ++ continuationText r.vocabulary.continuation ws⟩]) :=
    feed_fitting r hstart hprompt hheader hfits hl hm hsome hcount hws h
  have hbehind : behind.1 = (Receiver.feed
      { r.counted with capture := some ⟨m.event, m.args, m.trailing⟩ }
      (onWire r.framer.terminators ws)).1 := by
    show (r.feed (onWire r.framer.terminators (header :: ws))).1 = _
    rw [← List.singleton_append, onWire_append, feed_append, hopen]
  -- otherwise the event still waits, and one more line is not enough to resolve anything
  have hlong (h : ¬ allFit) : behind.1.missing ≠ 0
      ∧ ∀ next, r.framer.terminators.IsWireLine next →
        Output.resolutions (behind.1.feed (onWire r.framer.terminators [next])).2 = [] := by
    rw [hbehind]
    exact missing_of_overlong { r.counted with capture := some ⟨m.event, m.args, m.trailing⟩ }
      hstart hprompt ws hws hcount.symm h
  refine ⟨⟨?_, ?_⟩, hfit, ?_⟩
  · intro hended
    by_cases h : allFit
    · exact h
    · have hwaits := (hlong h).1
      rw [missing, hended] at hwaits
      exact absurd rfl hwaits
  · intro h
    rw [hfit h]
    exact hl.capture_eq_none
  · intro p next status failure hp hnext hnextfits hnextlooked hkind hterminal
    constructor
    · intro hout
      by_cases h : allFit
      · exact h
      · have hnone := (hlong h).2 next hnext
        rw [hout] at hnone
        cases hnone
    · intro h
      -- but for the counters this is the receive path before the header
      have hlooked : (r.withStats (r.stats + { lines := ws.length + 1, events := 1 })).IsLookedAt
          next := ⟨hnextlooked.capture_eq_none, hnextlooked.not_blank⟩
      have hfeed := feed_line (r.withStats (r.stats + { lines := ws.length + 1, events := 1 }))
        hstart next hnext (by simp [withStats, hprompt]) hnextfits
      rw [handle_of_confirmation _ next hlooked hp hkind hterminal] at hfeed
      rw [hfit h, onWire, List.flatMap_singleton]
      exact congrArg Prod.snd hfeed

/-- A message of one line, of eight bytes at most, while a command is in flight. -/
def shortLines : Receiver Unit :=
  (Run.of { framing := { lineLimit := 8 } }
    { root := { entries := .event "CMT" ⟨(), 1⟩ .nil } } [.begin "AT+X"]).receiver

/-- Eight bytes fit: the message is announced with them, and the confirmation behind them ends the
command in flight. -/
theorem continuation_line_of_eight :
    (∀ w ∈ [Utf8.encode "12345678"], w.length ≤ 8)
      ∧ let behind := shortLines.feed (onWire .crlf [Utf8.encode "+CMT", Utf8.encode "12345678"])
        behind.1.capture = none ∧ behind.2 = [.event ⟨(), "\n12345678"⟩]
          ∧ (behind.1.feed (onWire .crlf [Utf8.encode "OK"])).2
            = [.resolved ⟨1, "X", .success, [], false, none⟩] := by
  have hfit : ∀ w ∈ [Utf8.encode "12345678"], w.length ≤ 8 := by decide
  obtain ⟨hended, hall, hnext⟩ := continuation_lines_iff shortLines rfl rfl (Utf8.encode "+CMT")
    ⟨(), [], 1⟩ (by decide) (by decide) ⟨rfl, by decide⟩ (.inl ⟨"CMT", rfl, rfl⟩)
    [Utf8.encode "12345678"] (by decide) rfl (by decide)
  refine ⟨hfit, hended.mpr hfit, congrArg Prod.snd (hall hfit), ?_⟩
  exact (hnext ⟨1, "X", {}, 0⟩ (Utf8.encode "OK") .success none rfl (by decide) (by decide)
    ⟨rfl, by decide⟩ rfl rfl).mpr hfit

/-- Nine bytes do not, and the message takes in the confirmation of the command in flight, which
goes on waiting for it. -/
theorem overlong_line_takes_confirmation :
    shortLines.framer.reset = shortLines.framer ∧ shortLines.framer.prompt = none
      ∧ shortLines.IsLookedAt (Utf8.encode "+CMT")
      ∧ shortLines.Knows (Utf8.encode "+CMT") ⟨(), [], 1⟩
      ∧ (∀ w ∈ [Utf8.encode "+CMT", Utf8.encode "123456789", Utf8.encode "OK"],
          shortLines.framer.terminators.IsWireLine w)
      ∧ shortLines.kind (Utf8.encode "OK") = .confirmation .success none
      ∧ (let behind := shortLines.feed
            (onWire .crlf [Utf8.encode "+CMT", Utf8.encode "123456789"])
        behind.1.capture ≠ none ∧ behind.2 = []
          ∧ (behind.1.feed (onWire .crlf [Utf8.encode "OK"])).2 = [.event ⟨(), "\nOK"⟩]
          ∧ (behind.1.feed (onWire .crlf [Utf8.encode "OK"])).1.isPending = true) := by
  refine ⟨rfl, rfl, ⟨rfl, by decide⟩, .inl ⟨"CMT", rfl, rfl⟩, by decide, rfl, ?_⟩
  refine ⟨?_, rfl, rfl, rfl⟩
  intro hended
  cases hended

end Receiver

end ModemLink
