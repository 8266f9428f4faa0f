/-
Lines in a row, and the counters beside them.

Within the limit, and from the start of a line, each wire line is one item, so feeding lines is
handling them in their order. Below that stands what a line cannot do: it adds to the counters and
never reads them. Two receive paths that differ in their counters alone therefore say the same for
ever, which is what comparing one run with another comes down to.
-/
import ModemLink.Proofs.Receiver.Handled

set_option autoImplicit false

namespace ModemLink

/-! ## Counters are added up -/

instance : Add Stats where
  add a b :=
    { lines := a.lines + b.lines
      confirmations := a.confirmations + b.confirmations
      strayConfirmations := a.strayConfirmations + b.strayConfirmations
      bodyLines := a.bodyLines + b.bodyLines
      events := a.events + b.events
      unknownEvents := a.unknownEvents + b.unknownEvents
      overflows := a.overflows + b.overflows
      droppedLines := a.droppedLines + b.droppedLines
      eventsLost := a.eventsLost + b.eventsLost }

theorem Stats.add_def (a b : Stats) :
    a + b = ⟨a.lines + b.lines, a.confirmations + b.confirmations,
      a.strayConfirmations + b.strayConfirmations, a.bodyLines + b.bodyLines, a.events + b.events,
      a.unknownEvents + b.unknownEvents, a.overflows + b.overflows,
      a.droppedLines + b.droppedLines, a.eventsLost + b.eventsLost⟩ := rfl

theorem Stats.add_assoc (a b c : Stats) : a + b + c = a + (b + c) := by
  simp only [Stats.add_def, Nat.add_assoc]

namespace Receiver

variable {ε : Type}

/-! ## Handling in a row -/

theorem handleAll_cons (r : Receiver ε) (item : Framed) (items : List Framed) :
    r.handleAll (item :: items)
      = (((r.handle item).1.handleAll items).1,
        (r.handle item).2.toList ++ ((r.handle item).1.handleAll items).2) := rfl

theorem handleAll_append (r : Receiver ε) (a b : List Framed) :
    r.handleAll (a ++ b)
      = (((r.handleAll a).1.handleAll b).1,
        (r.handleAll a).2 ++ ((r.handleAll a).1.handleAll b).2) := by
  induction a generalizing r with
  | nil => rfl
  | cons item a ih =>
    rw [List.cons_append, handleAll_cons, ih, handleAll_cons]
    simp only [List.append_assoc]

theorem handleAll_fixed (r : Receiver ε) (items : List Framed) :
    (r.handleAll items).1.vocabulary = r.vocabulary ∧ (r.handleAll items).1.table = r.table
      ∧ (r.handleAll items).1.framer = r.framer := by
  induction items generalizing r with
  | nil => exact ⟨rfl, rfl, rfl⟩
  | cons item items ih =>
    obtain ⟨hv, ht, hf⟩ := (handle_handled r item).fixed
    obtain ⟨hv', ht', hf'⟩ := ih (r.handle item).1
    rw [handleAll_cons]
    exact ⟨hv'.trans hv, ht'.trans ht, hf'.trans hf⟩

/-- **Lines within the limit** are handled as they stand, one after the other. -/
theorem feed_lines (r : Receiver ε) (hf : r.framer.reset = r.framer)
    (hp : r.framer.prompt = none) (ws : List Bytes)
    (hws : ∀ w ∈ ws, r.framer.terminators.IsWireLine w)
    (hlength : ∀ w ∈ ws, w.length ≤ r.framer.limit) :
    r.feed (ws.flatMap (· ++ r.framer.terminators.bytes)) = r.handleAll (ws.map .line) := by
  induction ws generalizing r with
  | nil => rfl
  | cons w ws ih =>
    have hhead := feed_line r hf w (hws w List.mem_cons_self) (by simp [hp])
      (hlength w List.mem_cons_self)
    -- handling a line leaves the framer where it is, so the next line starts as this one did
    have hframer : (r.handle (.line w)).1.framer = r.framer :=
      (handle_handled r (.line w)).fixed.2.2
    have htail := ih (r.handle (.line w)).1 (by rw [hframer]; exact hf) (by rw [hframer]; exact hp)
      (by rw [hframer]; exact fun v hv => hws v (List.mem_cons_of_mem w hv))
      (by rw [hframer]; exact fun v hv => hlength v (List.mem_cons_of_mem w hv))
    rw [hframer] at htail
    rw [List.flatMap_cons, feed_append, hhead, List.map_cons, handleAll_cons]
    simp only [htail]

/-! ## A line, by what it is -/

theorem handle_of_blank (r : Receiver ε) (raw : Bytes) (hc : r.capture = none)
    (hb : Text.trim (Utf8.decode raw) = []) : r.handle (.line raw) = (r.counted, none) := by
  have hcounted : r.counted.capture = none := hc
  show r.counted.handleText (Utf8.decode raw) = _
  unfold handleText
  rw [hcounted]
  exact if_pos hb

theorem handle_of_isLookedAt (r : Receiver ε) (raw : Bytes) (hl : r.IsLookedAt raw) :
    r.handle (.line raw) = r.counted.dispatch (r.kind raw) := by
  have hcounted : r.counted.capture = none := hl.capture_eq_none
  show r.counted.handleText (Utf8.decode raw) = _
  unfold handleText
  rw [hcounted]
  exact if_neg hl.not_blank

theorem handle_of_knows (r : Receiver ε) (raw : Bytes) (m : EventMatch ε) (hl : r.IsLookedAt raw)
    (hm : r.Knows raw m) : r.handle (.line raw) = r.counted.matched m := by
  have htable : r.counted.table = r.table := rfl
  rw [handle_of_isLookedAt r raw hl]
  rcases hm with ⟨text, hk, hm⟩ | ⟨text, hk, hm⟩
  · rw [hk]
    simp only [dispatch, htable, hm]
  · rw [hk]
    simp only [dispatch, htable, hm]

/-- A confirmation ends the command in flight. -/
theorem handle_of_confirmation (r : Receiver ε) (raw : Bytes) (hl : r.IsLookedAt raw) {p : Pending}
    (hp : r.tracker.current = some p) {status : Status} {failure : Option Failure}
    (hk : r.kind raw = .confirmation status failure) (hterminal : status.isTerminal = true) :
    r.handle (.line raw)
      = ({ r.counted with tracker := { r.tracker with current := none } }.count
          fun s => { s with confirmations := s.confirmations + 1 },
        some (.resolved (p.resolve status failure))) := by
  have hresolve : r.counted.tracker.resolve? status failure
      = some (p.resolve status failure, { r.tracker with current := none }) := by
    show r.tracker.resolve? status failure = _
    rw [Tracker.resolve?, if_pos hterminal, hp]
    rfl
  rw [handle_of_isLookedAt r raw hl, hk]
  simp only [dispatch, hresolve]

/-! ## Counters are only written -/

/-- The receive path with other counters. -/
def withStats (s : Stats) (r : Receiver ε) : Receiver ε := { r with stats := s }

/-- **A step that only counts.** It adds the same to whatever counters there are, leaves the lost
events alone, and does and says otherwise what it would with any counters. -/
def OnlyCounts {β : Type} (step : Receiver ε → Receiver ε × β) (r : Receiver ε) : Prop :=
  ∃ added : Stats, added.eventsLost = 0 ∧
    ∀ s, step (r.withStats s) = ((step r).1.withStats (s + added), (step r).2)

theorem onlyCounts_matched (m : EventMatch ε) (r : Receiver ε) : OnlyCounts (matched m) r := by
  unfold OnlyCounts matched
  by_cases hz : m.trailing = 0
  · simp only [if_pos hz]
    exact ⟨{ events := 1 }, rfl, fun _ => rfl⟩
  · simp only [if_neg hz]
    exact ⟨{}, rfl, fun _ => rfl⟩

theorem onlyCounts_dispatch (line : Line) (r : Receiver ε) : OnlyCounts (dispatch line) r := by
  cases line with
  | confirmation status failure =>
    cases h : r.tracker.resolve? status failure with
    | some answer =>
      refine ⟨{ confirmations := 1 }, rfl, fun s => ?_⟩
      have hs : (r.withStats s).tracker.resolve? status failure = some answer := h
      simp only [dispatch, h, hs]
      rfl
    | none =>
      refine ⟨{ strayConfirmations := 1 }, rfl, fun s => ?_⟩
      have hs : (r.withStats s).tracker.resolve? status failure = none := h
      simp only [dispatch, h, hs]
      rfl
  | body text => exact ⟨{ bodyLines := 1 }, rfl, fun _ => rfl⟩
  | event text =>
    cases h : r.table.resolve text with
    | ok m =>
      obtain ⟨added, hlost, hadded⟩ := onlyCounts_matched m r
      refine ⟨added, hlost, fun s => ?_⟩
      have hs : (r.withStats s).table.resolve text = .ok m := h
      simp only [dispatch, h, hs]
      exact hadded s
    | error err =>
      refine ⟨{ unknownEvents := 1 }, rfl, fun s => ?_⟩
      have hs : (r.withStats s).table.resolve text = .error err := h
      simp only [dispatch, h, hs]
      rfl
  | plain text =>
    cases h : r.table.resolveBare text with
    | ok m =>
      obtain ⟨added, hlost, hadded⟩ := onlyCounts_matched m r
      refine ⟨added, hlost, fun s => ?_⟩
      have hs : (r.withStats s).table.resolveBare text = .ok m := h
      simp only [dispatch, h, hs]
      exact hadded s
    | error err =>
      refine ⟨{ droppedLines := 1 }, rfl, fun s => ?_⟩
      have hs : (r.withStats s).table.resolveBare text = .error err := h
      simp only [dispatch, h, hs]
      rfl

theorem onlyCounts_handleText (line : Text) (r : Receiver ε) : OnlyCounts (handleText line) r := by
  cases hc : r.capture with
  | some c =>
    have hs (s : Stats) : (r.withStats s).capture = some c := hc
    by_cases hlast : c.remaining - 1 = 0
    · refine ⟨{ events := 1 }, rfl, fun s => ?_⟩
      simp only [handleText, hc, hs, continueCapture, if_pos hlast]
      rfl
    · refine ⟨{}, rfl, fun s => ?_⟩
      simp only [handleText, hc, hs, continueCapture, if_neg hlast]
      rfl
  | none =>
    have hs (s : Stats) : (r.withStats s).capture = none := hc
    by_cases hb : Text.trim line = []
    · refine ⟨{}, rfl, fun s => ?_⟩
      simp only [handleText, hc, hs, if_pos hb]
      rfl
    · obtain ⟨added, hlost, hadded⟩ :=
        onlyCounts_dispatch (r.vocabulary.classify line r.tracker.pendingName?) r
      refine ⟨added, hlost, fun s => ?_⟩
      simp only [handleText, hc, hs, if_neg hb]
      exact hadded s

/-- **An item only counts.** -/
theorem onlyCounts_handle (item : Framed) (r : Receiver ε) : OnlyCounts (handle item) r := by
  cases item with
  | overlong limit => exact ⟨{ overflows := 1 }, rfl, fun _ => rfl⟩
  | line raw =>
    obtain ⟨added, hlost, hadded⟩ := onlyCounts_handleText (Utf8.decode raw) r
    refine ⟨{ lines := 1 } + added, (Nat.zero_add _).trans hlost, fun s => ?_⟩
    have hcounted : r.handle (.line raw)
        = ((r.handleText (Utf8.decode raw)).1.withStats (r.stats + { lines := 1 } + added),
          (r.handleText (Utf8.decode raw)).2) := hadded _
    have hother : (r.withStats s).handle (.line raw)
        = ((r.handleText (Utf8.decode raw)).1.withStats (s + { lines := 1 } + added),
          (r.handleText (Utf8.decode raw)).2) := hadded _
    rw [hother, hcounted, Stats.add_assoc]
    rfl

theorem onlyCounts_handleAll (items : List Framed) (r : Receiver ε) :
    OnlyCounts (handleAll · items) r := by
  induction items generalizing r with
  | nil => exact ⟨{}, rfl, fun _ => rfl⟩
  | cons item items ih =>
    obtain ⟨first, hlost, hfirst⟩ := onlyCounts_handle item r
    obtain ⟨more, hlost', hmore⟩ := ih (r.handle item).1
    refine ⟨first + more, ?_, fun s => ?_⟩
    · rw [Stats.add_def, hlost, hlost']
    · simp only [handleAll_cons, hfirst, hmore, Stats.add_assoc]

/-- **Bytes only count.** -/
theorem onlyCounts_feed (bytes : Bytes) (r : Receiver ε) : OnlyCounts (feed · bytes) r := by
  obtain ⟨added, hlost, hadded⟩ := onlyCounts_handleAll (r.framer.feed bytes).2 r
  refine ⟨added, hlost, fun s => ?_⟩
  have hframer : (r.withStats s).framer = r.framer := rfl
  simp only [feed_eq_handleAll, hframer, hadded]
  rfl

/-- What is handed out does not depend on the counters. -/
theorem handleAll_withStats (s : Stats) (r : Receiver ε) (items : List Framed) :
    ∃ s', (r.withStats s).handleAll items
      = ((r.handleAll items).1.withStats s', (r.handleAll items).2) := by
  obtain ⟨added, -, hadded⟩ := onlyCounts_handleAll items r
  exact ⟨s + added, hadded s⟩

/-! ## Lost events -/

/-- The receive path with so many more events counted as lost. -/
def lose (k : Nat) (r : Receiver ε) : Receiver ε :=
  r.count fun s => { s with eventsLost := s.eventsLost + k }

theorem lose_lose (j k : Nat) (r : Receiver ε) : (r.lose j).lose k = r.lose (j + k) := by
  unfold lose count
  simp only [Nat.add_assoc]

theorem begin_lose (k : Nat) (r : Receiver ε) {command : Text} {number : Nat} {begun : Receiver ε}
    (h : r.begin command = .ok (number, begun)) :
    (r.lose k).begin command = .ok (number, begun.lose k) := by
  have htracker : (r.lose k).tracker = r.tracker := rfl
  have hvocabulary : (r.lose k).vocabulary = r.vocabulary := rfl
  unfold begin at h ⊢
  rw [htracker, hvocabulary]
  cases hbegin : r.tracker.begin r.vocabulary.separators command with
  | error err =>
    rw [hbegin] at h
    cases h
  | ok outcome =>
    rw [hbegin] at h
    cases h
    rfl

/-- Events that were lost before are lost behind the bytes just as well. -/
theorem feed_lose (k : Nat) (r : Receiver ε) (bytes : Bytes) :
    (r.lose k).feed bytes = ((r.feed bytes).1.lose k, (r.feed bytes).2) := by
  obtain ⟨added, hlost, hadded⟩ := onlyCounts_feed bytes r
  have hstats : (r.feed bytes).1.stats = r.stats + added :=
    congrArg (fun p => p.1.stats) (hadded r.stats)
  have hmore : (r.lose k).stats + added = ((r.feed bytes).1.lose k).stats := by
    show (r.lose k).stats + added
      = { (r.feed bytes).1.stats with eventsLost := (r.feed bytes).1.stats.eventsLost + k }
    rw [hstats]
    simp only [Stats.add_def, hlost]
    rfl
  have hlose : (r.lose k).feed bytes
      = ((r.feed bytes).1.withStats ((r.lose k).stats + added), (r.feed bytes).2) := hadded _
  rw [hlose, hmore]
  rfl

end Receiver

end ModemLink
