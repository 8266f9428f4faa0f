/-
An event that takes in the lines behind its header.

From the header on, each line that the framer hands out goes to the event, whatever it says: a blank line, a
confirmation, a piece of a reply, the header of another event. `Capture.taking` says what becomes of the event,
and `Waits` what becomes of the receive path around it. Its tracker is that of the calls alone, and its counters
have moved by the lines, by what the framer gave up, and by the events that were called lost.

The calls may begin requests and give them up. A switch of terminators is none of them, since it discards the
event.
-/
import ModemLink.Proofs.Receiver.Accounts

set_option autoImplicit false

namespace ModemLink

variable {ε : Type}

/-! ## Lines, and the calls between them -/

/-- The lines among items. -/
def Framed.lines : List Framed → List Bytes
  | [] => []
  | .line raw :: items => raw :: lines items
  | .overlong _ :: items => lines items

theorem Framed.lines_append (a b : List Framed) : lines (a ++ b) = lines a ++ lines b := by
  induction a with
  | nil => rfl
  | cons item a ih =>
    cases item with
    | line raw => exact congrArg (raw :: ·) ih
    | overlong limit => exact ih

/-- **What items add to the counters** where nothing is made of their lines. -/
def Framed.tally (items : List Framed) : Stats :=
  { lines := (lines items).length
    overflows := items.countP fun item => !item.isLine }

theorem Framed.tally_append (a b : List Framed) : tally (a ++ b) = tally a + tally b := by
  unfold tally
  rw [lines_append, List.length_append, List.countP_append]
  rfl

/-- **What a call makes of the command in flight.** Bytes are no call in this sense. -/
def Tracker.called (separators : List Char) (t : Tracker) : Receiver.Operation → Tracker
  | .begin command =>
    match t.begin separators command with
    | .ok (_, t') => t'
    | .error _ => t
  | .cancel number => (t.cancel number).2
  | _ => t

namespace Capture

/-- An event with more lines taken in. -/
def taking (mark : Char) (raws : List Bytes) (c : Capture ε) : Capture ε :=
  ⟨c.event, c.args ++ Receiver.continuationText mark raws, c.remaining - raws.length⟩

theorem taking_nil (mark : Char) (c : Capture ε) : c.taking mark [] = c := by
  unfold taking Receiver.continuationText
  rw [List.flatMap_nil, List.append_nil, List.length_nil, Nat.sub_zero]

theorem taking_append (mark : Char) (raws more : List Bytes) (c : Capture ε) :
    c.taking mark (raws ++ more) = (c.taking mark raws).taking mark more := by
  unfold taking Receiver.continuationText
  rw [List.flatMap_append, List.append_assoc, List.length_append, Nat.sub_sub]

end Capture

namespace Receiver

/-! ## Something is always missing -/

/-- **An event that goes on still misses a line.** -/
def Misses (r : Receiver ε) : Prop := ∀ c, r.capture = some c → 1 ≤ c.remaining

theorem Handled.misses {r r' : Receiver ε} {item : Framed} {out : Option (Output ε)}
    (h : Handled r item r' out) (hmisses : r.Misses) : r'.Misses := by
  cases h with
  | taken raw c hc hmore =>
    intro c' hc'
    cases hc'
    exact Nat.one_le_iff_ne_zero.mpr hmore
  | completed raw c hc hlast => intro c' hc'; cases hc'
  | opened raw m hl hm hz =>
    intro c' hc'
    cases hc'
    exact Nat.one_le_iff_ne_zero.mpr hz
  | _ => exact hmisses

theorem handleAll_misses {r : Receiver ε} (h : r.Misses) (items : List Framed) :
    (r.handleAll items).1.Misses := by
  induction items generalizing r with
  | nil => exact h
  | cons item items ih => exact ih ((handle_handled r item).misses h)

theorem perform_misses {r : Receiver ε} (h : r.Misses) (op : Operation) :
    (r.perform op).2.Misses := by
  cases op with
  | begin command =>
    cases hp : r.tracker.current with
    | none =>
      simp only [perform, begin_of_none r command hp]
      exact h
    | some p =>
      simp only [perform, begin_of_some r command p hp]
      exact h
  | cancel number => exact h
  | feed bytes =>
    have hall := handleAll_misses h (r.framer.feed bytes).2
    show (r.feed bytes).1.Misses
    rw [feed_eq_handleAll]
    exact hall
  | setTerminators t =>
    cases hp : r.tracker.current with
    | none =>
      -- the event is discarded
      simp only [perform, setTerminators_of_none r t hp]
      intro c hc
      cases hc
    | some p =>
      simp only [perform, setTerminators_of_some r t p hp]
      exact h
  | noteEventLost => exact h

theorem Run.foldl_step_misses {run : Run ε} (h : run.receiver.Misses) (ops : List Operation) :
    (ops.foldl step run).receiver.Misses := by
  induction ops generalizing run with
  | nil => exact h
  | cons op ops ih => exact ih (perform_misses h op)

/-! ## Lines before the last one -/

/-- **A line that is not the last one** is taken in. -/
theorem handle_taken {r : Receiver ε} {c : Capture ε} (hc : r.capture = some c) (raw : Bytes)
    (hmore : 1 < c.remaining) :
    r.handle (.line raw)
      = ({ r with
            capture := some (c.taking r.vocabulary.continuation [raw])
            stats := r.stats + { lines := 1 } },
        none) := by
  rw [handle_of_capture r c hc raw]
  unfold continueCapture
  rw [if_neg (by omega), Capture.taking, continuationText, List.flatMap_singleton]
  rfl

/-- **The last line** completes the event. -/
theorem handle_completes {r : Receiver ε} {c : Capture ε} (hc : r.capture = some c) (raw : Bytes)
    (hlast : c.remaining = 1) :
    r.handle (.line raw)
      = ({ r with capture := none, stats := r.stats + { lines := 1, events := 1 } },
        some (.event ⟨c.event, c.args ++ continuationText r.vocabulary.continuation [raw]⟩)) := by
  rw [handle_of_capture r c hc raw]
  unfold continueCapture
  rw [if_pos (by omega), continuationText, List.flatMap_singleton]
  rfl

/-- Without an event that goes on, a line is skipped if it is blank, and otherwise dealt with by what it is. -/
theorem handle_of_capture_eq_none {r : Receiver ε} (hc : r.capture = none) (raw : Bytes) :
    r.handle (.line raw)
      = if Text.trim (Utf8.decode raw) = [] then (r.counted, none)
        else r.counted.dispatch (r.kind raw) := by
  by_cases hb : Text.trim (Utf8.decode raw) = []
  · rw [if_pos hb, handle_of_blank r raw hc hb]
  · rw [if_neg hb, handle_of_isLookedAt r raw ⟨hc, hb⟩]

/-- **Items with too few lines.** All of these are taken in, and nothing is handed out. -/
theorem handleAll_taken (items : List Framed) (r : Receiver ε) (c : Capture ε)
    (hc : r.capture = some c) (hfew : (Framed.lines items).length < c.remaining) :
    r.handleAll items
      = ({ r with
            capture := some (c.taking r.vocabulary.continuation (Framed.lines items))
            stats := r.stats + Framed.tally items },
        []) := by
  induction items generalizing r c with
  | nil =>
    rw [Framed.lines, Capture.taking_nil, ← hc]
    rfl
  | cons item items ih =>
    have hcount (first : Framed) : r.stats + Framed.tally [first] + Framed.tally items
        = r.stats + Framed.tally (first :: items) := by
      rw [Stats.add_assoc, ← Framed.tally_append, List.singleton_append]
    rw [handleAll_cons, ← hcount]
    cases item with
    | overlong limit =>
      have hrest := ih (r.handle (.overlong limit)).1 c hc hfew
      rw [hrest]
      rfl
    | line raw =>
      rw [Framed.lines, List.length_cons] at hfew
      have htaken := handle_taken hc raw (by omega)
      have hrest := ih (r.handle (.line raw)).1 (c.taking r.vocabulary.continuation [raw])
        (by rw [htaken]) (by show _ < c.remaining - 1; omega)
      rw [hrest, htaken, ← Capture.taking_append]
      rfl

/-- The header of an event with trailing lines opens it. -/
theorem push_opens {r : Receiver ε} {b : UInt8} {header : Bytes} {m : EventMatch ε}
    (hline : (r.framer.push b).2 = some (.line header)) (hl : r.IsLookedAt header)
    (hm : r.Knows header m) (hmore : m.trailing ≠ 0) :
    r.push b
      = ({ r with
            framer := (r.framer.push b).1
            capture := some ⟨m.event, m.args, m.trailing⟩
            stats := r.stats + { lines := 1 } },
        none) := by
  have hopened : r.handle (.line header) = r.counted.matched m := handle_of_knows r header m hl hm
  rw [push_of_some hline, handle_framer, hopened]
  unfold matched
  rw [if_neg hmore]
  rfl

/-! ## Calls before the last line -/

/-- **An event waits.** Since it has begun, the calls have taken it this far, and have changed nothing
else but the command in flight by what they ask for. -/
structure Waits (r : Receiver ε) (c : Capture ε) (calls : List Operation) (r' : Receiver ε) : Prop where
  /-- it has taken in all lines, in their order -/
  capture_eq : r'.capture
    = some (c.taking r.vocabulary.continuation (Framed.lines (r.framed calls)))
  /-- it has changed no counter but that of the lines -/
  stats_eq : r'.stats
    = r.stats + Framed.tally (r.framed calls) + { eventsLost := calls.count .noteEventLost }
  /-- the command in flight is what the calls make of it -/
  tracker_eq : r'.tracker = calls.foldl (Tracker.called r.vocabulary.separators) r.tracker

theorem perform_waits {r : Receiver ε} {c : Capture ε} (hc : r.capture = some c) (op : Operation)
    (hop : ∀ t, op ≠ .setTerminators t)
    (hfew : (Framed.lines (r.framedIn op)).length < c.remaining) :
    (r.perform op).1.outputs = [] ∧ r.Waits c [op] (r.perform op).2 := by
  cases op with
  | begin command =>
    cases hp : r.tracker.current with
    | none =>
      have hbegin := begin_of_none r command hp
      simp only [perform, hbegin]
      refine ⟨rfl, ?_, rfl, ?_⟩
      · exact hc.trans (congrArg some (c.taking_nil _).symm)
      · simp [Tracker.called, Tracker.begin, Tracker.isPending, hp]
    | some p =>
      simp only [perform, begin_of_some r command p hp]
      refine ⟨rfl, ?_, rfl, ?_⟩
      · exact hc.trans (congrArg some (c.taking_nil _).symm)
      · simp [Tracker.called, Tracker.begin, Tracker.isPending, hp]
  | cancel number => exact ⟨rfl, hc.trans (congrArg some (c.taking_nil _).symm), rfl, rfl⟩
  | feed bytes =>
    have hall := handleAll_taken (r.framer.feed bytes).2 r c hc hfew
    have hfeed := feed_eq_handleAll r bytes
    rw [hall] at hfeed
    simp only [perform, hfeed]
    have hframed : r.framed [.feed bytes] = (r.framer.feed bytes).2 := List.append_nil _
    refine ⟨rfl, ?_, ?_, rfl⟩
    · rw [hframed]
    · rw [hframed]
      rfl
  | setTerminators t => exact absurd rfl (hop t)
  | noteEventLost => exact ⟨rfl, hc.trans (congrArg some (c.taking_nil _).symm), rfl, rfl⟩

/-- More calls go on where these have stopped. -/
theorem Waits.trans {r r' r'' : Receiver ε} {c : Capture ε} {calls more : List Operation}
    (h : r.Waits c calls r') (hfixed : r'.vocabulary = r.vocabulary)
    (hframed : r.framed (calls ++ more) = r.framed calls ++ r'.framed more)
    (h' : r'.Waits (c.taking r.vocabulary.continuation (Framed.lines (r.framed calls))) more r'') :
    r.Waits c (calls ++ more) r'' where
  capture_eq := by
    rw [h'.capture_eq, hfixed, hframed, Framed.lines_append, Capture.taking_append]
  stats_eq := by
    rw [h'.stats_eq, h.stats_eq, hframed, Framed.tally_append, List.count_append]
    simp only [Stats.add_def, Framed.tally, Nat.add_zero, Nat.add_assoc]
  tracker_eq := by
    rw [h'.tracker_eq, h.tracker_eq, hfixed, List.foldl_append]

namespace Run

/-- **Calls with too few lines.** The event waits behind them. -/
theorem foldl_step_waits {run : Run ε} {c : Capture ε} (hc : run.receiver.capture = some c)
    (calls : List Operation) (hcalls : ∀ t, .setTerminators t ∉ calls)
    (hfew : (Framed.lines (run.receiver.framed calls)).length < c.remaining) :
    (calls.foldl step run).outputs = run.outputs
      ∧ run.receiver.Waits c calls (calls.foldl step run).receiver := by
  induction calls generalizing run c with
  | nil => exact ⟨rfl, hc.trans (congrArg some (c.taking_nil _).symm), rfl, rfl⟩
  | cons op calls ih =>
    obtain ⟨hop, hcalls⟩ : (∀ t, op ≠ .setTerminators t) ∧ ∀ t, .setTerminators t ∉ calls := by
      simp only [List.mem_cons, not_or] at hcalls
      exact ⟨fun t h => (hcalls t).1 h.symm, fun t => (hcalls t).2⟩
    have hone : run.receiver.framed [op] = run.receiver.framedIn op := List.append_nil _
    have hframed : run.receiver.framed (op :: calls)
        = run.receiver.framed [op] ++ (run.step op).receiver.framed calls := by
      rw [hone]
      rfl
    rw [hframed, Framed.lines_append, List.length_append] at hfew
    obtain ⟨hnothing, hwaits⟩ := perform_waits hc op hop (by rw [← hone]; omega)
    have hleft : (Framed.lines ((run.step op).receiver.framed calls)).length
        < (c.taking run.receiver.vocabulary.continuation
          (Framed.lines (run.receiver.framed [op]))).remaining := by
      show _ < c.remaining - _
      omega
    obtain ⟨hnone, hmore⟩ := ih hwaits.capture_eq hcalls hleft
    refine ⟨?_, hwaits.trans (perform_fixed run.receiver op).1 hframed hmore⟩
    rw [List.foldl_cons, hnone]
    unfold outputs step
    rw [List.flatMap_append, List.flatMap_singleton, hnothing, List.append_nil]

/-- **The next lines are its own.** An event that goes on always misses a line. From the header of an event
with trailing lines on, and whatever requests are begun and given up meanwhile:

* while fewer lines have come than it has, nothing is handed out, all of them have been taken in, the
  command in flight is what the calls make of it, and no counter has moved that counts what a line says;
* one more line is taken in just so, unless it is the last one;
* with the last one the event is announced, with the arguments of the header and the text of each line
  behind the mark, and nothing else has changed but the counters of lines and of events;
* behind it lines are looked at again. -/
theorem next_lines_taken (config : Config) (table : EventTable ε) (ops : List Operation) :
    let run := of config table ops
    run.receiver.Misses
    ∧ ∀ b header m, (run.receiver.framer.push b).2 = some (.line header) →
        run.receiver.IsLookedAt header → run.receiver.Knows header m → m.trailing ≠ 0 →
        ∀ calls, (∀ t, .setTerminators t ∉ calls) →
          let event : Capture ε := ⟨m.event, m.args, m.trailing⟩
          let mark := config.vocabulary.continuation
          let opened := run.step (.feed [b])
          let waiting := calls.foldl step opened
          let raws := Framed.lines (opened.receiver.framed calls)
          raws.length < m.trailing →
            waiting.outputs = run.outputs
            ∧ opened.receiver.Waits event calls waiting.receiver
            ∧ ∀ b' raw, (waiting.receiver.framer.push b').2 = some (.line raw) →
                let before := { waiting.receiver with framer := (waiting.receiver.framer.push b').1 }
                let after := waiting.receiver.push b'
                (raws.length + 1 < m.trailing → after
                  = ({ before with
                        capture := some (event.taking mark (raws ++ [raw]))
                        stats := before.stats + { lines := 1 } },
                    none))
                ∧ (raws.length + 1 = m.trailing → after
                    = ({ before with
                          capture := none
                          stats := before.stats + { lines := 1, events := 1 } },
                      some (.event ⟨m.event, m.args ++ continuationText mark (raws ++ [raw])⟩))
                  ∧ ∀ next, after.1.handle (.line next)
                      = if Text.trim (Utf8.decode next) = [] then (after.1.counted, none)
                        else after.1.counted.dispatch (after.1.kind next)) := by
  intro run
  have hstart : (⟨.new config table, []⟩ : Run ε).receiver.Misses := fun c hc => nomatch hc
  refine ⟨foldl_step_misses hstart ops, ?_⟩
  intro b header m hline hl hm hmore calls hcalls event mark opened waiting raws hfew
  have hopened : run.receiver.feed [b] = ((run.receiver.push b).1, []) := by
    rw [feed_cons, push_opens hline hl hm hmore]
    rfl
  have hreceiver : opened.receiver = (run.receiver.push b).1 := congrArg Prod.fst hopened
  have houtputs : opened.outputs = run.outputs := by
    show (run.answers ++ [Answer.feed (run.receiver.feed [b]).2]).flatMap Answer.outputs = run.outputs
    rw [hopened, List.flatMap_append]
    exact List.append_nil _
  have hcapture : opened.receiver.capture = some event := by
    rw [hreceiver, push_opens hline hl hm hmore]
  have hopenedFixed : opened.receiver.vocabulary = config.vocabulary :=
    (foldl_step_fixed run [.feed [b]]).1.trans (foldl_step_fixed ⟨.new config table, []⟩ ops).1
  have hfixed : waiting.receiver.vocabulary = config.vocabulary :=
    (foldl_step_fixed opened calls).1.trans hopenedFixed
  obtain ⟨hnone, hwaits⟩ := foldl_step_waits hcapture calls hcalls hfew
  refine ⟨hnone.trans houtputs, hwaits, fun b' raw hline' => ?_⟩
  intro before after
  have hafter : after = before.handle (.line raw) := push_of_some hline'
  have hmark : before.vocabulary.continuation = mark := congrArg Vocabulary.continuation hfixed
  have hwaiting : before.capture = some (event.taking mark raws) := by
    have htaken := hwaits.capture_eq
    rw [hopenedFixed] at htaken
    exact htaken
  constructor
  · intro hmiddle
    have htaken := handle_taken hwaiting raw (by show 1 < m.trailing - raws.length; omega)
    rw [hafter, htaken, hmark, ← Capture.taking_append]
  · intro hlast
    have hdone := handle_completes hwaiting raw (by show m.trailing - raws.length = 1; omega)
    have hargs : event.args ++ continuationText mark (raws ++ [raw])
        = (event.taking mark raws).args ++ continuationText mark [raw] :=
      congrArg Capture.args (event.taking_append mark raws [raw])
    rw [hafter]
    refine ⟨?_, fun next => ?_⟩
    · rw [hdone, hmark, ← hargs]
      rfl
    · apply handle_of_capture_eq_none
      rw [hdone]

/-- Messages of two lines. -/
def longMessages : EventTable Unit := { root := { entries := .event "CMT" ⟨(), 2⟩ .nil } }

/-- The header of a message, but for its last byte, while a command is in flight. -/
def beforeMessage : Run Unit :=
  of {} longMessages [.begin "AT+X", .feed (Utf8.encode "+CMT: 7\r")]

/-- A first line that reads like a confirmation, and a second one, but for its last byte, like the header of
another message. In between the command in flight is given up and a new one is begun. -/
def callsInMessage : List Operation :=
  [.feed (Utf8.encode "OK\r\n+C"), .cancel 1, .begin "AT+Y", .feed (Utf8.encode "MT\r")]

/-- The message before its last byte. -/
def inMessage : Run Unit := callsInMessage.foldl step (beforeMessage.step (.feed [10]))

theorem next_lines_taken_like_others :
    inMessage.outputs = [] ∧ inMessage.receiver.stats = { lines := 2 }
      ∧ inMessage.receiver.tracker.current = some ⟨2, "Y", {}, 0⟩
      ∧ (inMessage.receiver.push 10).2 = some (.event ⟨(), "7\nOK\n+CMT"⟩)
      ∧ (inMessage.receiver.push 10).1.stats = { lines := 3, events := 1 } := by
  have htable : beforeMessage.receiver.table = longMessages :=
    (foldl_step_fixed ⟨.new {} longMessages, []⟩ _).2
  have hknows : beforeMessage.receiver.Knows (Utf8.encode "+CMT: 7") ⟨(), "7", 2⟩ := by
    refine .inl ⟨"CMT: 7", by decide +kernel, ?_⟩
    rw [htable]
    rfl
  have hlooked : beforeMessage.receiver.IsLookedAt (Utf8.encode "+CMT: 7") :=
    ⟨by decide +kernel, by decide +kernel⟩
  have hline : (beforeMessage.receiver.framer.push 10).2 = some (.line (Utf8.encode "+CMT: 7")) := by
    decide +kernel
  have hcalls (t : Terminators) : .setTerminators t ∉ callsInMessage := by
    simp [callsInMessage]
  have hlast : (inMessage.receiver.framer.push 10).2 = some (.line (Utf8.encode "+CMT")) := by
    decide +kernel
  obtain ⟨-, hlines⟩ := next_lines_taken {} longMessages
    [.begin "AT+X", .feed (Utf8.encode "+CMT: 7\r")]
  obtain ⟨hnothing, hwaits, hnext⟩ := hlines 10 _ _ hline hlooked hknows (by decide) callsInMessage
    hcalls (by decide +kernel)
  obtain ⟨hdone, -⟩ := (hnext 10 _ hlast).2 (by decide +kernel)
  refine ⟨hnothing.trans ?_, hwaits.stats_eq.trans ?_, ?_, (congrArg Prod.snd hdone).trans ?_,
    (congrArg (fun p => p.1.stats) hdone).trans ?_⟩
  · decide +kernel
  · decide +kernel
  · exact (congrArg Tracker.current hwaits.tracker_eq).trans (by decide +kernel)
  · decide +kernel
  · decide +kernel

end Run

end Receiver
end ModemLink
