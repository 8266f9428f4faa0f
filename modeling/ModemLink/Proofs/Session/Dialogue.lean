/-
What a session makes of a dialogue.

Between an application and the receive path stand a queue of requests, tickets, pacing, waiting in
rounds, and reads of any size. None of them shows: over a link that answers each command as it was
told to, a session gives to each request the resolution that the receive path alone produces in the
same turn of the dialogue, and its counters are those of the receive path but for lost events.

The induction is on the dialogue. Before and after each turn the session stands at rest, and its
receive path is where the receive path alone would be.
-/
import ModemLink.Proofs.Engine.Reading
import ModemLink.Session.Script

set_option autoImplicit false

namespace ModemLink

/-! ## Dialogues -/

/-- One turn: a command, what the module answers, and the confirmation that is expected. -/
structure Turn where
  command : Text
  reply : Bytes
  expected : Status

namespace Turn

def exchange (t : Turn) : Exchange := ⟨Utf8.encode t.command, t.reply⟩

def request (t : Turn) : Action := .request t.command t.expected

/-- What the application gets, given the resolution of its command. -/
def verdict (t : Turn) (res : Resolution) : Except Error Text :=
  if res.status = t.expected then .ok res.body
  else .error (.mismatch t.expected res.status res.failure)

end Turn

/-- A link whose module knows its part of a dialogue, with the most that one read yields. -/
def Link.told (turns : List Turn) (chunk : Option Nat) : Link :=
  let link : Link := turns.foldl (fun l t => l.expect t.exchange.request t.exchange.response) {}
  chunk.elim link link.setChunk

theorem Link.told_eq (turns : List Turn) (chunk : Option Nat) :
    told turns chunk = { script := turns.map Turn.exchange, chunk := chunk.map (max · 1) } := by
  have hscript (l : Link) :
      turns.foldl (fun l t => l.expect t.exchange.request t.exchange.response) l
        = { l with script := l.script ++ turns.map Turn.exchange } := by
    induction turns generalizing l with
    | nil => rw [List.foldl_nil, List.map_nil, List.append_nil]
    | cons t turns ih =>
      rw [List.foldl_cons, ih, List.map_cons]
      simp only [expect, List.append_assoc, List.singleton_append]
  unfold told
  rw [hscript]
  cases chunk <;> rfl

namespace Receiver

variable {ε : Type}

/-- **A dialogue with the receive path alone:** each command is begun and its reply is fed. Yields
the resolutions of each turn. -/
def converse : List Turn → Receiver ε → List (List Resolution) × Receiver ε
  | [], r => ([], r)
  | t :: turns, r =>
    let (fed, outputs) := (perform (.begin t.command) r).2.feed t.reply
    let (resolutions, last) := converse turns fed
    (Output.resolutions outputs :: resolutions, last)

/-- A turn with one resolution, from rest: the command is begun, the resolution is its own, and the
receive path is at rest again. -/
theorem exists_turn {r : Receiver ε} (hidle : r.tracker.current = none) (command : Text)
    (reply : Bytes) {res : Resolution}
    (hres : Output.resolutions ((perform (.begin command) r).2.feed reply).2 = [res]) :
    ∃ number begun, r.begin command = .ok (number, begun)
      ∧ (perform (.begin command) r).2 = begun ∧ number = res.number
      ∧ (begun.feed reply).1.tracker.current = none := by
  have hbegin := begin_of_none r command hidle
  have hbegun : (perform (.begin command) r).2 = { r with tracker := { r.tracker with
      current := some ⟨r.tracker.next, Command.name r.vocabulary.separators command, {}, 0⟩
      next := r.tracker.next + 1 } } := by
    simp only [perform, hbegin]
  refine ⟨_, _, hbegin, hbegun, ?_⟩
  rw [hbegun] at hres
  have hfollows := feed_follows { r with tracker := { r.tracker with
      current := some ⟨r.tracker.next, Command.name r.vocabulary.separators command, {}, 0⟩
      next := r.tracker.next + 1 } } reply
  rw [hres] at hfollows
  cases hfollows with
  | ended p res' h h' hnumber =>
    cases h
    exact ⟨hnumber.symm, h'⟩

end Receiver

/-! ## On the clock -/

namespace Timeline

variable {ε : Type}

/-- **At rest on the clock:** nothing lies ahead, and the engine is at rest. -/
structure Stands (t : Timeline ε) (core : Receiver ε) (script : List Exchange) : Prop where
  ahead_eq : t.ahead = []
  engine : t.engine.Stands core script []

/-- With nothing ahead, settling lets the engine run, and then the consumers. -/
theorem exists_settle (t : Timeline ε) (h : t.ahead = []) :
    ∃ q s, t.settle
      = { t with engine := { t.engine.run t.now with events := q }, subscribers := s } := by
  have harrived : { t with ahead := t.ahead.later t.now }.onLink (Link.inject (t.ahead.due t.now))
      = t := by
    have hnothing : Link.inject [] t.engine.transport = t.engine.transport := by
      unfold Link.inject
      rw [List.append_nil]
    -- nothing is due
    rw [h]
    show { t with ahead := [], engine := { t.engine with transport := Link.inject [] _ } } = t
    rw [hnothing, ← h]
  unfold settle
  rw [harrived]
  exact ⟨_, _, rfl⟩

theorem exists_call (t : Timeline ε) (h : t.ahead = []) (request : Nat → Request) :
    ∃ q called, t.call request = (t.engine.nextTicket, called) ∧ called.ahead = []
      ∧ called.now = t.now
      ∧ called.engine = { (t.engine.submit request).2.run t.now with events := q } := by
  obtain ⟨q, s, hsettle⟩ := exists_settle { t with engine := (t.engine.submit request).2 } h
  refine ⟨q, { t with engine := (t.engine.submit request).2 }.settle, rfl, ?_⟩
  rw [hsettle]
  exact ⟨h, rfl, rfl⟩

namespace Stands

variable {t : Timeline ε} {core : Receiver ε} {script : List Exchange}

theorem settle (h : t.Stands core script) : t.settle.Stands core script := by
  obtain ⟨q, s, hsettle⟩ := exists_settle t h.ahead_eq
  rw [hsettle, h.engine.run_eq]
  exact ⟨h.ahead_eq, h.engine.withEvents q⟩

theorem sleepUntil (h : t.Stands core script) (target : Nat) :
    (t.sleepUntil target).Stands core script := by
  have hslept : t.sleepUntil target = { t with now := target } := by
    unfold Timeline.sleepUntil advance
    rw [if_neg Bool.false_ne_true, h.ahead_eq, pass, h.ahead_eq]
  rw [hslept]
  exact ⟨h.ahead_eq, h.engine⟩

theorem stats (h : t.Stands core script) :
    ∃ k asked, t.stats = (.ok (core.lose k).stats, asked) ∧ asked.Stands core script := by
  obtain ⟨q, asked, hcall, hahead, -, hengine⟩ := exists_call t h.ahead_eq .stats
  obtain ⟨hstands, k, hreply⟩ := h.engine.stats t.now
  have hreply' : asked.engine.reply? t.engine.nextTicket = some (.stats (core.lose k).stats) := by
    rw [hengine]
    exact hreply
  refine ⟨k, asked, ?_, hahead, ?_⟩
  · unfold Timeline.stats
    simp only [hcall, hreply']
  · rw [hengine]
    exact hstands.withEvents q

/-- **A command** is answered with its number, its resolution stands under its ticket, and no time
has passed. -/
theorem transmit {command : Text} {reply : Bytes}
    (h : t.Stands core (⟨Utf8.encode command, reply⟩ :: script)) {number : Nat}
    {begun : Receiver ε} (hbegin : core.begin command = .ok (number, begun)) {res : Resolution}
    (hres : Output.resolutions (begun.feed reply).2 = [res]) (hnumber : number = res.number) :
    ∃ ticket answered, t.transmit command = ((ticket, .ok number), answered)
      ∧ answered.Stands (begun.feed reply).1 script
      ∧ answered.engine.slot ticket = .delivered ⟨res, t.now⟩ := by
  obtain ⟨q, answered, hcall, hahead, -, hengine⟩ :=
    exists_call t h.ahead_eq (.transmit · command)
  obtain ⟨hstands, hreply, hslot⟩ := h.engine.transmit hbegin hres hnumber t.now
  have hreply' : answered.engine.reply? t.engine.nextTicket = some (.transmitted (.ok number)) := by
    rw [hengine]
    exact hreply
  refine ⟨t.engine.nextTicket, answered, ?_, ⟨hahead, ?_⟩, ?_⟩
  · unfold Timeline.transmit
    simp only [hcall, hreply']
  · rw [hengine]
    exact hstands.withEvents q
  · rw [hengine]
    exact hslot

end Stands

end Timeline

/-! ## In the session -/

namespace Session

variable {ε : Type}

theorem run_cons (action : Action) (more : List Action) (s : Session ε) :
    s.run (action :: more)
      = ((s.perform action).1 :: ((s.perform action).2.run more).1,
        ((s.perform action).2.run more).2) := rfl

/-- **A session at rest,** with some time allowed for its requests. -/
structure Stands (s : Session ε) (core : Receiver ε) (script : List Exchange) : Prop where
  inFlight_eq : s.inFlight = none
  standard_pos : 0 < s.timeouts.standard
  timeline : s.timeline.Stands core script

/-- A wait that is possible goes through its rounds. -/
theorem wait_of_inFlight {s : Session ε} {f : InFlight} (hf : s.inFlight = some f)
    {expected : Status} (hterminal : expected.isTerminal = true) (timeout : Nat) :
    s.wait timeout expected
      = { s with inFlight := none }.waitRounds f expected (s.now + timeout) timeout := by
  unfold wait
  rw [hterminal, hf]
  rfl

/-- **A wait for a resolution that stands already** takes no time and ends with it. -/
theorem wait_of_delivered (s : Session ε) {f : InFlight} (hf : s.inFlight = some f)
    {r : Resolved} (hslot : s.timeline.engine.slot f.ticket = .delivered r) {timeout : Nat}
    (htimeout : 0 < timeout) {expected : Status} (hterminal : expected.isTerminal = true) :
    s.wait timeout expected
      = { s with inFlight := none, timeline := (s.timeline.collect f.ticket).2 }.finish expected
          r := by
  have hdone : (s.timeline.engine.slot f.ticket != .waiting) = true := by
    rw [hslot]
    rfl
  -- the clock does not move, since the wait looks before it lets time pass
  have hadvance (target : Nat) : { s with inFlight := none }.advanceToSlot f target
      = { s with inFlight := none } := by
    have hstays : s.timeline.advance target (fun t => t.engine.slot f.ticket != .waiting)
        = s.timeline := if_pos hdone
    show { s with inFlight := none, timeline := s.timeline.advance target _ } = _
    rw [hstays]
  obtain ⟨timeline, hcollect⟩ :
      ∃ timeline, s.timeline.collect f.ticket = (.delivered r, timeline) :=
    ⟨(s.timeline.collect f.ticket).2, congrArg (·, (s.timeline.collect f.ticket).2) hslot⟩
  -- nor is the deadline over, and that is asked first
  have hopen : ¬ s.now + timeout ≤ { s with inFlight := none }.now :=
    Nat.not_le.mpr (Nat.lt_add_of_pos_right htimeout)
  rw [wait_of_inFlight hf hterminal, hcollect]
  unfold waitRounds
  simp only [if_neg hopen, hadvance, hcollect]

/-- Such a wait compares the confirmation with the expected one. -/
theorem exists_wait (s : Session ε) {f : InFlight} (hf : s.inFlight = some f) {r : Resolved}
    (hslot : s.timeline.engine.slot f.ticket = .delivered r) {timeout : Nat}
    (htimeout : 0 < timeout) (t : Turn) (hterminal : t.expected.isTerminal = true) :
    ∃ waited, s.wait timeout t.expected = (t.verdict r.resolution, waited)
      ∧ waited.inFlight = none ∧ waited.timeouts = s.timeouts
      ∧ waited.timeline = (s.timeline.collect f.ticket).2 := by
  rw [wait_of_delivered s hf hslot htimeout hterminal]
  unfold finish Turn.verdict
  by_cases hstatus : r.resolution.status = t.expected
  · rw [if_pos hstatus, if_pos hstatus]
    exact ⟨_, rfl, rfl, rfl, rfl⟩
  · rw [if_neg hstatus, if_neg hstatus]
    exact ⟨_, rfl, rfl, rfl, rfl⟩

namespace Stands

variable {s : Session ε} {core : Receiver ε} {script : List Exchange}

theorem pace (h : s.Stands core script) : s.pace.Stands core script := by
  unfold Session.pace
  by_cases hready : s.now < s.ready
  · rw [if_pos hready]
    exact ⟨h.inFlight_eq, h.standard_pos, h.timeline.sleepUntil _⟩
  · rw [if_neg hready]
    exact h

/-- **A request** gets what its turn says, and the session is at rest again. -/
theorem request {t : Turn} (h : s.Stands core (t.exchange :: script)) {number : Nat}
    {begun : Receiver ε} (hbegin : core.begin t.command = .ok (number, begun)) {res : Resolution}
    (hres : Output.resolutions (begun.feed t.reply).2 = [res]) (hnumber : number = res.number)
    (hterminal : t.expected.isTerminal = true) :
    ∃ answered, s.request t.command t.expected = (t.verdict res, answered)
      ∧ answered.Stands (begun.feed t.reply).1 script := by
  have hpaced := h.pace
  obtain ⟨ticket, timeline, htransmit, hstands, hslot⟩ :=
    hpaced.timeline.transmit hbegin hres hnumber
  have hfree : ¬ s.isPending = true := by
    unfold isPending
    rw [h.inFlight_eq]
    exact Bool.false_ne_true
  obtain ⟨sent, hsent⟩ : ∃ sent, sent
      = { s.pace with timeline := timeline, inFlight := some ⟨number, ticket⟩ } := ⟨_, rfl⟩
  have hsend : s.send t.command = (.ok (), sent) := by
    unfold send
    rw [if_neg hfree, hsent]
    simp only [htransmit]
  have hinFlight : sent.inFlight = some ⟨number, ticket⟩ := by rw [hsent]
  have htimeouts : 0 < sent.timeouts.standard := by
    rw [hsent]
    exact hpaced.standard_pos
  have htimeline : sent.timeline = timeline := by rw [hsent]
  rw [← htimeline] at hslot hstands
  obtain ⟨answered, hwait, hover, hkept, hcollected⟩ :=
    exists_wait sent hinFlight hslot htimeouts t hterminal
  refine ⟨answered, ?_, hover, ?_, ?_⟩
  · unfold Session.request
    simp only [hsend]
    exact hwait
  · rw [hkept]
    exact htimeouts
  · rw [hcollected]
    exact ⟨hstands.ahead_eq, hstands.engine.collected ticket⟩

theorem settle (h : s.Stands core script) : (s.onTimeline Timeline.settle).Stands core script :=
  ⟨h.inFlight_eq, h.standard_pos, h.timeline.settle⟩

/-- **A dialogue** with a session at rest: each request gets what its turn says, and the counters
are asked for at the end. -/
theorem run (turns : List Turn) (resolutions : List Resolution) {core last : Receiver ε}
    (hidle : core.tracker.current = none)
    (hcore : Receiver.converse turns core = (resolutions.map fun res => [res], last))
    (hterminal : ∀ t ∈ turns, t.expected.isTerminal = true) (s : Session ε)
    (h : s.Stands core (turns.map Turn.exchange)) :
    ∃ k, (s.run (turns.map Turn.request ++ [.stats])).1
      = List.zipWith (fun t res => .body (Turn.verdict t res)) turns resolutions
        ++ [.stats (.ok (last.lose k).stats)] := by
  induction turns generalizing resolutions core s with
  | nil =>
    obtain ⟨hnone, rfl⟩ := Prod.mk.inj hcore
    rw [eq_comm, List.map_eq_nil_iff] at hnone
    rw [hnone]
    obtain ⟨k, asked, hstats, -⟩ := h.timeline.stats
    have hact : s.act .stats = (.stats (.ok (core.lose k).stats), { s with timeline := asked }) := by
      unfold act Session.stats
      simp only [hstats]
    refine ⟨k, ?_⟩
    rw [List.map_nil, List.nil_append, run_cons, perform, hact]
    rfl
  | cons t turns ih =>
    obtain ⟨hfirst, hlast⟩ := Prod.mk.inj hcore
    obtain ⟨res, more, rfl, hres, hmore⟩ := List.map_eq_cons_iff.mp hfirst.symm
    -- one turn of either side, and then everything settles
    obtain ⟨number, begun, hbegin, hbegun, hnumber, hidle'⟩ :=
      Receiver.exists_turn hidle t.command t.reply hres.symm
    rw [hbegun] at hres hmore hlast
    obtain ⟨answered, hrequest, hstands⟩ :=
      h.request hbegin hres.symm hnumber (hterminal t List.mem_cons_self)
    obtain ⟨k, hrest⟩ := ih more hidle' (Prod.ext hmore.symm hlast)
      (fun t' ht' => hterminal t' (List.mem_cons_of_mem t ht')) _ hstands.settle
    have hperform : s.perform t.request
        = (.body (t.verdict res), answered.onTimeline Timeline.settle) := by
      have hact : s.act t.request = (.body (t.verdict res), answered) := by
        unfold Turn.request act
        simp only [hrequest]
      rw [perform, hact]
    refine ⟨k, ?_⟩
    rw [List.map_cons, List.cons_append, run_cons, hperform, List.zipWith_cons_cons,
      List.cons_append, hrest]

end Stands

/-- **A session refines its receive path.** Over a link that answers each command of a dialogue as it
was told to, whatever one read yields, a session with a valid configuration and some standard time
opens. If the receive path alone, going through the dialogue, resolves one command in each turn,
then each request gets the body of its resolution, or the mismatch of that resolution with the
confirmation expected, and at the end the counters are those of the receive path but for lost
events. -/
theorem dialogue_refines_receiver {config : Config} (hvalid : config.validate = .ok ())
    (hstandard : 0 < config.timeouts.standard) (table : EventTable ε) (chunk : Option Nat)
    (turns : List Turn) (hterminal : ∀ t ∈ turns, t.expected.isTerminal = true)
    (resolutions : List Resolution) (last : Receiver ε)
    (hcore : Receiver.converse turns (.new config table)
      = (resolutions.map fun res => [res], last)) :
    ∃ session, Setup.openOver (.told turns chunk) { table := table, config := config } = .ok session
      ∧ ∃ lost, (session.run (turns.map Turn.request ++ [.stats])).1
        = List.zipWith (fun t res => .body (Turn.verdict t res)) turns resolutions
          ++ [.stats (.ok { last.stats with eventsLost := lost })] := by
  have hlink := Link.told_eq turns chunk
  have hopen : Setup.openOver (.told turns chunk) { table := table, config := config }
      = .ok {
          timeline := .start config table (.told turns chunk)
          timing := config.timing
          timeouts := config.timeouts } := by
    unfold Setup.openOver
    rw [hvalid, hlink]
    rfl
  have hchunk : (Link.told turns chunk).chunk ≠ some 0 := by
    rw [hlink]
    intro hzero
    obtain ⟨n, -, hn⟩ := Option.map_eq_some_iff.mp hzero
    omega
  -- an engine that has just taken over the link stands where the receive path begins
  have hengine : (Engine.start config table (.told turns chunk)).Stands (.new config table)
      (turns.map Turn.exchange) [] := by
    refine ⟨rfl, rfl, rfl, ⟨0, rfl⟩, ?_, ?_, hchunk, ?_⟩
    · exact congrArg Link.connected hlink
    · exact congrArg Link.inbound hlink
    · exact congrArg Link.script hlink
  have htimeline : (Timeline.start config table (.told turns chunk)).Stands (.new config table)
      (turns.map Turn.exchange) :=
    Timeline.Stands.settle ⟨rfl, hengine⟩
  refine ⟨_, hopen, ?_⟩
  obtain ⟨k, hrun⟩ := Stands.run turns resolutions rfl hcore hterminal
    { timeline := .start config table (.told turns chunk)
      timing := config.timing
      timeouts := config.timeouts } ⟨rfl, hstandard, htimeline⟩
  exact ⟨_, hrun⟩

/-- Two turns, read byte by byte: the first command is confirmed with a reply, the second one is
refused. -/
theorem dialogue_read_by_bytes :
    let turns : List Turn :=
      [⟨"AT+X\r\n", Utf8.encode "+X: 1\r\nOK\r\n", .success⟩,
        ⟨"AT+Y\r\n", Utf8.encode "ERROR\r\n", .success⟩]
    let config : Config := { timing := { minInterval := 50, pollStep := 1 } }
    let table : EventTable Unit := .empty
    config.validate = .ok () ∧ 0 < config.timeouts.standard
      ∧ (∀ t ∈ turns, t.expected.isTerminal = true)
      ∧ (Receiver.converse turns (.new config table)).1
        = [[⟨1, "X", .success, "1", false, none⟩],
          [⟨2, "Y", .failure, [], false, some {}⟩]]
      ∧ ∃ session, Setup.openOver (.told turns (some 1)) { table := table, config := config }
          = .ok session
        ∧ ∃ lost, (session.run (turns.map Turn.request ++ [.stats])).1
          = [.body (.ok "1"), .body (.error (.mismatch .success .failure (some {}))),
            .stats (.ok { lines := 3, confirmations := 2, bodyLines := 1, eventsLost := lost })] := by
  intro turns config table
  have hvalid : config.validate = .ok () := rfl
  have hterminal : ∀ t ∈ turns, t.expected.isTerminal = true := by
    intro t ht
    rcases List.mem_cons.mp ht with rfl | ht
    · rfl
    · rw [List.mem_singleton.mp ht]
      rfl
  have hresolutions : (Receiver.converse turns (.new config table)).1
      = [⟨1, "X", .success, "1", false, none⟩,
          ⟨2, "Y", .failure, [], false, some {}⟩].map fun res => [res] := by rfl
  have hstats : (Receiver.converse turns (.new config table)).2.stats
      = { lines := 3, confirmations := 2, bodyLines := 1 } := by rfl
  have hcore : Receiver.converse turns (.new config table)
      = ([⟨1, "X", .success, "1", false, none⟩,
          ⟨2, "Y", .failure, [], false, some {}⟩].map fun res => [res],
        (Receiver.converse turns (.new config table)).2) := by rw [← hresolutions]
  have hrefines := dialogue_refines_receiver hvalid (by decide) table (some 1) turns hterminal _ _
    hcore
  rw [hstats] at hrefines
  obtain ⟨session, hopen, lost, hrun⟩ := hrefines
  exact ⟨hvalid, by decide, hterminal, hresolutions, session, hopen, lost, hrun⟩

end Session

end ModemLink
