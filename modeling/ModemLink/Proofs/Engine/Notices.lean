/-
What becomes of the events that a receive path announces.

Between the engine and whoever wants the events stands a bounded queue. Bytes that were read at once
can hold several events; they are counted when the bytes are fed and offered to the queue one after
the other, and whoever wants them may take some in between. So the count of events and the queue are
changed at different moments, by different parties.

Here an engine runs in small steps together with a consumer, in any order. What was offered is
remembered with what became of it, and `Sound` says how the books balance: what was taken and what is
still queued are what was offered, without what found the queue full.
-/
import ModemLink.Link
import ModemLink.Proofs.Engine.Waiting
import ModemLink.Proofs.Receiver.Traffic

set_option autoImplicit false

namespace ModemLink

/-! ## Events are counted as they are produced -/

namespace Receiver

variable {ε : Type}

theorem Handled.events_eq {r r' : Receiver ε} {item : Framed} {out : Option (Output ε)}
    (h : Handled r item r' out) :
    r'.stats.events = r.stats.events + (Output.events out.toList).length
      ∧ r'.stats.eventsLost = r.stats.eventsLost := by
  cases h <;> exact ⟨rfl, rfl⟩

theorem push_events (r : Receiver ε) (b : UInt8) :
    (r.push b).1.stats.events = r.stats.events + (Output.events (r.push b).2.toList).length
      ∧ (r.push b).1.stats.eventsLost = r.stats.eventsLost := by
  cases h : (r.framer.push b).2 with
  | none =>
    rw [push_of_none h]
    exact ⟨rfl, rfl⟩
  | some item =>
    rw [push_of_some h]
    exact (handle_handled { r with framer := (r.framer.push b).1 } item).events_eq

/-- **Bytes count the events that they produce,** and lose none. -/
theorem feed_events (r : Receiver ε) (bytes : Bytes) :
    (r.feed bytes).1.stats.events = r.stats.events + (Output.events (r.feed bytes).2).length
      ∧ (r.feed bytes).1.stats.eventsLost = r.stats.eventsLost := by
  induction bytes generalizing r with
  | nil => exact ⟨rfl, rfl⟩
  | cons b bytes ih =>
    obtain ⟨hevents, hlost⟩ := push_events r b
    obtain ⟨hmore, hlost'⟩ := ih (r.push b).1
    refine ⟨?_, hlost'.trans hlost⟩
    rw [feed_cons, Output.events_append, List.length_append, hmore, hevents, Nat.add_assoc]

end Receiver

/-! ## Serving leaves the events alone -/

namespace Engine

variable {τ ε : Type}

/-- Nothing that the events are counted in or stand in is different. -/
structure SameEvents (e e' : Engine τ ε) : Prop where
  queue : e'.events = e.events
  count : e'.receiver.stats = e.receiver.stats

theorem SameEvents.refl (e : Engine τ ε) : e.SameEvents e := ⟨rfl, rfl⟩

theorem SameEvents.trans {e e' e'' : Engine τ ε} (h : e.SameEvents e') (h' : e'.SameEvents e'') :
    e.SameEvents e'' :=
  ⟨h'.queue.trans h.queue, h'.count.trans h.count⟩

theorem transmit_sameEvents [Transport τ] (now : Nat) (command : Text) (e : Engine τ ε) :
    e.SameEvents (e.transmit now command).2 := by
  unfold transmit Receiver.begin Tracker.begin
  by_cases hpending : e.receiver.tracker.isPending = true
  · rw [if_pos hpending]
    exact .refl e
  · rw [if_neg hpending]
    simp only [Except.map]
    split <;> exact ⟨rfl, rfl⟩

theorem answerTransmit_sameEvents (ticket : Nat) (outcome : Except Error Nat) (e : Engine τ ε) :
    e.SameEvents (e.answerTransmit ticket outcome) := by
  unfold answerTransmit
  cases outcome with
  | ok number =>
    simp only
    split <;> exact ⟨rfl, rfl⟩
  | error err =>
    simp only
    split <;> exact ⟨rfl, rfl⟩

/-- **A request** has nothing to do with the events. -/
theorem serveNext_sameEvents [Transport τ] (now : Nat) (e : Engine τ ε) :
    e.SameEvents (e.serveNext now) := by
  unfold serveNext
  cases e.requests with
  | nil => exact .refl e
  | cons r rest =>
    have hrest : e.SameEvents { e with requests := rest } := ⟨rfl, rfl⟩
    refine hrest.trans ?_
    cases r with
    | transmit ticket command =>
      simp only [serve]
      refine SameEvents.trans ?_ (answerTransmit_sameEvents ticket _ _)
      split
      · exact transmit_sameEvents now command _
      · exact .refl _
    | configure ticket t =>
      simp only [serve, configure, Receiver.setTerminators]
      split <;> rename_i hset <;> split at hset <;> cases hset <;> exact ⟨rfl, rfl⟩
    | _ => exact ⟨rfl, rfl⟩

end Engine

/-! ## An engine and a consumer -/

/-- An event that was offered to the queue. -/
structure Offered (ε : Type) where
  notification : Notification ε
  /-- how many were queued at that moment -/
  queued : Nat
  outcome : Offer
deriving DecidableEq, Repr

namespace Offered

variable {ε : Type}

/-- An event, offered to a queue. -/
def made (q : Queue (Notification ε)) (n : Notification ε) : Offered ε :=
  ⟨n, q.items.length, (q.offer n).1⟩

/-- The events that were accepted, in their order. -/
def accepted (os : List (Offered ε)) : List (Notification ε) :=
  (os.filter (·.outcome = .accepted)).map notification

/-- How many events found the queue full. -/
def lost (os : List (Offered ε)) : Nat := os.countP (·.outcome = .full)

@[simp] theorem accepted_append (a b : List (Offered ε)) :
    accepted (a ++ b) = accepted a ++ accepted b := by
  unfold accepted
  rw [List.filter_append, List.map_append]

@[simp] theorem lost_append (a b : List (Offered ε)) : lost (a ++ b) = lost a + lost b :=
  List.countP_append

/-- What was offered to a queue that stayed open was accepted or lost. -/
theorem length_eq {os : List (Offered ε)}
    (h : ∀ o ∈ os, o.outcome = .accepted ∨ o.outcome = .full) :
    os.length = (accepted os).length + lost os := by
  induction os with
  | nil => rfl
  | cons o os ih =>
    have hmore := ih fun o' ho' => h o' (List.mem_cons_of_mem o ho')
    have hsplit : o :: os = [o] ++ os := rfl
    rw [hsplit, accepted_append, lost_append, List.length_append, List.length_append, hmore]
    rcases h o List.mem_cons_self with ho | ho
    · simp only [accepted, lost, List.filter_cons, List.countP_cons, ho, decide_true, if_true]
      simp only [List.filter_nil, List.map_cons, List.map_nil, List.length_singleton,
        List.countP_nil, reduceCtorEq, decide_false, Bool.false_eq_true, if_false]
      omega
    · simp only [accepted, lost, List.filter_cons, List.countP_cons, ho, decide_true, if_true]
      simp only [List.filter_nil, List.map_nil, List.length_singleton, List.length_nil,
        List.countP_nil, reduceCtorEq, decide_false, Bool.false_eq_true, if_false]
      omega

end Offered

/-- An engine and whoever takes its events, with their past. -/
structure Notices (τ ε : Type) where
  engine : Engine τ ε
  /-- what was produced by the bytes read last and is not passed on yet -/
  passing : List (Output ε) := []
  /-- the events that the receive path produced -/
  produced : List (Notification ε) := []
  /-- the events that were offered to the queue -/
  offered : List (Offered ε) := []
  /-- the events that the consumer took -/
  taken : List (Notification ε) := []

namespace Notices

variable {τ ε : Type}

/-! ## Steps -/

/-- A read ends with this outcome, if the engine reads and has passed everything on. What the bytes
produce is counted at once. -/
def read (now : Nat) (outcome : Except Error Bytes) (s : Notices τ ε) : Notices τ ε :=
  if s.passing.isEmpty && s.engine.live then
    match outcome with
    | .ok bytes =>
      { s with
        engine := { s.engine with receiver := (s.engine.receiver.feed bytes).1 }
        passing := (s.engine.receiver.feed bytes).2
        produced := s.produced ++ Output.events (s.engine.receiver.feed bytes).2 }
    | .error err => { s with engine := s.engine.received now (.error err) }
  else s

/-- What an output is offered as. -/
def offers (q : Queue (Notification ε)) : Output ε → List (Offered ε)
  | .event n => [.made q n]
  | .resolved _ => []

/-- The engine passes on the oldest output. -/
def pass (now : Nat) (s : Notices τ ε) : Notices τ ε :=
  match s.passing with
  | [] => s
  | output :: rest =>
    { s with
      engine := s.engine.deliver now output
      passing := rest
      offered := s.offered ++ offers s.engine.events output }

/-- The consumer takes the oldest event, if there is one. -/
def take (s : Notices τ ε) : Notices τ ε :=
  match s.engine.events.take? with
  | some (n, q) => { s with engine := { s.engine with events := q }, taken := s.taken ++ [n] }
  | none => s

/-- A step of the engine, of the consumer, or of the world around them. -/
inductive Act (τ : Type) where
  | ask (a : Engine.Ask)
  | cancel (number : Nat)
  | abandon (ticket : Nat)
  | collect (ticket : Nat)
  /-- the link becomes another one -/
  | link (link : τ)
  | stop
  /-- the oldest request is served, once everything is passed on -/
  | serve (now : Nat)
  | read (now : Nat) (outcome : Except Error Bytes)
  | pass (now : Nat)
  | take

variable [Transport τ]

/-- One more step. One that is not possible changes nothing. -/
def step (s : Notices τ ε) : Act τ → Notices τ ε
  | .ask a => { s with engine := (s.engine.submit a.request).2 }
  | .cancel number => { s with engine := s.engine.submitCancel number }
  | .abandon ticket => { s with engine := s.engine.abandon ticket }
  | .collect ticket => { s with engine := (s.engine.collect ticket).2 }
  | .link link => { s with engine := { s.engine with transport := link } }
  | .stop => { s with engine := s.engine.stop }
  | .serve now => if s.passing.isEmpty then { s with engine := s.engine.serveNext now } else s
  | .read now outcome => s.read now outcome
  | .pass now => s.pass now
  | .take => s.take

/-- A run from an engine that has just taken over a link. -/
def of (config : Config) (table : EventTable ε) (link : τ) (acts : List (Act τ)) : Notices τ ε :=
  acts.foldl step { engine := .start config table link }

theorem foldl_step_append (s : Notices τ ε) (a b : List (Act τ)) :
    (a ++ b).foldl step s = b.foldl step (a.foldl step s) :=
  List.foldl_append

/-! ## The books balance -/

omit [Transport τ] in
/-- **The invariant.** The queue keeps to its depth and is open. What was produced was offered or is
about to be, what was offered was accepted or found the queue full, and what was accepted was taken or
is queued. -/
structure Sound (depth : Nat) (s : Notices τ ε) : Prop where
  depth_eq : s.engine.events.depth = depth
  isOpen : s.engine.events.isOpen = true
  length_le : s.engine.events.items.length ≤ depth
  outcome : ∀ o ∈ s.offered,
    o.queued ≤ depth ∧ o.outcome = if o.queued = depth then .full else .accepted
  produced : s.offered.map Offered.notification ++ Output.events s.passing = s.produced
  accepted : s.taken ++ s.engine.events.items = Offered.accepted s.offered
  events : s.engine.receiver.stats.events = s.produced.length
  lost : s.engine.receiver.stats.eventsLost = Offered.lost s.offered

namespace Sound

variable {depth : Nat} {s : Notices τ ε}

omit [Transport τ]

/-- What has nothing to do with the events keeps the balance. -/
theorem withEngine (h : s.Sound depth) {e : Engine τ ε} (hsame : s.engine.SameEvents e) :
    Sound depth { s with engine := e } := by
  obtain ⟨hqueue, hcount⟩ := hsame
  refine ⟨?_, ?_, ?_, h.outcome, h.produced, ?_, ?_, ?_⟩
  · exact hqueue ▸ h.depth_eq
  · exact hqueue ▸ h.isOpen
  · exact hqueue ▸ h.length_le
  · exact hqueue ▸ h.accepted
  · exact hcount ▸ h.events
  · exact hcount ▸ h.lost

theorem read (h : s.Sound depth) (now : Nat) (outcome : Except Error Bytes) :
    (s.read now outcome).Sound depth := by
  unfold Notices.read
  split
  · rename_i hidle
    rcases outcome with err | bytes
    · exact h.withEngine (by cases err <;> exact ⟨rfl, rfl⟩)
    · -- nothing was left to be passed on, so all that was produced before was offered
      have hnone : s.passing = [] := List.isEmpty_iff.mp (Bool.and_eq_true_iff.mp hidle).1
      obtain ⟨hevents, hlost⟩ := Receiver.feed_events s.engine.receiver bytes
      have hproduced := h.produced
      rw [hnone] at hproduced
      refine ⟨h.depth_eq, h.isOpen, h.length_le, h.outcome, ?_, h.accepted, ?_, ?_⟩
      · rw [← hproduced]
        exact congrArg (· ++ _) (List.append_nil _).symm
      · rw [List.length_append, ← h.events]
        exact hevents
      · exact hlost.trans h.lost
  · exact h

/-- **An event is offered:** it is accepted if there is room, and otherwise it is counted as lost. -/
theorem offer (h : s.Sound depth) (now : Nat) (n : Notification ε) (rest : List (Output ε))
    (hpassing : s.passing = .event n :: rest) :
    Sound depth { s with
      engine := s.engine.deliver now (.event n)
      passing := rest
      offered := s.offered ++ [Offered.made s.engine.events n] } := by
  have hopen : ¬ (!s.engine.events.isOpen) = true := by
    rw [h.isOpen]
    exact Bool.false_ne_true
  have hproduced : (s.offered ++ [Offered.made s.engine.events n]).map Offered.notification
      ++ Output.events rest = s.produced := by
    rw [← h.produced, hpassing, List.map_append, List.append_assoc]
    rfl
  have houtcome (hnew : (Offered.made s.engine.events n).outcome
      = if s.engine.events.items.length = depth then .full else .accepted) :
      ∀ o ∈ s.offered ++ [Offered.made s.engine.events n],
        o.queued ≤ depth ∧ o.outcome = if o.queued = depth then .full else .accepted := by
    intro o ho
    rcases List.mem_append.mp ho with ho | ho
    · exact h.outcome o ho
    · rw [List.mem_singleton.mp ho]
      exact ⟨h.length_le, hnew⟩
  have hdepth := h.depth_eq
  have hle := h.length_le
  by_cases hfull : s.engine.events.depth ≤ s.engine.events.items.length
  · have hoffer : s.engine.events.offer n = (.full, s.engine.events) := by
      unfold Queue.offer
      rw [if_neg hopen, if_pos hfull]
    have hnew : Offered.made s.engine.events n = ⟨n, s.engine.events.items.length, .full⟩ := by
      rw [Offered.made, hoffer]
    have hdeliver : s.engine.deliver now (.event n)
        = { s.engine with receiver := s.engine.receiver.noteEventLost } := by
      simp only [Engine.deliver, hoffer]
    rw [hnew] at hproduced houtcome ⊢
    rw [hdeliver]
    refine ⟨h.depth_eq, h.isOpen, h.length_le, houtcome ?_, hproduced, ?_, h.events, ?_⟩
    · rw [if_pos (by omega)]
    · rw [Offered.accepted_append, ← h.accepted]
      exact (List.append_nil _).symm
    · rw [Offered.lost_append, ← h.lost]
      rfl
  · have hoffer : s.engine.events.offer n
        = (.accepted, { s.engine.events with items := s.engine.events.items ++ [n] }) := by
      unfold Queue.offer
      rw [if_neg hopen, if_neg hfull]
    have hnew : Offered.made s.engine.events n = ⟨n, s.engine.events.items.length, .accepted⟩ := by
      rw [Offered.made, hoffer]
    have hdeliver : s.engine.deliver now (.event n)
        = { s.engine with
            events := { s.engine.events with items := s.engine.events.items ++ [n] } } := by
      simp only [Engine.deliver, hoffer]
    rw [hnew] at hproduced houtcome ⊢
    rw [hdeliver]
    refine ⟨h.depth_eq, h.isOpen, ?_, houtcome ?_, hproduced, ?_, h.events, ?_⟩
    · rw [List.length_append, List.length_singleton]
      omega
    · rw [if_neg (by omega)]
    · rw [Offered.accepted_append, ← h.accepted, ← List.append_assoc]
      rfl
    · rw [Offered.lost_append, ← h.lost]
      rfl

theorem pass (h : s.Sound depth) (now : Nat) : (s.pass now).Sound depth := by
  unfold Notices.pass
  cases hpassing : s.passing with
  | nil => exact h
  | cons output rest =>
    cases output with
    | event n => exact h.offer now n rest hpassing
    | resolved r =>
      -- a resolution is no event
      have hproduced := h.produced
      rw [hpassing] at hproduced
      have hsame : s.engine.SameEvents (s.engine.deliver now (.resolved r)) := by
        unfold Engine.deliver
        cases s.engine.waiter with
        | none => exact .refl _
        | some w =>
          simp only
          split <;> exact ⟨rfl, rfl⟩
      have hpassed : Sound depth { s with passing := rest } :=
        ⟨h.depth_eq, h.isOpen, h.length_le, h.outcome, hproduced, h.accepted, h.events, h.lost⟩
      simp only [offers, List.append_nil]
      exact hpassed.withEngine hsame

theorem take (h : s.Sound depth) : s.take.Sound depth := by
  unfold Notices.take Queue.take?
  cases hitems : s.engine.events.items with
  | nil => exact h
  | cons n rest =>
    have hle := h.length_le
    rw [hitems, List.length_cons] at hle
    refine ⟨h.depth_eq, h.isOpen, by simp only; omega, h.outcome, h.produced, ?_, h.events, h.lost⟩
    rw [← h.accepted, hitems, List.append_assoc]
    rfl

end Sound

/-- **Every step keeps the balance.** -/
theorem Sound.step {depth : Nat} {s : Notices τ ε} (h : s.Sound depth) (act : Act τ) :
    (s.step act).Sound depth := by
  cases act with
  | cancel number =>
    refine h.withEngine ?_
    unfold Engine.submitCancel
    split <;> exact ⟨rfl, rfl⟩
  | serve now =>
    simp only [Notices.step]
    split
    · exact h.withEngine (Engine.serveNext_sameEvents now s.engine)
    · exact h
  | read now outcome => exact h.read now outcome
  | pass now => exact h.pass now
  | take => exact h.take
  | _ =>
    refine h.withEngine ?_
    exact ⟨rfl, rfl⟩

theorem Sound.foldl_step {depth : Nat} {s : Notices τ ε} (h : s.Sound depth) (acts : List (Act τ)) :
    (acts.foldl Notices.step s).Sound depth := by
  induction acts generalizing s with
  | nil => exact h
  | cons act acts ih => exact ih (h.step act)

/-- **The books of every run balance.** -/
theorem of_sound (config : Config) (table : EventTable ε) (link : τ) (acts : List (Act τ)) :
    (of config table link acts).Sound config.queueDepth := by
  refine Sound.foldl_step ?_ acts
  exact ⟨rfl, rfl, Nat.zero_le _, nofun, rfl, rfl, rfl, rfl⟩

omit [Transport τ] in
/-- Once everything is passed on, each event that was counted was taken, or is queued, or was lost. -/
theorem Sound.events_eq {depth : Nat} {s : Notices τ ε} (h : s.Sound depth)
    (hpassed : s.passing = []) :
    s.engine.receiver.stats.events
      = s.taken.length + s.engine.events.items.length + s.engine.receiver.stats.eventsLost := by
  have hsplit : ∀ o ∈ s.offered, o.outcome = .accepted ∨ o.outcome = .full := by
    intro o ho
    rw [(h.outcome o ho).2]
    split
    · exact .inr rfl
    · exact .inl rfl
  have hoffered : s.produced.length = s.offered.length := by
    rw [← h.produced, hpassed, List.length_append, List.length_map]
    rfl
  rw [h.events, hoffered, Offered.length_eq hsplit, ← h.accepted, ← h.lost, List.length_append]

/-! ## The engine's own schedule -/

theorem serve_all (s : Notices τ ε) (hpassed : s.passing = []) (now n : Nat) :
    (List.replicate n (Act.serve now)).foldl step s
      = { s with engine := n.repeat (Engine.serveNext now) s.engine } := by
  induction n with
  | zero => rfl
  | succ n ih =>
    rw [List.replicate_succ', foldl_step_append, ih, List.foldl_cons, List.foldl_nil, step]
    simp only [hpassed, List.isEmpty_nil, if_true]
    rfl

/-- Passing on one after the other is what the engine does behind a read. -/
theorem pass_all (now : Nat) (outputs : List (Output ε)) (s : Notices τ ε)
    (hpassing : s.passing = outputs) :
    let passed := (List.replicate outputs.length (Act.pass now)).foldl step s
    passed.engine = outputs.foldl (fun e o => e.deliver now o) s.engine ∧ passed.passing = [] := by
  induction outputs generalizing s with
  | nil => exact ⟨rfl, hpassing⟩
  | cons output outputs ih =>
    have hpass : s.step (Act.pass now) = { s with
        engine := s.engine.deliver now output
        passing := outputs
        offered := s.offered ++ offers s.engine.events output } := by
      simp only [step, pass, hpassing]
    rw [List.length_cons, List.replicate_succ, List.foldl_cons, List.foldl_cons, hpass]
    exact ih _ rfl

theorem exists_read (s : Notices τ ε) (hpassed : s.passing = []) (hlive : s.engine.live = true)
    (now : Nat) (outcome : Except Error Bytes) :
    ∃ acts : List (Act τ), (acts.foldl step s).engine = s.engine.received now outcome
      ∧ (acts.foldl step s).passing = [] := by
  have hreads : (s.passing.isEmpty && s.engine.live) = true := by
    rw [hpassed, hlive]
    rfl
  rcases outcome with err | bytes
  · have hread : s.step (Act.read now (.error err))
        = { s with engine := s.engine.received now (.error err) } := by
      simp only [step, read, if_pos hreads]
    refine ⟨[.read now (.error err)], ?_⟩
    rw [List.foldl_cons, List.foldl_nil, hread]
    exact ⟨rfl, hpassed⟩
  · refine ⟨.read now (.ok bytes)
      :: List.replicate (s.engine.receiver.feed bytes).2.length (.pass now), ?_⟩
    simp only [List.foldl_cons, step, read, if_pos hreads]
    exact pass_all now _ _ rfl

theorem exists_drain (s : Notices τ ε) (hpassed : s.passing = []) (now n : Nat) :
    ∃ acts : List (Act τ), (acts.foldl step s).engine = s.engine.drain now n
      ∧ (acts.foldl step s).passing = [] := by
  induction n generalizing s with
  | zero => exact ⟨[], rfl, hpassed⟩
  | succ n ih =>
    unfold Engine.drain
    by_cases hlive : (s.engine.running && s.engine.connected) = true
    · rw [if_pos hlive]
      rcases Transport.receive readSize s.engine.transport with ⟨none | outcome, link⟩
      · exact ⟨[.link link], rfl, hpassed⟩
      · obtain ⟨acts, hread, hpassed'⟩ :=
          exists_read (s.step (.link link)) hpassed hlive now outcome
        obtain ⟨more, hmore, hpassed''⟩ := ih (acts.foldl step (s.step (.link link))) hpassed'
        refine ⟨.link link :: (acts ++ more), ?_⟩
        rw [List.foldl_cons, foldl_step_append]
        exact ⟨by rw [hmore, hread]; rfl, hpassed''⟩
    · rw [if_neg hlive]
      exact ⟨[], rfl, hpassed⟩

/-- **The engine's own schedule,** requests first and then bytes, is made of these steps. -/
theorem exists_run (s : Notices τ ε) (hpassed : s.passing = []) (now : Nat) :
    ∃ acts : List (Act τ), (acts.foldl step s).engine = s.engine.run now
      ∧ (acts.foldl step s).passing = [] := by
  have hserved := serve_all s hpassed now s.engine.requests.length
  obtain ⟨acts, hacts⟩ :=
    exists_drain { s with engine := s.engine.requests.length.repeat (Engine.serveNext now) s.engine }
      hpassed now (Transport.waiting
        (s.engine.requests.length.repeat (Engine.serveNext now) s.engine).transport + 1)
  refine ⟨List.replicate s.engine.requests.length (.serve now) ++ acts, ?_⟩
  rw [foldl_step_append, hserved]
  exact hacts

/-! ## Nothing is lost silently -/

/-- **What becomes of the events.** In every run of an engine and a consumer, however their steps are
mixed:

* the queue keeps to its depth;
* an event that was offered was accepted, unless the queue was full at that moment;
* what was produced was offered in that order, but for what is still to be passed on;
* what was taken and then what is queued are what was offered, in that order and without what found the
  queue full;
* that many are counted as lost;
* whenever everything is passed on, each event that was counted was taken, or is queued, or is counted
  as lost;
* what the engine does by itself, requests first and then bytes, goes on as such a run. -/
theorem events_taken_queued_or_lost (config : Config) (table : EventTable ε) (link : τ)
    (acts : List (Act τ)) :
    let s := of config table link acts
    let stats := s.engine.receiver.stats
    s.engine.events.items.length ≤ config.queueDepth
    ∧ (∀ o ∈ s.offered, o.queued ≤ config.queueDepth
        ∧ o.outcome = if o.queued = config.queueDepth then .full else .accepted)
    ∧ s.offered.map Offered.notification ++ Output.events s.passing = s.produced
    ∧ s.taken ++ s.engine.events.items = Offered.accepted s.offered
    ∧ stats.eventsLost = Offered.lost s.offered
    ∧ (s.passing = [] →
        stats.events = s.taken.length + s.engine.events.items.length + stats.eventsLost)
    ∧ (s.passing = [] → ∀ now, ∃ more,
        (of config table link (acts ++ more)).engine = s.engine.run now
          ∧ (of config table link (acts ++ more)).passing = []) := by
  intro s stats
  have h : s.Sound config.queueDepth := of_sound config table link acts
  refine ⟨h.length_le, h.outcome, h.produced, h.accepted, h.lost, h.events_eq, ?_⟩
  intro hpassed now
  obtain ⟨more, hmore⟩ := exists_run s hpassed now
  refine ⟨more, ?_⟩
  unfold of
  rw [foldl_step_append]
  exact hmore

/-- Three events are read at once, and the queue has room for one. The second is offered while the first
is still queued and is lost; the third finds room, since the first was taken by then. -/
theorem second_of_three_lost :
    let table : EventTable Unit := { root := { entries := .event "A" ⟨(), 0⟩ .nil } }
    let acts : List (Act Link) :=
      [.read 0 (.ok (Utf8.encode "+A:1\r\n+A:2\r\n+A:3\r\n")), .pass 0, .pass 0, .take, .pass 0]
    let s := of { queueDepth := 1 } table {} acts
    s.passing = [] ∧ s.taken = [⟨(), "1"⟩] ∧ s.engine.events.items = [⟨(), "3"⟩]
      ∧ s.engine.receiver.stats.events = 3 ∧ s.engine.receiver.stats.eventsLost = 1
      ∧ ∀ o ∈ s.offered, o.notification = ⟨(), "2"⟩ → o.queued = 1 := by
  intro table acts s
  obtain ⟨-, hoffered, -, -, -, hbalance, -⟩ :=
    events_taken_queued_or_lost { queueDepth := 1 } table {} acts
  have hpassed : s.passing = [] := by decide +kernel
  have htaken : s.taken = [⟨(), "1"⟩] := by decide +kernel
  have hqueued : s.engine.events.items = [⟨(), "3"⟩] := by decide +kernel
  have hlost : s.engine.receiver.stats.eventsLost = 1 := by decide +kernel
  have hevents : s.engine.receiver.stats.events = 3 := by
    rw [hbalance hpassed, htaken, hqueued, hlost]
    rfl
  refine ⟨hpassed, htaken, hqueued, hevents, hlost, fun o ho hsecond => ?_⟩
  -- it is the one that was not accepted, so the queue was full
  have hfull : o.outcome = .full := by
    revert hsecond
    revert o
    decide +kernel
  have houtcome := (hoffered o ho).2
  rw [hfull] at houtcome
  split at houtcome
  · assumption
  · cases houtcome

end Notices

end ModemLink
