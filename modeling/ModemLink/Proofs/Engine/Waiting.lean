/-
Who waits for what.

A run is any sequence of what the parties around an engine can do: applications queue requests, stop
waiting for replies and collect resolutions; the engine serves the oldest request or takes the
outcome of a read; the link and the event queue become whatever they become. A run also keeps what
the engine forgets, namely the resolutions that the receive path produced and those that were
collected.

Every step is a move of the books, so the books of every run are sound, and what an engine does by
itself is made of such steps.
-/
import Mathlib.Data.List.Nodup
import ModemLink.Proofs.Engine.Books

set_option autoImplicit false

namespace ModemLink.Engine

variable {τ ε : Type}

/-! ## Runs -/

/-- What an application can ask for under a ticket. -/
inductive Ask where
  | transmit (command : Text)
  | configure (t : Terminators)
  | setPollStep (step : Nat)
  | stats
  | shutdown
deriving DecidableEq, Repr

/-- The request that asks for it. -/
def Ask.request : Ask → Nat → Request
  | .transmit command, ticket => .transmit ticket command
  | .configure t, ticket => .configure ticket t
  | .setPollStep step, _ => .setPollStep step
  | .stats, ticket => .stats ticket
  | .shutdown, ticket => .shutdown ticket

/-- What can happen to an engine. -/
inductive Action (τ ε : Type) where
  | ask (a : Ask)
  | cancel (number : Nat)
  | abandon (ticket : Nat)
  | collect (ticket : Nat)
  /-- the event queue becomes another one -/
  | events (q : Queue (Notification ε))
  /-- the link becomes another one -/
  | link (link : τ)
  | stop
  /-- the oldest request is served -/
  | serve (now : Nat)
  /-- a read ends with this outcome, if the engine still reads -/
  | read (now : Nat) (outcome : Except Error Bytes)

/-- Whether the engine still reads. -/
def live (e : Engine τ ε) : Bool := e.running && e.connected

/-- An engine with its past. -/
structure Run (τ ε : Type) where
  engine : Engine τ ε
  /-- the resolutions that the receive path produced -/
  produced : List Resolution := []
  /-- the resolutions that were collected, under their tickets -/
  collected : List (Nat × Resolved) := []

namespace Run

variable [Transport τ]

/-- One more thing happens. -/
def step (run : Run τ ε) (action : Action τ ε) : Run τ ε :=
  match action with
  | .ask a => { run with engine := (run.engine.submit a.request).2 }
  | .cancel number => { run with engine := run.engine.submitCancel number }
  | .abandon ticket => { run with engine := run.engine.abandon ticket }
  | .collect ticket =>
    { run with
      engine := (run.engine.collect ticket).2
      collected := run.engine.resolutions.filter (·.1 == ticket) ++ run.collected }
  | .events q => { run with engine := { run.engine with events := q } }
  | .link link => { run with engine := { run.engine with transport := link } }
  | .stop => { run with engine := run.engine.stop }
  | .serve now => { run with engine := run.engine.serveNext now }
  | .read now outcome =>
    if run.engine.live then
      { run with
        engine := run.engine.received now outcome
        produced := run.produced ++
          match outcome with
          | .ok bytes => Output.resolutions (run.engine.receiver.feed bytes).2
          | .error _ => [] }
    else run

/-- What happens in a row to an engine that has just taken over a link. -/
def of (config : Config) (table : EventTable ε) (link : τ) (actions : List (Action τ ε)) :
    Run τ ε :=
  actions.foldl step { engine := .start config table link }

end Run

/-- The resolutions that were posted, collected or not. -/
def Run.sent (run : Run τ ε) : List (Nat × Resolved) := run.engine.resolutions ++ run.collected

/-- What stands under a ticket is what was posted there last. -/
theorem slot_eq_delivered_iff {e : Engine τ ε} {ticket : Nat} {r : Resolved} :
    e.slot ticket = .delivered r ↔ e.resolutions.lookup ticket = some r := by
  unfold slot
  cases hlookup : e.resolutions.lookup ticket with
  | some r' => exact ⟨fun h => congrArg some (Slot.delivered.inj h), fun h => by cases h; rfl⟩
  | none =>
    refine iff_of_false (fun h => ?_) (Option.some_ne_none r).symm
    simp only at h
    split at h <;> cases h

/-! ## The books of a run -/

/-- The ticket of a command. -/
def commandTicket? : Request → Option Nat
  | .transmit ticket _ => some ticket
  | _ => none

/-- The ticket and the number, if a reply gives one. -/
def numberGiven? : Nat × Reply → Option (Nat × Nat)
  | (ticket, .transmitted (.ok number)) => some (ticket, number)
  | _ => none

/-- The books of an engine, given its past. -/
def books (e : Engine τ ε) (produced : List Resolution) (collected : List (Nat × Resolved)) :
    Books where
  tracker := e.receiver.tracker
  waiter := e.waiter
  live := e.live
  queued := e.requests.filterMap commandTicket?
  nextTicket := e.nextTicket
  given := e.replies.filterMap numberGiven?
  sent := e.resolutions ++ collected
  produced := produced

def Run.books (run : Run τ ε) : Books := run.engine.books run.produced run.collected

theorem mem_given {e : Engine τ ε} {produced : List Resolution} {collected : List (Nat × Resolved)}
    {ticket number : Nat} :
    (ticket, number) ∈ (e.books produced collected).given
      ↔ (ticket, .transmitted (.ok number)) ∈ e.replies := by
  show (ticket, number) ∈ e.replies.filterMap numberGiven? ↔ _
  rw [List.mem_filterMap]
  constructor
  · rintro ⟨⟨t, reply⟩, hmem, hgiven⟩
    unfold numberGiven? at hgiven
    split at hgiven
    · cases hgiven
      next heq =>
        cases heq
        exact hmem
    · cases hgiven
  · intro hmem
    exact ⟨_, hmem, rfl⟩

section Moves

variable (e : Engine τ ε) (produced : List Resolution) (collected : List (Nat × Resolved))

/-- What is passed on is settled in the books. -/
theorem deliver_books (now : Nat) (output : Output ε) :
    (e.deliver now output).books produced collected
      = (Output.resolutions [output]).foldl (Books.settle now) (e.books produced collected) := by
  cases output with
  | resolved r =>
    show _ = Books.settle now (e.books produced collected) r
    unfold deliver Books.settle
    cases hw : e.waiter with
    | none => simp only [books, hw]
    | some w =>
      by_cases hnumber : w.number = r.number
      · simp only [books, hw, hnumber, if_true]
        rfl
      · simp only [books, hw, hnumber, if_false]
  | event n =>
    show _ = e.books produced collected
    simp only [deliver]
    split <;> rfl

theorem foldl_deliver_books (now : Nat) (outputs : List (Output ε)) :
    (outputs.foldl (fun e o => e.deliver now o) e).books produced collected
      = (Output.resolutions outputs).foldl (Books.settle now) (e.books produced collected) := by
  induction outputs generalizing e with
  | nil => rfl
  | cons output outputs ih =>
    rw [List.foldl_cons, ih, deliver_books, ← List.foldl_append, ← Output.resolutions_append,
      List.singleton_append]

/-! ## Every step is a move -/

/-- Serving a request starts with taking it from the queue. -/
theorem move_requests (r : Request) (rest : List Request) (hrequests : e.requests = r :: rest) :
    (e.books produced collected).Move (books { e with requests := rest } produced collected) := by
  refine .rest _ rfl rfl id ?_ (Nat.le_refl _) rfl (.refl _) rfl
  show (rest.filterMap commandTicket?).Sublist (e.requests.filterMap commandTicket?)
  rw [hrequests]
  exact (List.sublist_cons_self r rest).filterMap _

/-- The news that a command was not written is not in the books. -/
theorem answerTransmit_error_books (ticket : Nat) (err : Error) :
    (e.answerTransmit ticket (.error err)).books produced collected
      = e.books produced collected := by
  unfold answerTransmit
  by_cases habandoned : ticket ∈ e.abandoned
  · simp only [if_pos habandoned]
  · simp only [if_neg habandoned]
    rfl

/-- **A read** is one move: its bytes are followed by the receive path and its resolutions settled, or
it ends reading, or it was only too early. -/
theorem received_move (hlive : e.live = true) (now : Nat) (outcome : Except Error Bytes) :
    (e.books produced collected).Move
      ((e.received now outcome).books
        (produced ++ match outcome with
          | .ok bytes => Output.resolutions (e.receiver.feed bytes).2
          | .error _ => []) collected) := by
  cases outcome with
  | ok bytes =>
    simp only [received, foldl_deliver_books]
    exact .read now _ _ hlive (Receiver.feed_follows e.receiver bytes)
  | error err =>
    rw [List.append_nil]
    have hlost : (e.books produced collected).Move
        (books { e with connected := false, waiter := none } produced collected) := by
      have hmove := Books.Move.letGo (b := e.books produced collected) _ (.refl _)
      have hdead : live { e with connected := false, waiter := none } = false := Bool.and_false _
      simp only [books, hdead]
      exact hmove
    cases err with
    | timeout => exact .refl _
    | _ => exact hlost

variable [Transport τ]

/-- **A command is served** by one of three moves: it is refused, it is begun and given up again, or
its ticket is answered with its number. -/
theorem serve_transmit_move (now ticket : Nat) (command : Text) (rest : List Request)
    (hrequests : e.requests = .transmit ticket command :: rest) :
    (e.books produced collected).Move
      (({ e with requests := rest }.serve now (.transmit ticket command)).books produced
        collected) := by
  have hrefused := move_requests e produced collected _ rest hrequests
  have hqueued : (e.books produced collected).queued = ticket :: rest.filterMap commandTicket? := by
    simp only [books, hrequests]
    rfl
  by_cases hconnected : e.connected = true
  · cases hcurrent : e.receiver.tracker.current with
    | some p =>
      simp only [serve, if_pos hconnected, transmit, Receiver.begin_of_some _ command p hcurrent,
        answerTransmit_error_books]
      exact hrefused
    | none =>
      simp only [serve, if_pos hconnected, transmit, Receiver.begin_of_none _ command hcurrent]
      rcases hsend : Transport.send now (Utf8.encode command) e.transport with ⟨err | -, link⟩
      -- the command could not be written, and its number is given up
      · simp only [answerTransmit_error_books, Receiver.cancel, Tracker.cancel, Option.map_some,
          if_true]
        exact .drop ticket _ e.waiter hcurrent hqueued (.inr rfl)
      · by_cases habandoned : ticket ∈ e.abandoned
        -- it was written, but nobody will wait for its number
        · simp only [answerTransmit, if_pos habandoned, Receiver.cancel, Tracker.cancel,
            Option.map_some, if_true]
          exact .drop ticket _ none hcurrent hqueued (.inl rfl)
        · simp only [answerTransmit, if_neg habandoned]
          exact .start ticket _ _ hcurrent hqueued rfl
  · simp only [serve, if_neg hconnected, answerTransmit_error_books]
    exact hrefused

/-- **A request is served** by one move. -/
theorem serveNext_move (now : Nat) :
    (e.books produced collected).Move ((e.serveNext now).books produced collected) := by
  unfold serveNext
  cases hrequests : e.requests with
  | nil => exact .refl _
  | cons r rest =>
    have hrest := move_requests e produced collected r rest hrequests
    cases r with
    | transmit ticket command =>
      exact serve_transmit_move e produced collected now ticket command rest hrequests
    | cancel number =>
      have hqueued : (e.books produced collected).queued = rest.filterMap commandTicket? := by
        simp only [books, hrequests]
        rfl
      have hmove := Books.Move.cancel (b := e.books produced collected) number
      rw [hqueued] at hmove
      exact hmove
    | configure ticket t =>
      simp only [serve, configure]
      cases hcurrent : e.receiver.tracker.current with
      | none =>
        rw [Receiver.setTerminators_of_none _ t hcurrent]
        exact hrest
      | some p =>
        rw [Receiver.setTerminators_of_some _ t p hcurrent]
        exact hrest
    | setPollStep step => exact hrest
    | stats ticket => exact hrest
    | shutdown ticket => exact .letGo [] (List.nil_sublist _)

end Moves

namespace Run

variable [Transport τ]

/-- What was collected only changes its place. -/
theorem sent_collect (run : Run τ ε) (ticket : Nat) :
    (run.step (.collect ticket)).sent.Perm run.sent := by
  have hsplit := List.filter_append_perm (fun s : Nat × Resolved => s.1 == ticket)
    run.engine.resolutions
  show List.Perm (_ ++ (_ ++ run.collected)) (_ ++ run.collected)
  rw [← List.append_assoc]
  exact (List.perm_append_comm.trans hsplit).append_right _

/-- **Everything that happens** is a move of the books. -/
theorem step_move (run : Run τ ε) (action : Action τ ε) :
    run.books.Move (run.step action).books := by
  cases action with
  | ask a =>
    simp only [step, submit]
    by_cases hrunning : run.engine.running = true
    · rw [if_pos hrunning]
      cases a with
      | transmit command =>
        simp only [books, Engine.books, List.filterMap_append]
        exact .queue
      | _ =>
        refine .rest _ rfl rfl id ?_ (Nat.le_succ _) rfl (.refl _) rfl
        simp [books, Engine.books, Ask.request, commandTicket?]
    · rw [if_neg hrunning]
      exact .rest _ rfl rfl id (.refl _) (Nat.le_succ _) rfl (.refl _) rfl
  | cancel number =>
    simp only [step, submitCancel]
    split
    · refine .rest _ rfl rfl id ?_ (Nat.le_refl _) rfl (.refl _) rfl
      simp [books, Engine.books, commandTicket?]
    · exact .refl _
  | abandon ticket => exact .refl _
  | collect ticket =>
    exact .rest _ rfl rfl id (.refl _) (Nat.le_refl _) rfl (sent_collect run ticket) rfl
  | events q => exact .refl _
  | link link => exact .refl _
  | stop => exact .letGo [] (List.nil_sublist _)
  | serve now => exact serveNext_move run.engine run.produced run.collected now
  | read now outcome =>
    by_cases hlive : run.engine.live = true
    · simp only [step, if_pos hlive]
      exact received_move run.engine run.produced run.collected hlive now outcome
    · simp only [step, if_neg hlive]
      exact .refl _

/-! ## The engine's own schedule -/

theorem foldl_step_append (run : Run τ ε) (a b : List (Action τ ε)) :
    (a ++ b).foldl step run = b.foldl step (a.foldl step run) :=
  List.foldl_append

theorem repeat_serveNext (run : Run τ ε) (now n : Nat) :
    ((List.replicate n (.serve now)).foldl step run).engine
      = n.repeat (serveNext now) run.engine := by
  induction n with
  | zero => rfl
  | succ n ih =>
    rw [List.replicate_succ', foldl_step_append, Nat.repeat, ← ih]
    rfl

theorem exists_drain (run : Run τ ε) (now n : Nat) :
    ∃ actions : List (Action τ ε),
      (actions.foldl step run).engine = run.engine.drain now n := by
  induction n generalizing run with
  | zero => exact ⟨[], rfl⟩
  | succ n ih =>
    unfold drain
    by_cases hlive : (run.engine.running && run.engine.connected) = true
    · rw [if_pos hlive]
      rcases Transport.receive readSize run.engine.transport with ⟨none | outcome, link⟩
      · exact ⟨[.link link], rfl⟩
      · obtain ⟨actions, hactions⟩ := ih ([.link link, .read now outcome].foldl step run)
        refine ⟨[.link link, .read now outcome] ++ actions, ?_⟩
        have hread : ([.link link, .read now outcome].foldl step run).engine
            = { run.engine with transport := link }.received now outcome := by
          have hstill : live { run.engine with transport := link } = true := hlive
          simp only [List.foldl_cons, List.foldl_nil, step, if_pos hstill]
        rw [foldl_step_append, hactions, hread]
    · rw [if_neg hlive]
      exact ⟨[], rfl⟩

/-- **The engine's own schedule,** requests first and then bytes, is made of these steps. -/
theorem exists_run (run : Run τ ε) (now : Nat) :
    ∃ actions : List (Action τ ε), (actions.foldl step run).engine = run.engine.run now := by
  let served := (List.replicate run.engine.requests.length (.serve now)).foldl step run
  obtain ⟨actions, hactions⟩ :=
    exists_drain served now (Transport.waiting served.engine.transport + 1)
  refine ⟨List.replicate run.engine.requests.length (.serve now) ++ actions, ?_⟩
  rw [foldl_step_append, hactions, repeat_serveNext]
  rfl

/-! ## Who gets what -/

theorem foldl_step_sound (run : Run τ ε) (actions : List (Action τ ε)) (h : run.books.Sound) :
    (actions.foldl step run).books.Sound := by
  induction actions generalizing run with
  | nil => exact h
  | cons action actions ih => exact ih (run.step action) (h.move (run.step_move action))

/-- **The books of every run are sound.** -/
theorem sound (config : Config) (table : EventTable ε) (link : τ) (actions : List (Action τ ε)) :
    (of config table link actions).books.Sound := by
  apply foldl_step_sound
  exact ⟨fun _ => rfl, fun _ => (nomatch ·), fun _ => Nat.zero_le _, fun _ => Nat.zero_le _,
    fun _ => Nat.zero_le _, fun _ => (nomatch ·), .nil⟩

omit [Transport τ] in
/-- While a read is passed on, a resolution finds its waiter: what came before it were events. -/
theorem exists_waiter {run : Run τ ε} (h : run.books.Sound) (hlive : run.engine.live = true)
    (now : Nat) {bytes : Bytes} {before after : List (Output ε)} {res : Resolution}
    (houtputs : (run.engine.receiver.feed bytes).2 = before ++ .resolved res :: after) :
    ∃ w, (before.foldl (fun e o => deliver now o e)
        { run.engine with receiver := (run.engine.receiver.feed bytes).1 }).waiter = some w
      ∧ w.number = res.number := by
  have hfollows := Receiver.feed_follows run.engine.receiver bytes
  rw [houtputs, Output.resolutions_append] at hfollows
  obtain ⟨hbefore, p, hp, hnumber⟩ := hfollows.of_append_cons
  obtain ⟨w, hw, hwp⟩ := h.exists_waiter hlive hp
  refine ⟨w, ?_, hwp.trans hnumber.symm⟩
  have hbooks := foldl_deliver_books
    { run.engine with receiver := (run.engine.receiver.feed bytes).1 } [] [] now before
  rw [hbefore] at hbooks
  exact (congrArg Books.waiter hbooks).trans hw

omit [Transport τ] in
/-- A ticket has one number. -/
theorem number_unique {run : Run τ ε} (h : run.books.Sound) {a b : Nat × Nat}
    (ha : a ∈ run.books.given) (hb : b ∈ run.books.given) (hab : a.1 = b.1) : a = b :=
  List.inj_on_of_nodup_map (List.nodup_append.mp h.tickets.nodup).1 ha hb hab

omit [Transport τ] in
/-- A number has one ticket. -/
theorem ticket_unique {run : Run τ ε} (h : run.books.Sound) {a b : Nat × Nat}
    (ha : a ∈ run.books.given) (hb : b ∈ run.books.given) (hab : a.2 = b.2) : a = b :=
  List.inj_on_of_nodup_map h.numbers.nodup ha hb hab

omit [Transport τ] in
theorem nodup_sent_numbers {run : Run τ ε} (h : run.books.Sound) :
    (run.sent.map fun s => s.2.resolution.number).Nodup := by
  have hproduced := (List.nodup_append.mp h.once.nodup).2.1
  have hperm := h.complete.map Resolution.number
  rw [List.map_map] at hperm
  exact hperm.nodup_iff.mpr hproduced

omit [Transport τ] in
theorem nodup_sent_tickets {run : Run τ ε} (h : run.books.Sound) :
    (run.sent.map Prod.fst).Nodup := by
  have hnumbers := nodup_sent_numbers h
  unfold List.Nodup at hnumbers ⊢
  rw [List.pairwise_map] at hnumbers ⊢
  refine hnumbers.imp_of_mem fun {a b} ha hb hne heq => ?_
  have hpair := number_unique h (h.addressed a ha) (h.addressed b hb) heq
  exact hne (congrArg Prod.snd hpair)

/-- **Resolutions reach their waiters.** In every run, while the engine reads:

* the command in flight has a number exactly if the waiter waits for that number;
* a resolution that is passed on finds the waiter that waits for its number;

and whether it still reads or not:

* the resolutions that were sent are those that the receive path produced;
* no number and no ticket occurs twice among them;
* each was sent under the one ticket that was answered with its number;
* what the engine does by itself, requests first and then bytes, goes on as such a run. -/
theorem resolutions_reach_waiters (config : Config) (table : EventTable ε) (link : τ)
    (actions : List (Action τ ε)) :
    let run := of config table link actions
    let e := run.engine
    (e.running = true → e.connected = true → ∀ s,
      (∃ p, e.receiver.tracker.current = some p ∧ p.number = s) ↔
        ∃ w, e.waiter = some w ∧ w.number = s)
    ∧ (∀ now bytes before res after, e.running = true → e.connected = true →
        (e.receiver.feed bytes).2 = before ++ .resolved res :: after →
        ∃ w, (before.foldl (fun e o => deliver now o e)
            { e with receiver := (e.receiver.feed bytes).1 }).waiter = some w
          ∧ w.number = res.number)
    ∧ (run.sent.map fun s => s.2.resolution).Perm run.produced
    ∧ (run.sent.map fun s => s.2.resolution.number).Nodup
    ∧ (run.sent.map Prod.fst).Nodup
    ∧ (∀ s ∈ run.sent, ∀ ticket,
        (ticket, Reply.transmitted (.ok s.2.resolution.number)) ∈ e.replies ↔ ticket = s.1)
    ∧ (∀ now, ∃ more, (of config table link (actions ++ more)).engine = e.run now) := by
  intro run e
  have h : run.books.Sound := sound config table link actions
  have hlive (hrunning : e.running = true) (hconnected : e.connected = true) : e.live = true := by
    unfold live
    rw [hrunning, hconnected]
    rfl
  refine ⟨?_, ?_, h.complete, nodup_sent_numbers h, nodup_sent_tickets h, ?_, ?_⟩
  · intro hrunning hconnected s
    have hagree := h.agree (hlive hrunning hconnected)
    have hmem := congrArg (s ∈ ·) hagree
    simp only [Tracker.inFlight, Option.mem_toList, Option.map_eq_some_iff, eq_iff_iff] at hmem
    exact hmem
  · intro now bytes before res after hrunning hconnected houtputs
    exact exists_waiter h (hlive hrunning hconnected) now houtputs
  · intro s hs ticket
    have hgiven := h.addressed s hs
    constructor
    · intro hticket
      have hanswered : (ticket, s.2.resolution.number) ∈ run.books.given := mem_given.mpr hticket
      exact congrArg Prod.fst (ticket_unique h hanswered hgiven rfl)
    · rintro rfl
      exact mem_given.mp hgiven
  · intro now
    obtain ⟨more, hmore⟩ := exists_run run now
    refine ⟨more, ?_⟩
    unfold of
    rw [foldl_step_append]
    exact hmore

end Run

end ModemLink.Engine
