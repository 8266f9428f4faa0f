/-
The interplay of a session with its engine, each at a pace of its own.

On its own clock a session waits until everything has settled before it goes on. Here nothing is
settled: the application makes its calls in small steps, the engine serves, writes, answers and reads
in small steps, and the steps come in any order. Between the parties stand the bounded queue of
requests, a place for one reply under each ticket, and a place for one resolution under each ticket.
A send may be dropped wherever it has to wait. Time is left out: a command may be held back for any
while, and a wait may give up at any moment, so every timing is among the runs.

What both parties forget is remembered beside them: which number was begun under which ticket, what
was resolved, which sends were dropped too late, and what the calls returned.
-/
import ModemLink.Session.Basic
import ModemLink.Proofs.Engine.Reading

set_option autoImplicit false

namespace ModemLink

/-! ## The application -/

/-- A call that waits for a reply of the engine. -/
inductive Call where
  | send (command : Text)
  | configure (terminators : Terminators)
  | stats
deriving DecidableEq, Repr

namespace Call

/-- The request that a call queues. -/
def request : Call → Nat → Request
  | .send command, ticket => .transmit ticket command
  | .configure t, ticket => .configure ticket t
  | .stats, ticket => .stats ticket

/-- Whether a call is refused while a command is in flight. -/
def exclusive : Call → Bool
  | .stats => false
  | _ => true

end Call

/-- What an application is in the middle of. -/
inductive Doing where
  | nothing
  /-- a call whose request is not queued yet: pacing holds it back, or there is no room -/
  | queueing (c : Call)
  | awaiting (c : Call) (ticket : Nat)
  /-- a wait for a confirmation -/
  | waiting (f : InFlight)
deriving DecidableEq, Repr

/-- A call that has returned. -/
structure Returned where
  call : Call
  /-- whether a command was in flight when the call was made -/
  pending : Bool
  /-- whether a wait had ended by then because no resolution could come any more -/
  cut : Bool
  outcome : Except Error Unit
deriving DecidableEq

/-- The ticket of a request, unless nobody waits for a reply to it. -/
def Request.ticket? : Request → Option Nat
  | .transmit ticket _ | .configure ticket _ | .stats ticket | .shutdown ticket => some ticket
  | .cancel _ | .setPollStep _ => none

/-- What a call returns with this reply. -/
def Reply.outcome : Reply → Except Error Unit
  | .transmitted outcome => outcome.map fun _ => ()
  | .configured outcome => outcome
  | .stats _ | .stopped => .ok ()

/-- The number that a ticket was answered with. -/
def Engine.given? {τ ε : Type} (ticket : Nat) (e : Engine τ ε) : Option Nat :=
  match e.reply? ticket with
  | some (.transmitted (.ok number)) => some number
  | _ => none

theorem Engine.given?_eq_some {τ ε : Type} {e : Engine τ ε} {ticket number : Nat} :
    e.given? ticket = some number ↔ e.reply? ticket = some (.transmitted (.ok number)) := by
  unfold given?
  split
  · rename_i n hreply
    rw [hreply]
    constructor
    · rintro ⟨⟩
      rfl
    · rintro ⟨⟩
      rfl
  · rename_i hother
    exact ⟨nofun, fun h => absurd h (hother number)⟩

/-! ## Both parties -/

/-- An application and an engine, with their past. -/
structure Interplay (τ ε : Type) where
  engine : Engine τ ε
  /-- the command that the engine has begun to write, under its ticket, and what is going to become
  of that -/
  writing : Option (Nat × Except Error Nat) := none
  doing : Doing := .nothing
  inFlight : Option InFlight := none
  /-- whether a command was in flight when the call in progress was made -/
  called : Bool := false
  /-- whether a wait has ended because no resolution could come any more -/
  cut : Bool := false
  /-- the tickets of the commands begun, and their numbers -/
  begun : List (Nat × Nat) := []
  /-- the resolutions that the receive path produced -/
  produced : List Resolution := []
  /-- the sends that were dropped when their number stood there already -/
  late : List (Nat × Nat) := []
  /-- the calls that have returned, newest first -/
  log : List Returned := []

namespace Interplay

variable {τ ε : Type}

/-! ## Steps of the application -/

/-- The call in progress returns. -/
def ret (c : Call) (outcome : Except Error Unit) (s : Interplay τ ε) : Interplay τ ε :=
  { s with doing := .nothing, log := ⟨c, s.called, s.cut, outcome⟩ :: s.log }

/-- The application makes a call, unless it is in the middle of something. -/
def call (c : Call) (s : Interplay τ ε) : Interplay τ ε :=
  match s.doing with
  | .nothing =>
    let s := { s with called := s.inFlight.isSome }
    if c.exclusive && s.called then s.ret c (.error .busy) else { s with doing := .queueing c }
  | _ => s

/-- The request of the call is queued, if there is room. An engine that has ended takes it and never
answers. -/
def enqueue (s : Interplay τ ε) : Interplay τ ε :=
  match s.doing with
  | .queueing c =>
    if s.engine.running && requestDepth ≤ s.engine.requests.length then s
    else
      let (ticket, engine) := s.engine.submit c.request
      { s with engine := engine, doing := .awaiting c ticket }
  | _ => s

/-- The application asks for another poll step, which is queued without a reply if no command is in
flight and there is room. -/
def setPollStep (step : Nat) (s : Interplay τ ε) : Interplay τ ε :=
  match s.doing, s.inFlight with
  | .nothing, none =>
    if s.engine.running && s.engine.requests.length < requestDepth then
      { s with engine := (s.engine.submit fun _ => .setPollStep step).2 }
    else s
  | _, _ => s

/-- The send in progress is dropped. One that was queued leaves its ticket behind. -/
def drop (s : Interplay τ ε) : Interplay τ ε :=
  match s.doing with
  | .queueing (.send _) => { s with doing := .nothing }
  | .awaiting (.send _) ticket =>
    { s with
      doing := .nothing
      engine := s.engine.abandon ticket
      late := match s.engine.given? ticket with
        | some number => (ticket, number) :: s.late
        | none => s.late }
  | _ => s

/-- Whether a reply can still come. -/
def expects (ticket : Nat) (s : Interplay τ ε) : Bool :=
  s.writing.any (·.1 == ticket) || s.engine.requests.any (·.ticket? == some ticket)

/-- The call in progress takes its reply and returns, also when no reply can come any more. A send
that was given a number puts its command in flight. -/
def take (s : Interplay τ ε) : Interplay τ ε :=
  match s.doing with
  | .awaiting c ticket =>
    match s.engine.given? ticket, s.engine.reply? ticket with
    | some number, _ => { s with inFlight := some ⟨number, ticket⟩ }.ret c (.ok ())
    | none, some reply => s.ret c reply.outcome
    | none, none => if s.expects ticket then s else s.ret c (.error .notConnected)
  | _ => s

/-- The application begins to wait for the command in flight, which is its own business from then
on. -/
def wait (s : Interplay τ ε) : Interplay τ ε :=
  match s.doing, s.inFlight with
  | .nothing, some f => { s with doing := .waiting f, inFlight := none }
  | _, _ => s

/-- A wait looks whether the resolution stands, and ends if it does or cannot come any more. -/
def look (s : Interplay τ ε) : Interplay τ ε :=
  match s.doing with
  | .waiting f =>
    match s.engine.collect f.ticket with
    | (.delivered _, engine) => { s with doing := .nothing, engine := engine }
    | (.closed, _) => { s with doing := .nothing, cut := true }
    | (.waiting, _) => s
  | _ => s

/-- A wait gives up. -/
def giveUp (s : Interplay τ ε) : Interplay τ ε :=
  match s.doing with
  | .waiting f => { s with doing := .nothing, engine := s.engine.submitCancel f.number }
  | _ => s

/-! ## Steps of the engine -/

/-- The engine serves the oldest request, unless it is writing. A command is begun and written, and
answered in a step of its own. -/
def serve [Transport τ] (now : Nat) (s : Interplay τ ε) : Interplay τ ε :=
  if s.writing.isSome then s
  else
    match s.engine.requests with
    | .transmit ticket command :: rest =>
      let e := { s.engine with requests := rest }
      let (outcome, engine) :=
        if e.connected then e.transmit now command else (.error .connectionLost, e)
      { s with
        engine := engine
        writing := some (ticket, outcome)
        begun :=
          if e.connected && !e.receiver.isPending then (ticket, e.receiver.tracker.next) :: s.begun
          else s.begun }
    | _ => { s with engine := s.engine.serveNext now }

/-- The engine answers the command that it has written, or could not write. -/
def answer (s : Interplay τ ε) : Interplay τ ε :=
  match s.writing with
  | some (ticket, outcome) =>
    { s with writing := none, engine := s.engine.answerTransmit ticket outcome }
  | none => s

/-- A read ends with this outcome, if the engine reads. -/
def read (now : Nat) (outcome : Except Error Bytes) (s : Interplay τ ε) : Interplay τ ε :=
  if s.writing.isNone && s.engine.live then
    { s with
      engine := s.engine.received now outcome
      produced := s.produced ++
        match outcome with
        | .ok bytes => Output.resolutions (s.engine.receiver.feed bytes).2
        | .error _ => [] }
  else s

/-! ## Runs -/

/-- A step of either party, or of the world around them. -/
inductive Act (τ ε : Type) where
  | call (c : Call)
  | enqueue
  | setPollStep (step : Nat)
  | drop
  | take
  | wait
  | look
  | giveUp
  | serve (now : Nat)
  | answer
  | read (now : Nat) (outcome : Except Error Bytes)
  /-- the link becomes another one -/
  | link (link : τ)
  /-- the event queue becomes another one -/
  | events (q : Queue (Notification ε))
  /-- the engine is stopped, which it notices between two requests -/
  | stop

variable [Transport τ]

/-- One more step. One that is not possible changes nothing. -/
def step (s : Interplay τ ε) : Act τ ε → Interplay τ ε
  | .call c => s.call c
  | .enqueue => s.enqueue
  | .setPollStep step => s.setPollStep step
  | .drop => s.drop
  | .take => s.take
  | .wait => s.wait
  | .look => s.look
  | .giveUp => s.giveUp
  | .serve now => s.serve now
  | .answer => s.answer
  | .read now outcome => s.read now outcome
  | .link link => { s with engine := { s.engine with transport := link } }
  | .events q => { s with engine := { s.engine with events := q } }
  | .stop => if s.writing.isNone then { s with engine := s.engine.stop } else s

/-- A run from an engine that has just taken over a link. -/
def of (config : Config) (table : EventTable ε) (link : τ) (acts : List (Act τ ε)) :
    Interplay τ ε :=
  acts.foldl step { engine := .start config table link }

theorem foldl_step_append (s : Interplay τ ε) (a b : List (Act τ ε)) :
    (a ++ b).foldl step s = b.foldl step (a.foldl step s) :=
  List.foldl_append

/-! ## What a step of the engine can do -/

/-- The number of the command in the slot, as far as there is one. -/
def InSlot (s : Interplay τ ε) (n : Nat) : Prop :=
  ∃ p, s.engine.receiver.tracker.current = some p ∧ p.number = n

/-- **What serving does** while the engine does not write. -/
inductive Served (s : Interplay τ ε) : Interplay τ ε → Prop where
  | nothing (hrequests : s.engine.requests = []) : Served s s
  | cancel (number : Nat) (rest : List Request)
    (hrequests : s.engine.requests = .cancel number :: rest) :
    Served s { s with engine := { s.engine with requests := rest }.cancel number }
  | pollStep (step : Nat) (rest : List Request)
    (hrequests : s.engine.requests = .setPollStep step :: rest) :
    Served s { s with engine := { s.engine with requests := rest, pollStep := step } }
  /-- another command is in the slot, or reading has ended -/
  | refused (ticket : Nat) (command : Text) (rest : List Request) (err : Error)
    (hrequests : s.engine.requests = .transmit ticket command :: rest)
    (hbusy : err = .busy ↔
      s.engine.connected = true ∧ s.engine.receiver.tracker.current.isSome = true) :
    Served s { s with
      engine := { s.engine with requests := rest }
      writing := some (ticket, .error err) }
  /-- the command could not be written, and its number is given up -/
  | failed (ticket : Nat) (command : Text) (rest : List Request) (r : Receiver ε) (link : τ)
    (now : Nat) (err : Error)
    (hrequests : s.engine.requests = .transmit ticket command :: rest)
    (hconnected : s.engine.connected = true)
    (hidle : s.engine.receiver.tracker.current = none)
    (htracker : r.tracker = { s.engine.receiver.tracker with
      current := none
      next := s.engine.receiver.tracker.next + 1 })
    (hsend : Transport.send now (Utf8.encode command) s.engine.transport = (.error err, link)) :
    Served s { s with
      engine := { s.engine with requests := rest, receiver := r, transport := link }
      writing := some (ticket, .error err)
      begun := (ticket, s.engine.receiver.tracker.next) :: s.begun }
  | begun (ticket : Nat) (command : Text) (rest : List Request) (r : Receiver ε) (p : Pending)
    (link : τ)
    (hrequests : s.engine.requests = .transmit ticket command :: rest)
    (hconnected : s.engine.connected = true)
    (hidle : s.engine.receiver.tracker.current = none)
    (htracker : r.tracker = { s.engine.receiver.tracker with
      current := some p
      next := s.engine.receiver.tracker.next + 1 })
    (hp : p.number = s.engine.receiver.tracker.next) :
    Served s { s with
      engine := { s.engine with requests := rest, receiver := r, transport := link }
      writing := some (ticket, .ok p.number)
      begun := (ticket, p.number) :: s.begun }
  | configured (ticket : Nat) (t : Terminators) (rest : List Request) (r : Receiver ε)
    (outcome : Except Error Unit)
    (hrequests : s.engine.requests = .configure ticket t :: rest)
    (htracker : r.tracker = s.engine.receiver.tracker)
    (houtcome : outcome
      = if s.engine.receiver.tracker.current.isSome = true then .error .busy else .ok ()) :
    Served s { s with
      engine := { s.engine with requests := rest, receiver := r }.post ticket (.configured outcome) }
  | stats (ticket : Nat) (rest : List Request) (stats : Stats)
    (hrequests : s.engine.requests = .stats ticket :: rest) :
    Served s { s with
      engine := { s.engine with requests := rest }.post ticket (.stats stats) }
  | shutdown (ticket : Nat) (rest : List Request)
    (hrequests : s.engine.requests = .shutdown ticket :: rest) :
    Served s { s with engine := ({ s.engine with requests := rest }.post ticket .stopped).stop }

/-- A command is begun and written, or refused. -/
theorem serve_transmit_served (s : Interplay τ ε) (now : Nat) (hwriting : s.writing = none)
    {ticket : Nat} {command : Text} {rest : List Request}
    (hrequests : s.engine.requests = .transmit ticket command :: rest) :
    s.Served (s.serve now) := by
  have hfree : ¬ s.writing.isSome = true := by
    rw [hwriting]
    exact Bool.false_ne_true
  unfold serve
  rw [if_neg hfree, hrequests]
  by_cases hconnected : s.engine.connected = true
  · rcases hcurrent : s.engine.receiver.tracker.current with - | p
    · have hidle : (!s.engine.receiver.isPending) = true := by
        unfold Receiver.isPending Tracker.isPending
        rw [hcurrent]
        rfl
      simp only [if_pos hconnected, Engine.transmit, Receiver.begin_of_none _ command hcurrent,
        if_pos (Bool.and_eq_true_iff.mpr ⟨hconnected, hidle⟩)]
      rcases hsend : Transport.send now (Utf8.encode command) s.engine.transport with
        ⟨err | -, link⟩
      · exact .failed ticket command rest _ link now err hrequests hconnected hcurrent
          (by simp [Receiver.cancel, Tracker.cancel]) hsend
      · exact .begun ticket command rest _
          ⟨s.engine.receiver.tracker.next, Command.name s.engine.receiver.vocabulary.separators command, {}, 0⟩
          link hrequests hconnected hcurrent rfl rfl
    · have hbusy : (s.engine.connected && !s.engine.receiver.isPending) = false := by
        unfold Receiver.isPending Tracker.isPending
        rw [hcurrent, hconnected]
        rfl
      simp only [if_pos hconnected, Engine.transmit, Receiver.begin_of_some _ command p hcurrent,
        hbusy, Bool.false_eq_true, if_false]
      refine .refused ticket command rest .busy hrequests ?_
      rw [hcurrent]
      exact ⟨fun _ => ⟨hconnected, rfl⟩, fun _ => rfl⟩
  · have hlost : ¬ (s.engine.connected && !s.engine.receiver.isPending) = true :=
      fun h => hconnected (Bool.and_eq_true_iff.mp h).1
    simp only [if_neg hconnected, if_neg hlost]
    refine .refused ticket command rest .connectionLost hrequests ?_
    exact ⟨(fun h => by cases h), fun h => absurd h.1 hconnected⟩

theorem serve_served (s : Interplay τ ε) (now : Nat) (hwriting : s.writing = none) :
    s.Served (s.serve now) := by
  have hfree : ¬ s.writing.isSome = true := by
    rw [hwriting]
    exact Bool.false_ne_true
  rcases hrequests : s.engine.requests with - | ⟨r, rest⟩
  · have hserve : s.serve now = s := by
      unfold serve Engine.serveNext
      rw [if_neg hfree, hrequests]
    rw [hserve]
    exact .nothing hrequests
  · have hserve (h : ∀ ticket command, r ≠ .transmit ticket command) :
        s.serve now = { s with engine := { s.engine with requests := rest }.serve now r } := by
      unfold serve Engine.serveNext
      rw [if_neg hfree, hrequests]
      cases r with
      | transmit ticket command => exact absurd rfl (h ticket command)
      | _ => rfl
    cases r with
    | transmit ticket command => exact serve_transmit_served s now hwriting hrequests
    | cancel number =>
      rw [hserve (fun _ _ h => by cases h)]
      exact .cancel number rest hrequests
    | configure ticket t =>
      rw [hserve (fun _ _ h => by cases h)]
      cases hcurrent : s.engine.receiver.tracker.current with
      | none =>
        simp only [Engine.serve, Engine.configure, Receiver.setTerminators_of_none _ t hcurrent]
        exact .configured ticket t rest _ (.ok ()) hrequests rfl (by rw [hcurrent]; rfl)
      | some p =>
        simp only [Engine.serve, Engine.configure, Receiver.setTerminators_of_some _ t p hcurrent]
        exact .configured ticket t rest _ (.error .busy) hrequests rfl (by rw [hcurrent]; rfl)
    | setPollStep step =>
      rw [hserve (fun _ _ h => by cases h)]
      exact .pollStep step rest hrequests
    | stats ticket =>
      rw [hserve (fun _ _ h => by cases h)]
      exact .stats ticket rest _ hrequests
    | shutdown ticket =>
      rw [hserve (fun _ _ h => by cases h)]
      exact .shutdown ticket rest hrequests

end Interplay

/-! ## What a read can do -/

theorem Tracker.Follows.eq_nil_or_singleton {t t' : Tracker} {a : List Resolution}
    (h : t.Follows t' a) : a = [] ∨ ∃ res, a = [res] := by
  cases h with
  | idle | kept => exact .inl rfl
  | ended p res => exact .inr ⟨res, rfl⟩

theorem Books.settle_of_waiter {b : Books} (now : Nat) {res : Resolution} {w : Waiter}
    (hw : b.waiter = some w) (hnumber : w.number = res.number) :
    b.settle now res = { b with waiter := none, sent := (w.ticket, ⟨res, now⟩) :: b.sent } := by
  unfold settle
  rw [hw]
  exact if_pos hnumber

theorem Books.settle_of_unheard {b : Books} (now : Nat) {res : Resolution}
    (h : ∀ w, b.waiter = some w → w.number ≠ res.number) : b.settle now res = b := by
  unfold settle
  cases hw : b.waiter with
  | none => rfl
  | some w => exact if_neg (h w hw)

namespace Engine

variable {τ ε : Type}

/-- **What a read does** to the slot and to who waits, with the resolutions that it produces. -/
inductive Heard (e : Engine τ ε) : Engine τ ε → List Resolution → Prop where
  | nothing : Heard e e []
  | failed : Heard e { e with connected := false, waiter := none } []
  | kept (r : Receiver ε) (q : Queue (Notification ε))
    (hfollows : e.receiver.tracker.Follows r.tracker []) :
    Heard e { e with receiver := r, events := q } []
  | passed (r : Receiver ε) (q : Queue (Notification ε)) (res : Resolution) (w : Waiter) (now : Nat)
    (hfollows : e.receiver.tracker.Follows r.tracker [res]) (hw : e.waiter = some w)
    (hnumber : w.number = res.number) :
    Heard e { e with
      receiver := r
      events := q
      waiter := none
      resolutions := (w.ticket, ⟨res, now⟩) :: e.resolutions } [res]
  | unheard (r : Receiver ε) (q : Queue (Notification ε)) (res : Resolution)
    (hfollows : e.receiver.tracker.Follows r.tracker [res])
    (hw : ∀ w, e.waiter = some w → w.number ≠ res.number) :
    Heard e { e with receiver := r, events := q } [res]

theorem received_heard (e : Engine τ ε) (now : Nat) (outcome : Except Error Bytes) :
    e.Heard (e.received now outcome)
      (match outcome with
        | .ok bytes => Output.resolutions (e.receiver.feed bytes).2
        | .error _ => []) := by
  rcases outcome with err | bytes
  · cases err with
    | timeout => exact .nothing
    | _ => exact .failed
  · obtain ⟨k, q, waiter, resolutions, hreceived⟩ := exists_received now bytes e
    have hread : e.received now (.ok bytes) = { e with
        receiver := (e.receiver.feed bytes).1.lose k
        events := q
        waiter := waiter
        resolutions := resolutions } := hreceived e.transport
    have hfollows := Receiver.feed_follows e.receiver bytes
    -- who waits afterwards, and what stands where, is in the books
    have hbooks : (e.received now (.ok bytes)).books [] []
        = (Output.resolutions (e.receiver.feed bytes).2).foldl (Books.settle now)
          (books { e with receiver := (e.receiver.feed bytes).1 } [] []) :=
      foldl_deliver_books _ [] [] now _
    rw [hread] at hbooks ⊢
    have hwaiter : waiter = _ := congrArg Books.waiter hbooks
    have hsent : resolutions ++ [] = _ := congrArg Books.sent hbooks
    rw [List.append_nil] at hsent
    show Heard e _ (Output.resolutions (e.receiver.feed bytes).2)
    rcases hfollows.eq_nil_or_singleton with hnone | ⟨res, hone⟩
    · rw [hnone] at hwaiter hsent hfollows ⊢
      rw [hwaiter, hsent, List.foldl_nil]
      simp only [books, List.append_nil]
      exact .kept _ q hfollows
    · rw [hone] at hwaiter hsent hfollows ⊢
      rw [List.foldl_cons, List.foldl_nil] at hwaiter hsent
      by_cases hheard : ∃ w, e.waiter = some w ∧ w.number = res.number
      · obtain ⟨w, hw, hnumber⟩ := hheard
        rw [Books.settle_of_waiter now hw hnumber] at hwaiter hsent
        rw [hwaiter, hsent]
        simp only [books, List.append_nil]
        exact .passed _ q res w now hfollows hw hnumber
      · have hunheard : ∀ w, e.waiter = some w → w.number ≠ res.number :=
          fun w hw hnumber => hheard ⟨w, hw, hnumber⟩
        rw [Books.settle_of_unheard now hunheard] at hwaiter hsent
        rw [hwaiter, hsent]
        simp only [books, List.append_nil]
        exact .unheard _ q res hfollows hunheard

end Engine

end ModemLink
