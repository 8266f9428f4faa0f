/-
What an engine does by itself with what it is asked and with what it reads.

Passing on what the receive path produces looks at who waits and at the event queue, and at nothing
else. So reading bytes piece by piece is reading them at once, and however little one read of a
scripted link yields, the engine ends up where a single read of everything would have taken it.

An engine at rest, whose receive path is where some receive path of its own would be but for lost
events, is then easily followed through a command: the resolution that the receive path produces
stands under the ticket of the command, and the engine is at rest again.
-/
import ModemLink.Link
import ModemLink.Proofs.Engine.Waiting
import ModemLink.Proofs.Receiver.Lines

set_option autoImplicit false

namespace ModemLink.Engine

/-! ## Reading in pieces -/

section Pieces

variable {τ ε : Type}

/-- **Passing on** reads neither the receive path nor the link, and of the receive path it changes
the count of lost events only. -/
theorem exists_deliver (now : Nat) (output : Output ε) (e : Engine τ ε) :
    ∃ k events waiter resolutions, ∀ (r : Receiver ε) (link : τ),
      { e with receiver := r, transport := link }.deliver now output
        = { e with
            receiver := r.lose k
            transport := link
            events := events
            waiter := waiter
            resolutions := resolutions } := by
  cases output with
  | resolved res =>
    cases e.waiter with
    | none => exact ⟨0, e.events, none, e.resolutions, fun _ _ => rfl⟩
    | some w =>
      by_cases hnumber : w.number = res.number
      · refine ⟨0, e.events, none, (w.ticket, ⟨res, now⟩) :: e.resolutions, fun r link => ?_⟩
        simp only [deliver, if_pos hnumber]
        rfl
      · refine ⟨0, e.events, some w, e.resolutions, fun r link => ?_⟩
        simp only [deliver, if_neg hnumber]
        rfl
  | event n =>
    rcases hoffer : e.events.offer n with ⟨accepted | full | closed, q⟩
    · refine ⟨0, q, e.waiter, e.resolutions, fun r link => ?_⟩
      simp only [deliver, hoffer]
      rfl
    · refine ⟨1, e.events, e.waiter, e.resolutions, fun r link => ?_⟩
      simp only [deliver, hoffer]
      rfl
    · refine ⟨0, q, e.waiter, e.resolutions, fun r link => ?_⟩
      simp only [deliver, hoffer]
      rfl

theorem exists_foldl_deliver (now : Nat) (outputs : List (Output ε)) (e : Engine τ ε) :
    ∃ k events waiter resolutions, ∀ (r : Receiver ε) (link : τ),
      outputs.foldl (fun e o => e.deliver now o) { e with receiver := r, transport := link }
        = { e with
            receiver := r.lose k
            transport := link
            events := events
            waiter := waiter
            resolutions := resolutions } := by
  induction outputs generalizing e with
  | nil => exact ⟨0, e.events, e.waiter, e.resolutions, fun _ _ => rfl⟩
  | cons output outputs ih =>
    obtain ⟨j, events, waiter, resolutions, hfirst⟩ := exists_deliver now output e
    obtain ⟨k, events', waiter', resolutions', hmore⟩ :=
      ih { e with events := events, waiter := waiter, resolutions := resolutions }
    refine ⟨j + k, events', waiter', resolutions', fun r link => ?_⟩
    rw [List.foldl_cons, hfirst, ← Receiver.lose_lose]
    exact hmore (r.lose j) link

/-- **Pieces do not matter.** Taking in two pieces one after the other is taking them in at
once. -/
theorem received_append (now : Nat) (a b : Bytes) (e : Engine τ ε) :
    e.received now (.ok (a ++ b)) = (e.received now (.ok a)).received now (.ok b) := by
  obtain ⟨k, events, waiter, resolutions, hfirst⟩ :=
    exists_foldl_deliver now (e.receiver.feed a).2 e
  -- what the first piece passes on does not depend on what the receive path becomes behind it
  have ha : e.received now (.ok a)
      = { e with
          receiver := (e.receiver.feed a).1.lose k
          events := events
          waiter := waiter
          resolutions := resolutions } := hfirst _ e.transport
  have hall := hfirst ((e.receiver.feed a).1.feed b).1 e.transport
  have hfeed := Receiver.feed_lose k (e.receiver.feed a).1 b
  rw [ha]
  simp only [received, Receiver.feed_append, List.foldl_append, hall, hfeed]

/-- What a read leaves alone. -/
theorem exists_received (now : Nat) (bytes : Bytes) (e : Engine τ ε) :
    ∃ k events waiter resolutions, ∀ link : τ,
      { e with transport := link }.received now (.ok bytes)
        = { e with
            receiver := (e.receiver.feed bytes).1.lose k
            transport := link
            events := events
            waiter := waiter
            resolutions := resolutions } := by
  obtain ⟨k, events, waiter, resolutions, h⟩ :=
    exists_foldl_deliver now (e.receiver.feed bytes).2 e
  exact ⟨k, events, waiter, resolutions, fun link => h _ link⟩

/-- The one resolution of a read goes to the waiter of its number. -/
theorem received_resolved (now : Nat) (bytes : Bytes) (e : Engine τ ε) {w : Waiter}
    {res : Resolution} (hw : e.waiter = some w)
    (hres : Output.resolutions (e.receiver.feed bytes).2 = [res]) (hnumber : w.number = res.number) :
    (e.received now (.ok bytes)).resolutions = (w.ticket, ⟨res, now⟩) :: e.resolutions := by
  have hbooks := foldl_deliver_books { e with receiver := (e.receiver.feed bytes).1 } [] [] now
    (e.receiver.feed bytes).2
  rw [hres] at hbooks
  have hsent := congrArg Books.sent hbooks
  have hsettled : (Books.settle now
      (books { e with receiver := (e.receiver.feed bytes).1 } [] []) res).sent
      = (w.ticket, ⟨res, now⟩) :: (e.resolutions ++ []) := by
    have hwaiter : (books { e with receiver := (e.receiver.feed bytes).1 } [] []).waiter = some w :=
      hw
    unfold Books.settle
    rw [hwaiter]
    simp only [if_pos hnumber]
    rfl
  have happended := hsent.trans hsettled
  rw [List.append_nil] at happended
  rw [← happended]
  exact (List.append_nil _).symm

end Pieces

/-! ## Reading a scripted link -/

variable {ε : Type}

/-- A read that finds nothing changes nothing. -/
theorem drain_nothing (now n : Nat) (e : Engine Link ε) (hlive : e.live = true)
    (hlink : e.transport.connected = true) (hinbound : e.transport.inbound = []) :
    e.drain now (n + 1) = e := by
  have hnothing : Transport.receive readSize e.transport = (none, e.transport) := by
    show e.transport.receive readSize = _
    unfold Link.receive
    rw [hlink, hinbound]
    rfl
  have hpos : (e.running && e.connected) = true := hlive
  unfold drain
  rw [if_pos hpos, hnothing]

/-- **Reading until nothing is there** is one read of everything, however little a single read
yields. -/
theorem drain_eq_received (now n : Nat) (e : Engine Link ε) (hlive : e.live = true)
    (hlink : e.transport.connected = true) (hchunk : e.transport.chunk ≠ some 0)
    (hn : e.transport.inbound.length < n) :
    e.drain now n
      = { e with transport := { e.transport with inbound := [] } }.received now
          (.ok e.transport.inbound) := by
  induction n generalizing e with
  | zero => exact absurd hn (Nat.not_lt_zero _)
  | succ n ih =>
    by_cases hempty : e.transport.inbound = []
    · have hsame : { e.transport with inbound := [] } = e.transport := by rw [← hempty]
      rw [drain_nothing now n e hlive hlink hempty, hsame, hempty]
      rfl
    · obtain ⟨m, hm⟩ : ∃ m, m = e.transport.readable readSize := ⟨_, rfl⟩
      have hup : ¬ (!e.transport.connected) = true := by
        rw [hlink]
        exact Bool.false_ne_true
      have hread : Transport.receive readSize e.transport
          = (some (.ok (e.transport.inbound.take m)),
            { e.transport with inbound := e.transport.inbound.drop m }) := by
        show e.transport.receive readSize = _
        unfold Link.receive
        rw [if_neg hup, if_neg (by rwa [List.isEmpty_iff]), hm]
      -- a read that finds something takes a byte at least, so the rest is shorter
      have hinbound := List.length_pos_iff.mpr hempty
      have hpos : 0 < m := by
        rw [hm]
        unfold Link.readable readSize
        cases hc : e.transport.chunk with
        | none =>
          rw [Option.getD_none]
          omega
        | some c =>
          have hc0 : c ≠ 0 := by
            rintro rfl
            exact hchunk hc
          rw [Option.getD_some]
          omega
      obtain ⟨k, events, waiter, resolutions, hreceived⟩ :=
        exists_received now (e.transport.inbound.take m) e
      have hshorter : (e.transport.inbound.drop m).length < n := by
        rw [List.length_drop]
        omega
      have hpos' : (e.running && e.connected) = true := hlive
      unfold drain
      rw [if_pos hpos', hread]
      show ({ e with transport := { e.transport with inbound := e.transport.inbound.drop m } }.received
        now (.ok (e.transport.inbound.take m))).drain now n = _
      rw [hreceived, ih]
      · -- what was read first and what is left are all there was
        have hwhole := received_append now (e.transport.inbound.take m)
          (e.transport.inbound.drop m) { e with transport := { e.transport with inbound := [] } }
        rw [List.take_append_drop, hreceived] at hwhole
        exact hwhole.symm
      · exact hlive
      · exact hlink
      · exact hchunk
      · exact hshorter

/-! ## An engine that keeps up with its receive path -/

/-- **Where an engine stands.** Nothing is asked for, and `inbound` is there to be read. The receive
path is where `core` is but for lost events, and the module is going to answer as the script says.
With nothing to be read the engine is at rest. -/
structure Stands (e : Engine Link ε) (core : Receiver ε) (script : List Exchange)
    (inbound : Bytes) : Prop where
  live_eq : e.live = true
  requests_eq : e.requests = []
  abandoned_eq : e.abandoned = []
  receiver_eq : ∃ k, e.receiver = core.lose k
  connected_eq : e.transport.connected = true
  inbound_eq : e.transport.inbound = inbound
  chunk_ne : e.transport.chunk ≠ some 0
  script_eq : e.transport.script = script

namespace Stands

variable {e : Engine Link ε} {core : Receiver ε} {script : List Exchange} {inbound : Bytes}

theorem withEvents (h : e.Stands core script inbound) (q : Queue (Notification ε)) :
    Stands { e with events := q } core script inbound :=
  ⟨h.live_eq, h.requests_eq, h.abandoned_eq, h.receiver_eq, h.connected_eq, h.inbound_eq,
    h.chunk_ne, h.script_eq⟩

theorem collected (h : e.Stands core script inbound) (ticket : Nat) :
    (e.collect ticket).2.Stands core script inbound :=
  ⟨h.live_eq, h.requests_eq, h.abandoned_eq, h.receiver_eq, h.connected_eq, h.inbound_eq,
    h.chunk_ne, h.script_eq⟩

/-- **What is there is read,** all of it, and nothing is answered meanwhile. -/
theorem drain (h : e.Stands core script inbound) (now : Nat) :
    let read := e.drain now (inbound.length + 1)
    read.Stands (core.feed inbound).1 script [] ∧ read.replies = e.replies := by
  intro read
  obtain ⟨k, hk⟩ := h.receiver_eq
  obtain ⟨j, events, waiter, resolutions, hreceived⟩ := exists_received now inbound e
  have hread : read = { e with transport := { e.transport with inbound := [] } }.received now
      (.ok inbound) := by
    rw [← h.inbound_eq]
    apply drain_eq_received now _ e h.live_eq h.connected_eq h.chunk_ne
    rw [h.inbound_eq]
    exact Nat.lt_succ_self _
  rw [hread, hreceived, hk, Receiver.feed_lose]
  refine ⟨?_, rfl⟩
  exact ⟨h.live_eq, h.requests_eq, h.abandoned_eq, ⟨k + j, Receiver.lose_lose k j _⟩,
    h.connected_eq, rfl, h.chunk_ne, h.script_eq⟩

/-- The one resolution among what is read stands under the ticket of its waiter. -/
theorem drain_resolutions (h : e.Stands core script inbound) (now : Nat) {w : Waiter}
    (hw : e.waiter = some w) {res : Resolution}
    (hres : Output.resolutions (core.feed inbound).2 = [res]) (hnumber : w.number = res.number) :
    (e.drain now (inbound.length + 1)).resolutions = (w.ticket, ⟨res, now⟩) :: e.resolutions := by
  obtain ⟨k, hk⟩ := h.receiver_eq
  have hread : e.drain now (inbound.length + 1)
      = { e with transport := { e.transport with inbound := [] } }.received now (.ok inbound) := by
    rw [← h.inbound_eq]
    apply drain_eq_received now _ e h.live_eq h.connected_eq h.chunk_ne
    exact Nat.lt_succ_self _
  have hres' : Output.resolutions (e.receiver.feed inbound).2 = [res] := by
    rw [hk, Receiver.feed_lose]
    exact hres
  rw [hread]
  exact received_resolved now inbound _ hw hres' hnumber

theorem run_eq (h : e.Stands core script []) (now : Nat) : e.run now = e := by
  have hserved : e.requests.length.repeat (serveNext now) e = e := by
    rw [h.requests_eq]
    rfl
  unfold run
  rw [hserved]
  exact drain_nothing now _ e h.live_eq h.connected_eq h.inbound_eq

/-- What an engine at rest is asked for is served, and then the engine reads. -/
theorem run_submit (h : e.Stands core script []) (request : Nat → Request) (now : Nat)
    {served : Engine Link ε}
    (hserved : { e with nextTicket := e.nextTicket + 1 }.serve now (request e.nextTicket)
      = served) :
    (e.submit request).2.run now = served.drain now (served.transport.inbound.length + 1) := by
  have hrunning : e.running = true := (Bool.and_eq_true_iff.mp h.live_eq).1
  have hsubmit : (e.submit request).2
      = { e with nextTicket := e.nextTicket + 1, requests := [request e.nextTicket] } := by
    unfold submit
    rw [hrunning, h.requests_eq]
    rfl
  have hnone : { e with nextTicket := e.nextTicket + 1 }
      = { e with nextTicket := e.nextTicket + 1, requests := [] } := by
    rw [← h.requests_eq]
  rw [hnone] at hserved
  rw [hsubmit, ← hserved]
  rfl

/-- **A question about the counters** is answered, and the engine is at rest again. -/
theorem stats (h : e.Stands core script []) (now : Nat) :
    let asked := (e.submit .stats).2.run now
    asked.Stands core script []
      ∧ ∃ k, asked.reply? e.nextTicket = some (.stats (core.lose k).stats) := by
  intro asked
  have hasked : asked = { e with
      nextTicket := e.nextTicket + 1
      replies := (e.nextTicket, .stats e.receiver.stats) :: e.replies } := by
    show (e.submit .stats).2.run now = _
    rw [h.run_submit .stats now rfl]
    exact drain_nothing now _ _ h.live_eq h.connected_eq h.inbound_eq
  obtain ⟨k, hk⟩ := h.receiver_eq
  rw [hasked]
  constructor
  · exact ⟨h.live_eq, h.requests_eq, h.abandoned_eq, h.receiver_eq, h.connected_eq, h.inbound_eq,
      h.chunk_ne, h.script_eq⟩
  · refine ⟨k, ?_⟩
    rw [← hk]
    exact List.lookup_cons_self

/-- **Serving a command** writes it. Its reply is there to be read, and the holder of the ticket
waits for its number. -/
theorem serve_transmit {command : Text} {reply : Bytes}
    (h : e.Stands core (⟨Utf8.encode command, reply⟩ :: script) []) {number : Nat}
    {begun : Receiver ε} (hbegin : core.begin command = .ok (number, begun)) (now : Nat) :
    let served := { e with nextTicket := e.nextTicket + 1 }.serve now
      (.transmit e.nextTicket command)
    served.Stands begun script reply ∧ served.waiter = some ⟨number, e.nextTicket⟩
      ∧ served.replies = (e.nextTicket, .transmitted (.ok number)) :: e.replies
      ∧ served.resolutions = e.resolutions := by
  intro served
  obtain ⟨k, hk⟩ := h.receiver_eq
  have hconnected : e.connected = true := (Bool.and_eq_true_iff.mp h.live_eq).2
  have hsend : Transport.send now (Utf8.encode command) e.transport
      = (.ok (), { e.transport with
          script := script
          inbound := reply
          sent := e.transport.sent ++ [⟨Utf8.encode command, now⟩] }) := by
    have hup : ¬ (!e.transport.connected) = true := by
      rw [h.connected_eq]
      exact Bool.false_ne_true
    show e.transport.send now (Utf8.encode command) = _
    unfold Link.send
    rw [if_neg hup, h.script_eq, h.inbound_eq]
    simp only [if_true, List.nil_append]
  -- lost events do not keep the command from being begun
  have hbegin' := Receiver.begin_lose k core hbegin
  rw [← hk] at hbegin'
  -- and somebody waits for the reply
  have hkept : e.nextTicket ∉ e.abandoned := by
    rw [h.abandoned_eq]
    exact List.not_mem_nil
  have hserved : served = { e with
      nextTicket := e.nextTicket + 1
      receiver := begun.lose k
      transport := { e.transport with
        script := script
        inbound := reply
        sent := e.transport.sent ++ [⟨Utf8.encode command, now⟩] }
      waiter := some ⟨number, e.nextTicket⟩
      replies := (e.nextTicket, .transmitted (.ok number)) :: e.replies } := by
    simp only [served, serve, Engine.transmit, hconnected, if_true, hbegin', hsend, answerTransmit,
      if_neg hkept, post]
  rw [hserved]
  exact ⟨⟨h.live_eq, h.requests_eq, h.abandoned_eq, ⟨k, rfl⟩, h.connected_eq, rfl, h.chunk_ne, rfl⟩,
    rfl, rfl, rfl⟩

/-- **A command** goes out, and all of its reply is read. The one resolution that the receive path
produces stands under the ticket of the command, and the engine is at rest again. -/
theorem transmit {command : Text} {reply : Bytes}
    (h : e.Stands core (⟨Utf8.encode command, reply⟩ :: script) []) {number : Nat}
    {begun : Receiver ε} (hbegin : core.begin command = .ok (number, begun)) {res : Resolution}
    (hres : Output.resolutions (begun.feed reply).2 = [res]) (hnumber : number = res.number)
    (now : Nat) :
    let answered := (e.submit (.transmit · command)).2.run now
    answered.Stands (begun.feed reply).1 script []
      ∧ answered.reply? e.nextTicket = some (.transmitted (.ok number))
      ∧ answered.slot e.nextTicket = .delivered ⟨res, now⟩ := by
  intro answered
  obtain ⟨hserved, hwaiter, hreplies, hresolutions⟩ := h.serve_transmit hbegin now
  have hanswered := h.run_submit (.transmit · command) now rfl
  rw [hserved.inbound_eq] at hanswered
  obtain ⟨hstands, hkept⟩ := hserved.drain now
  have hposted := hserved.drain_resolutions now hwaiter hres hnumber
  rw [← hanswered] at hstands hkept hposted
  refine ⟨hstands, ?_, ?_⟩
  · unfold reply?
    rw [hkept, hreplies, List.lookup_cons_self]
  · unfold slot
    rw [hposted, List.lookup_cons_self]

end Stands

end ModemLink.Engine
