/-
After the loss of the link.

The first read that fails for good ends all reading and lets the waiter go. From then on an engine only
answers what it is asked: nothing is written to the link and nothing fed to the receive path, so what was
counted, what was resolved and what was announced stay as they are. That the link may come up again makes
no difference.

`Frozen` says what can have changed since, one step can change no more than that, and so can any number of
steps. `Attended` says what it is for a request to be answered all the same.
-/
import Mathlib.Data.List.Induction
import ModemLink.Proofs.Engine.Waiting

set_option autoImplicit false

namespace ModemLink

/-! ## A receive path that is only managed -/

namespace Receiver

variable {ε : Type} {r r' r'' : Receiver ε}

/-- **Only managed.** Nothing was fed to a receive path meanwhile, and no request begun. -/
inductive Managed (r : Receiver ε) : Receiver ε → Prop where
  | refl : Managed r r
  | cancel {r' : Receiver ε} (h : Managed r r') (number : Nat) : Managed r (r'.cancel number).2
  | setTerminators {r' r'' : Receiver ε} (h : Managed r r') (t : Terminators)
    (hset : r'.setTerminators t = .ok r'') : Managed r r''

namespace Managed

theorem trans (h : r.Managed r') (h' : r'.Managed r'') : r.Managed r'' := by
  induction h' with
  | refl => exact h
  | cancel _ number ih => exact .cancel ih number
  | setTerminators _ t hset ih => exact .setTerminators ih t hset

/-- **Managing counts nothing.** -/
theorem stats_eq (h : r.Managed r') : r'.stats = r.stats := by
  induction h with
  | refl => rfl
  | cancel _ number ih => exact ih
  | setTerminators _ t hset ih =>
    unfold Receiver.setTerminators at hset
    split at hset
    · cases hset
    · cases hset
      exact ih

end Managed

end Receiver

namespace Engine

variable {τ ε : Type}

/-! ## Serving without a link -/

/-- What serving a request comes to once reading has ended. -/
def answerLost (request : Request) (e : Engine τ ε) : Engine τ ε :=
  match request with
  | .transmit ticket _ => e.answerTransmit ticket (.error .connectionLost)
  | .cancel number => e.cancel number
  | .configure ticket t => (e.configure t).2.post ticket (.configured (e.configure t).1)
  | .setPollStep step => { e with pollStep := step }
  | .stats ticket => e.post ticket (.stats e.receiver.stats)
  | .shutdown ticket => (e.post ticket .stopped).stop

/-- **An engine that has lost its link** serves without it. -/
theorem serve_lost [Transport τ] {e : Engine τ ε} (hlost : e.connected = false) (now : Nat)
    (request : Request) : e.serve now request = e.answerLost request := by
  cases request with
  | transmit ticket command =>
    unfold serve
    rw [hlost]
    rfl
  | _ => rfl

theorem serveNext_lost [Transport τ] {e : Engine τ ε} (hlost : e.connected = false) (now : Nat)
    {r : Request} {rest : List Request} (hrequests : e.requests = r :: rest) :
    e.serveNext now = { e with requests := rest }.answerLost r := by
  have hstill : connected { e with requests := rest } = false := hlost
  unfold serveNext
  rw [hrequests]
  exact serve_lost hstill now r

/-- **A request is attended to.** A command is answered with the loss, if anybody still waits for the
answer. Everything else goes as it always does, and ending the engine leaves the link as it is. -/
def Attended (e e' : Engine τ ε) : Request → Prop
  | .transmit ticket _ => ticket ∉ e.abandoned →
      e'.reply? ticket = some (.transmitted (.error .connectionLost))
  | .cancel number => e'.receiver = (e.receiver.cancel number).2
  | .configure ticket t => e'.reply? ticket = some (.configured (e.configure t).1)
      ∧ e'.receiver = (e.configure t).2.receiver
  | .setPollStep step => e'.pollStep = step
  | .stats ticket => e'.reply? ticket = some (.stats e.receiver.stats)
  | .shutdown ticket => e'.reply? ticket = some .stopped ∧ e'.running = false
      ∧ e'.transport = e.transport

/-- **Without a link, too,** the oldest request is attended to. -/
theorem serveNext_attended [Transport τ] {e : Engine τ ε} (hlost : e.connected = false) (now : Nat)
    {r : Request} {rest : List Request} (hrequests : e.requests = r :: rest) :
    e.Attended (e.serveNext now) r := by
  rw [serveNext_lost hlost now hrequests]
  cases r with
  | transmit ticket command =>
    intro hkept
    simp only [answerLost, answerTransmit, if_neg hkept]
    exact List.lookup_cons_self
  | cancel number => rfl
  | configure ticket t =>
    simp only [Attended, answerLost, configure]
    rcases e.receiver.setTerminators t with err | receiver
    · exact ⟨List.lookup_cons_self, rfl⟩
    · exact ⟨List.lookup_cons_self, rfl⟩
  | setPollStep step => rfl
  | stats ticket => exact List.lookup_cons_self
  | shutdown ticket => exact ⟨List.lookup_cons_self, rfl, rfl⟩

/-- Unless a request ends the engine, those behind it keep their places. -/
theorem answerLost_keeps (request : Request) (e : Engine τ ε)
    (hstop : ∀ ticket, request ≠ .shutdown ticket) :
    (e.answerLost request).requests = e.requests ∧ (e.answerLost request).connected = e.connected
      ∧ (e.answerLost request).abandoned = e.abandoned := by
  cases request with
  | transmit ticket command =>
    simp only [answerLost, answerTransmit]
    split <;> exact ⟨rfl, rfl, rfl⟩
  | configure ticket t =>
    simp only [answerLost, configure]
    split <;> exact ⟨rfl, rfl, rfl⟩
  | shutdown ticket => exact absurd rfl (hstop ticket)
  | _ => exact ⟨rfl, rfl, rfl⟩

/-- **Requests take their turns.** After as many as stand before it, a request is the next one. -/
theorem repeat_serveNext_lost [Transport τ] {e : Engine τ ε} (hlost : e.connected = false) (now : Nat)
    {before after : List Request} (hrequests : e.requests = before ++ after)
    (hstop : ∀ ticket, .shutdown ticket ∉ before) :
    let e' := before.length.repeat (serveNext now) e
    e'.requests = after ∧ e'.connected = false ∧ e'.abandoned = e.abandoned := by
  induction before using List.reverseRecOn generalizing after with
  | nil => exact ⟨hrequests, hlost, rfl⟩
  | append_singleton before r ih =>
    rw [List.append_assoc] at hrequests
    obtain ⟨hnext, hconnected, habandoned⟩ :=
      ih hrequests fun ticket hmem => hstop ticket (List.mem_append_left _ hmem)
    rw [List.length_append, List.length_singleton, Nat.repeat]
    generalize before.length.repeat (serveNext now) e = e' at hnext hconnected habandoned ⊢
    have hkeeps := answerLost_keeps r { e' with requests := after } fun ticket hr =>
      hstop ticket (hr ▸ List.mem_append_right _ (List.mem_singleton_self r))
    rw [serveNext_lost hconnected now hnext]
    exact ⟨hkeeps.1, hkeeps.2.1.trans hconnected, hkeeps.2.2.trans habandoned⟩

/-- An engine that has lost its link reads nothing. -/
theorem drain_lost [Transport τ] {e : Engine τ ε} (hlost : e.connected = false) (now n : Nat) :
    e.drain now n = e := by
  cases n with
  | zero => rfl
  | succ n =>
    unfold drain
    rw [hlost, Bool.and_false]
    rfl

/-! ## What stays as it is -/

/-- The link after an action: an engine that does not read leaves it alone. -/
def Action.linkAfter (link : τ) : Action τ ε → τ
  | .link link' => link'
  | _ => link

/-- The event queue after an action of somebody else. -/
def Action.eventsAfter (q : Queue (Notification ε)) : Action τ ε → Queue (Notification ε)
  | .events q' => q'
  | _ => q

/-- Replies were posted, and no command was answered with anything but the loss. -/
def OnlyLosses (old new : List (Nat × Reply)) : Prop :=
  ∃ posted, new = posted ++ old
    ∧ ∀ ticket outcome, (ticket, Reply.transmitted outcome) ∈ posted → outcome = .error .connectionLost

namespace OnlyLosses

variable {a b c : List (Nat × Reply)}

theorem refl (a : List (Nat × Reply)) : OnlyLosses a a := ⟨[], rfl, nofun⟩

theorem trans (h : OnlyLosses a b) (h' : OnlyLosses b c) : OnlyLosses a c := by
  obtain ⟨posted, rfl, hposted⟩ := h
  obtain ⟨posted', rfl, hposted'⟩ := h'
  refine ⟨posted' ++ posted, (List.append_assoc ..).symm, fun ticket outcome hmem => ?_⟩
  rcases List.mem_append.mp hmem with hmem | hmem
  · exact hposted' ticket outcome hmem
  · exact hposted ticket outcome hmem

theorem post (ticket : Nat) (reply : Reply)
    (h : ∀ outcome, reply = .transmitted outcome → outcome = .error .connectionLost) :
    OnlyLosses a ((ticket, reply) :: a) := by
  refine ⟨[(ticket, reply)], rfl, fun ticket' outcome hmem => ?_⟩
  exact h outcome (congrArg Prod.snd (List.mem_singleton.mp hmem)).symm

end OnlyLosses

namespace Run

/-- **Frozen.** What can have changed in a run whose engine has lost its link, while all these actions
went on. -/
structure Frozen (actions : List (Action τ ε)) (run run' : Run τ ε) : Prop where
  /-- reading does not begin again -/
  connected : run'.engine.connected = false
  /-- nobody waits -/
  waiter : run'.engine.waiter = none
  /-- nothing was written to the link -/
  transport_eq : run'.engine.transport = actions.foldl Action.linkAfter run.engine.transport
  /-- no event was announced -/
  events_eq : run'.engine.events = actions.foldl Action.eventsAfter run.engine.events
  /-- nothing was fed, and no request begun -/
  managed : run.engine.receiver.Managed run'.engine.receiver
  /-- nothing was resolved -/
  produced_eq : run'.produced = run.produced
  /-- and nothing sent to anybody -/
  sent_perm : run'.sent.Perm run.sent
  /-- what was sent before stands until it is collected -/
  lookup_eq (ticket : Nat) : .collect ticket ∉ actions →
    run'.engine.resolutions.lookup ticket = run.engine.resolutions.lookup ticket
  /-- every command was answered with the loss -/
  replies : OnlyLosses run.engine.replies run'.engine.replies

namespace Frozen

variable {run run' run'' : Run τ ε} {a b : List (Action τ ε)}

theorem trans (h : Frozen a run run') (h' : Frozen b run' run'') : Frozen (a ++ b) run run'' where
  connected := h'.connected
  waiter := h'.waiter
  transport_eq := by rw [h'.transport_eq, h.transport_eq, List.foldl_append]
  events_eq := by rw [h'.events_eq, h.events_eq, List.foldl_append]
  managed := h.managed.trans h'.managed
  produced_eq := h'.produced_eq.trans h.produced_eq
  sent_perm := h'.sent_perm.trans h.sent_perm
  lookup_eq ticket hmem := by
    rw [List.mem_append, not_or] at hmem
    exact (h'.lookup_eq ticket hmem.2).trans (h.lookup_eq ticket hmem.1)
  replies := h.replies.trans h'.replies

end Frozen

variable {run : Run τ ε}

/-- Nothing happens. -/
theorem frozen_refl (hconnected : run.engine.connected = false) (hwaiter : run.engine.waiter = none) :
    Frozen [] run run :=
  ⟨hconnected, hwaiter, rfl, rfl, .refl, rfl, .refl _, fun _ _ => rfl, .refl _⟩

/-- Collecting under a ticket takes away what stands under it, and nothing else. -/
theorem lookup_filter_of_ne (l : List (Nat × Resolved)) {ticket k : Nat} (h : ticket ≠ k) :
    (l.filter (·.1 != k)).lookup ticket = l.lookup ticket := by
  induction l with
  | nil => rfl
  | cons x l ih =>
    obtain ⟨j, r⟩ := x
    by_cases hj : j = k
    · rw [List.filter_cons_of_neg (by simp [hj]), ih, List.lookup_cons, hj, beq_false_of_ne h]
    · rw [List.filter_cons_of_pos (by simp [hj]), List.lookup_cons, List.lookup_cons, ih]

/-- **A request that is served** changes nothing that is frozen. -/
theorem answerLost_frozen (hconnected : run.engine.connected = false)
    (hwaiter : run.engine.waiter = none) (now : Nat) (rest : List Request) (r : Request) :
    Frozen [.serve now] run
      { run with engine := { run.engine with requests := rest }.answerLost r } := by
  cases r with
  | transmit ticket command =>
    simp only [answerLost, answerTransmit]
    split
    · exact ⟨hconnected, hwaiter, rfl, rfl, .refl, rfl, .refl _, fun _ _ => rfl, .refl _⟩
    · refine ⟨hconnected, hwaiter, rfl, rfl, .refl, rfl, .refl _, fun _ _ => rfl, ?_⟩
      exact .post ticket _ fun outcome houtcome => (Reply.transmitted.inj houtcome).symm
  | cancel number =>
    refine ⟨hconnected, ?_, rfl, rfl, .cancel .refl number, rfl, .refl _, fun _ _ => rfl, .refl _⟩
    show run.engine.waiter.filter _ = none
    rw [hwaiter]
    rfl
  | configure ticket t =>
    simp only [answerLost, configure]
    rcases hset : run.engine.receiver.setTerminators t with err | receiver
    · exact ⟨hconnected, hwaiter, rfl, rfl, .refl, rfl, .refl _, fun _ _ => rfl,
        .post _ _ fun _ h => by cases h⟩
    · exact ⟨hconnected, hwaiter, rfl, rfl, .setTerminators .refl t hset, rfl, .refl _,
        fun _ _ => rfl, .post _ _ fun _ h => by cases h⟩
  | setPollStep step =>
    exact ⟨hconnected, hwaiter, rfl, rfl, .refl, rfl, .refl _, fun _ _ => rfl, .refl _⟩
  | stats ticket =>
    exact ⟨hconnected, hwaiter, rfl, rfl, .refl, rfl, .refl _, fun _ _ => rfl,
      .post _ _ fun _ h => by cases h⟩
  | shutdown ticket =>
    exact ⟨hconnected, rfl, rfl, rfl, .refl, rfl, .refl _, fun _ _ => rfl,
      .post _ _ fun _ h => by cases h⟩

variable [Transport τ]

/-- **Whatever happens,** what is frozen stays. -/
theorem step_frozen (hconnected : run.engine.connected = false) (hwaiter : run.engine.waiter = none)
    (action : Action τ ε) : Frozen [action] run (run.step action) := by
  cases action with
  | cancel number =>
    simp only [step, submitCancel]
    split <;> exact ⟨hconnected, hwaiter, rfl, rfl, .refl, rfl, .refl _, fun _ _ => rfl, .refl _⟩
  | collect ticket =>
    refine ⟨hconnected, hwaiter, rfl, rfl, .refl, rfl, sent_collect run ticket, fun k hk => ?_, .refl _⟩
    refine lookup_filter_of_ne _ fun hsame => hk ?_
    rw [hsame]
    exact List.mem_singleton_self _
  | stop =>
    exact ⟨hconnected, rfl, rfl, rfl, .refl, rfl, .refl _, fun _ _ => rfl, .refl _⟩
  | serve now =>
    cases hrequests : run.engine.requests with
    | nil =>
      simp only [step, serveNext, hrequests]
      exact ⟨hconnected, hwaiter, rfl, rfl, .refl, rfl, .refl _, fun _ _ => rfl, .refl _⟩
    | cons r rest =>
      simp only [step, serveNext_lost hconnected now hrequests]
      exact answerLost_frozen hconnected hwaiter now rest r
  | read now outcome =>
    -- nothing is read any more
    have hdead : ¬ run.engine.live = true := by
      unfold live
      rw [hconnected, Bool.and_false]
      exact Bool.false_ne_true
    simp only [step, if_neg hdead]
    exact ⟨hconnected, hwaiter, rfl, rfl, .refl, rfl, .refl _, fun _ _ => rfl, .refl _⟩
  | _ => exact ⟨hconnected, hwaiter, rfl, rfl, .refl, rfl, .refl _, fun _ _ => rfl, .refl _⟩

/-- **And it stays for good.** -/
theorem foldl_step_frozen (hconnected : run.engine.connected = false)
    (hwaiter : run.engine.waiter = none) (actions : List (Action τ ε)) :
    Frozen actions run (actions.foldl step run) := by
  induction actions generalizing run with
  | nil => exact frozen_refl hconnected hwaiter
  | cons action actions ih =>
    have hstep := step_frozen hconnected hwaiter action
    exact hstep.trans (ih hstep.connected hstep.waiter)

omit [Transport τ]

/-! ## Where a resolution stands afterwards -/

theorem queued_eq_true_iff {e : Engine τ ε} {ticket : Nat} :
    e.queued ticket = true ↔ ticket ∈ e.requests.filterMap commandTicket? := by
  unfold queued
  rw [List.any_eq_true, List.mem_filterMap]
  refine exists_congr fun r => and_congr_right fun _ => ?_
  cases r with
  | transmit t command => exact beq_iff_eq.trans (Option.some_inj).symm
  | _ => exact iff_of_false Bool.false_ne_true nofun

/-- **A request that was not resolved never is.** Its ticket was answered, so no command in the queue has
it, and nobody waits. -/
theorem slot_closed (hsound : run.books.Sound) (hwaiter : run.engine.waiter = none) {ticket number : Nat}
    (hgiven : (ticket, .transmitted (.ok number)) ∈ run.engine.replies)
    (hunsent : ticket ∉ run.sent.map Prod.fst) : run.engine.slot ticket = .closed := by
  have hlookup : run.engine.resolutions.lookup ticket = none := by
    rw [List.lookup_eq_none_iff]
    intro x hx
    rw [bne_iff_ne]
    rintro rfl
    exact hunsent (List.mem_map_of_mem (List.mem_append_left _ hx))
  have hqueued : run.engine.queued ticket = false := by
    rw [Bool.eq_false_iff]
    intro hqueued
    have htickets := (List.nodup_append.mp hsound.tickets.nodup).2.2
    have hanswered : (ticket, number) ∈ run.books.given := mem_given.mpr hgiven
    exact htickets ticket (List.mem_map_of_mem hanswered) ticket (queued_eq_true_iff.mp hqueued) rfl
  unfold slot
  rw [hlookup, hqueued, hwaiter]
  rfl

/-! ## All of it -/

variable [Transport τ]

/-- **After the loss,** and after all these actions. -/
structure AfterLoss (lost : Run τ ε) (actions : List (Action τ ε)) (run : Run τ ε) : Prop where
  frozen : Frozen actions lost run
  stats_eq : run.engine.receiver.stats = lost.engine.receiver.stats
  /-- all that an engine does by itself is to serve what it was asked for -/
  run_eq (now : Nat) :
    run.engine.run now = run.engine.requests.length.repeat (serveNext now) run.engine
  /-- each request has its turn, unless one before it ends the engine, and is attended to -/
  attended (now : Nat) (before after : List Request) (r : Request) :
    run.engine.requests = before ++ r :: after → (∀ ticket, .shutdown ticket ∉ before) →
    let e := before.length.repeat (serveNext now) run.engine
    e.requests = r :: after ∧ e.abandoned = run.engine.abandoned ∧ e.Attended (e.serveNext now) r
  /-- a command that was answered with its number, and was not resolved before the loss, never is -/
  closed (ticket number : Nat) : (ticket, .transmitted (.ok number)) ∈ lost.engine.replies →
    ticket ∉ lost.sent.map Prod.fst → run.engine.slot ticket = .closed
  /-- a resolution that stood when the link was lost stands until it is collected -/
  delivered (ticket : Nat) (r : Resolved) : lost.engine.slot ticket = .delivered r →
    .collect ticket ∉ actions → run.engine.slot ticket = .delivered r

/-- The first read that fails for good ends reading and lets the waiter go. -/
theorem step_read_error {run : Run τ ε} (hlive : run.engine.live = true) (now : Nat) {err : Error}
    (herr : err ≠ .timeout) :
    run.step (.read now (.error err))
      = { run with engine := { run.engine with connected := false, waiter := none } } := by
  have hreceived : run.engine.received now (.error err)
      = { run.engine with connected := false, waiter := none } := by
    cases err with
    | timeout => exact absurd rfl herr
    | _ => rfl
  simp only [step, if_pos hlive, hreceived, List.append_nil]

/-- A run that has lost its link, and all that can follow. -/
theorem afterLoss_foldl {lost : Run τ ε} (hsound : lost.books.Sound)
    (hconnected : lost.engine.connected = false) (hwaiter : lost.engine.waiter = none)
    (actions : List (Action τ ε)) : AfterLoss lost actions (actions.foldl step lost) := by
  have hfrozen := foldl_step_frozen hconnected hwaiter actions
  have hafter := foldl_step_sound lost actions hsound
  generalize actions.foldl step lost = run at hfrozen hafter
  refine ⟨hfrozen, hfrozen.managed.stats_eq, fun now => ?_, fun now before after r hrequests hstop => ?_,
    fun ticket number hgiven hunsent => ?_, fun ticket r hslot hcollect => ?_⟩
  · -- serving does not bring the link back
    have hserved := foldl_step_frozen hfrozen.connected hfrozen.waiter
      (List.replicate run.engine.requests.length (.serve now))
    have hlost := hserved.connected
    rw [repeat_serveNext] at hlost
    exact drain_lost hlost now _
  · intro e
    obtain ⟨hnext, hlost, habandoned⟩ := repeat_serveNext_lost hfrozen.connected now hrequests hstop
    exact ⟨hnext, habandoned, serveNext_attended hlost now hnext⟩
  · obtain ⟨posted, hreplies, -⟩ := hfrozen.replies
    have hstill : (ticket, .transmitted (.ok number)) ∈ run.engine.replies := by
      rw [hreplies]
      exact List.mem_append_right _ hgiven
    exact slot_closed hafter hfrozen.waiter hstill fun hmem =>
      hunsent ((hfrozen.sent_perm.map Prod.fst).mem_iff.mp hmem)
  · have hstood := slot_eq_delivered_iff.mp hslot
    exact slot_eq_delivered_iff.mpr ((hfrozen.lookup_eq ticket hcollect).trans hstood)

/-- **From the first read that fails for good on,** whatever goes on. -/
theorem afterLoss (config : Config) (table : EventTable ε) (link : τ) (actions : List (Action τ ε))
    (now : Nat) {err : Error} (hlive : (of config table link actions).engine.live = true)
    (herr : err ≠ .timeout) (more : List (Action τ ε)) :
    let lost := (of config table link actions).step (.read now (.error err))
    AfterLoss lost more (more.foldl step lost) := by
  intro lost
  have hread := step_read_error hlive now herr
  have hsound := foldl_step_sound _ [.read now (.error err)] (sound config table link actions)
  refine afterLoss_foldl hsound ?_ ?_ more
  · exact congrArg (fun run : Run τ ε => run.engine.connected) hread
  · exact congrArg (fun run : Run τ ε => run.engine.waiter) hread

end Run

end Engine

end ModemLink
