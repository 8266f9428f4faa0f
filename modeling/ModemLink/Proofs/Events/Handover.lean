/-
Every event that the queue accepts is handed over once, in the order in which it came.

What `Subscribers` says in one go is here taken apart. Its consumer that holds the queue takes a step in
two polls of the line behind a session, and whoever registers a callback, removes it or asks for the next
event does the same in both. So a session on its clock runs like the line, in one of its many orders, and
what holds of the line in every order holds of the session.
-/
import ModemLink.Proofs.Engine.Notices
import ModemLink.Proofs.Events.Relay
import ModemLink.Proofs.Session.Course

set_option autoImplicit false

namespace ModemLink

/-! ## Events one after the other -/

namespace Queue

variable {α : Type}

/-- What is offered one after the other. -/
def offerAll (items : List α) (q : Queue α) : Queue α := items.foldl (fun q a => (q.offer a).2) q

/-- How many of them are accepted. -/
def kept : List α → Queue α → Nat
  | [], _ => 0
  | a :: more, q => (if (q.offer a).1 = .accepted then 1 else 0) + (q.offer a).2.kept more

theorem offerAll_append (a b : List α) (q : Queue α) :
    q.offerAll (a ++ b) = (q.offerAll a).offerAll b :=
  List.foldl_append

theorem kept_append (a b : List α) (q : Queue α) :
    q.kept (a ++ b) = q.kept a + (q.offerAll a).kept b := by
  induction a generalizing q with
  | nil => exact (Nat.zero_add _).symm
  | cons item a ih =>
    rw [List.cons_append, kept, kept, ih, Nat.add_assoc]
    rfl

theorem isOpen_offerAll (items : List α) (q : Queue α) : (q.offerAll items).isOpen = q.isOpen := by
  induction items generalizing q with
  | nil => rfl
  | cons a items ih =>
    have hoffer : (q.offer a).2.isOpen = q.isOpen := by
      unfold offer
      split
      · rfl
      · split <;> rfl
    exact (ih _).trans hoffer

theorem isOpen_of_take? {q q' : Queue α} {a : α} (h : q.take? = some (a, q')) :
    q'.isOpen = q.isOpen := by
  unfold take? at h
  split at h <;> cases h
  rfl

/-- A queue that is full stays as it is. -/
theorem offer_of_full {a : α} {q q' : Queue α} (h : q.offer a = (.full, q')) : q' = q := by
  unfold offer at h
  split at h
  · cases h
  · split at h <;> cases h
    rfl

end Queue

/-! ## A step of the first consumer -/

namespace Subscribers

variable {ε : Type}

/-- What a step of the first consumer does to the consumers and to the queue, and whom it calls. -/
def turn (ended : Bool) (q : Queue (Notification ε)) :
    List Consumer → List Consumer × Queue (Notification ε) × Option (Invocation ε)
  | [] => ([], q, none)
  | c :: rest =>
    if c.cancelled then (rest, q, none)
    else
      match q.take? with
      | some (n, q) => (c :: rest, q, some ⟨c.callback, n⟩)
      | none => (if ended then rest else c :: rest, q, none)

variable (ended : Bool) {q q' : Queue (Notification ε)} {c : Consumer} {rest : List Consumer}

theorem turn_of_cancelled (h : c.cancelled = true) : turn ended q (c :: rest) = (rest, q, none) :=
  if_pos h

theorem turn_of_empty (h : c.cancelled = false) (htake : q.take? = none) :
    turn ended q (c :: rest) = (if ended then rest else c :: rest, q, none) := by
  simp only [turn, h, Bool.false_eq_true, if_false, htake]

theorem turn_of_event (h : c.cancelled = false) {n : Notification ε}
    (htake : q.take? = some (n, q')) :
    turn ended q (c :: rest) = (c :: rest, q', some ⟨c.callback, n⟩) := by
  simp only [turn, h, Bool.false_eq_true, if_false, htake]

theorem step_eq (q : Queue (Notification ε)) (s : Subscribers ε) :
    s.step ended q = ((turn ended q s.chain).2.1, { s with
      chain := (turn ended q s.chain).1
      invocations := s.invocations ++ (turn ended q s.chain).2.2.toList }) := by
  obtain ⟨chain, registered, callbacks, invocations⟩ := s
  rcases chain with - | ⟨c, rest⟩
  · simp only [step, turn, Option.toList_none, List.append_nil]
  · rcases hcancelled : c.cancelled with - | -
    · rcases htake : q.take? with - | ⟨n, q'⟩
      · rw [turn_of_empty ended hcancelled htake]
        simp only [step, hcancelled, htake, Bool.false_eq_true, if_false, Option.toList_none,
          List.append_nil]
        cases ended <;> rfl
      · rw [turn_of_event ended hcancelled htake]
        simp only [step, hcancelled, htake, Bool.false_eq_true, if_false, Option.toList_some]
    · rw [turn_of_cancelled ended hcancelled]
      simp only [step, hcancelled, if_true, Option.toList_none, List.append_nil]

/-- Only the first consumer takes part. -/
theorem turn_append (q : Queue (Notification ε)) {chain : List Consumer}
    (h : chain ≠ []) (c : Consumer) :
    turn ended q (chain ++ [c])
      = ((turn ended q chain).1 ++ [c], (turn ended q chain).2) := by
  cases chain with
  | nil => exact absurd rfl h
  | cons first rest =>
    simp only [turn, List.cons_append]
    split
    · rfl
    · split
      · rfl
      · split <;> rfl

end Subscribers

namespace Holder

variable {ε : Type}

/-- Two polls of the first consumer in line. -/
def twice (closed : Bool) (h : Holder ε) : Holder ε × List (Invocation ε) :=
  let place := h.chain.length - 1
  let (h, call) := h.poll closed place
  let (h, call') := h.poll closed place
  (h, call.toList ++ call'.toList)

theorem poll_starting (closed : Bool) (place : Nat) (c : Consumer) (previous : Holder ε) :
    (starting c previous).poll closed (place + 1)
      = (.starting c (previous.poll closed place).1, (previous.poll closed place).2) := rfl

theorem twice_starting (closed : Bool) (c : Consumer) {previous : Holder ε}
    (h : previous.chain ≠ []) :
    (starting c previous).twice closed
      = (.starting c (previous.twice closed).1, (previous.twice closed).2) := by
  have hplace : (starting c previous).chain.length - 1 = (previous.chain.length - 1) + 1 := by
    have hpos := List.length_pos_of_ne_nil h
    rw [chain, List.length_append, List.length_singleton]
    omega
  simp only [twice, hplace, poll_starting]

/-- What a consumer does that has the queue. -/
theorem look_eq (closed : Bool) (c : Consumer) (q : Queue (Notification ε)) :
    ((look closed c q).1.chain, (look closed c q).1.queue?, (look closed c q).2.toList)
      = ((Subscribers.turn closed q [c]).1, some (Subscribers.turn closed q [c]).2.1,
        (Subscribers.turn closed q [c]).2.2.toList) := by
  rcases hcancelled : c.cancelled with - | -
  · rcases htake : q.take? with - | ⟨n, q'⟩
    · rw [Subscribers.turn_of_empty closed hcancelled htake]
      simp only [look, hcancelled, htake, Bool.false_eq_true, if_false]
      cases closed <;> rfl
    · rw [Subscribers.turn_of_event closed hcancelled htake]
      simp only [look, hcancelled, htake, Bool.false_eq_true, if_false]
      rfl
  · rw [Subscribers.turn_of_cancelled closed hcancelled]
    simp only [look, hcancelled, if_true]
    rfl

/-- Once it has looked, there is nothing more to it: it is back from its callback, it has ended, or it
looks in vain again. -/
theorem poll_look (closed : Bool) (c : Consumer) (q : Queue (Notification ε)) :
    ((look closed c q).1.poll closed 0).1.chain = (look closed c q).1.chain
      ∧ ((look closed c q).1.poll closed 0).1.queue? = (look closed c q).1.queue?
      ∧ ((look closed c q).1.poll closed 0).2 = none := by
  rcases hcancelled : c.cancelled with - | -
  · rcases htake : q.take? with - | ⟨n, q'⟩
    · have hlook : look closed c q = (if closed then .ended c (some q) else .reading c q, none) := by
        simp only [look, hcancelled, htake, Bool.false_eq_true, if_false]
      cases closed with
      | true =>
        rw [hlook]
        exact ⟨rfl, rfl, rfl⟩
      | false =>
        have hagain : (reading c q).poll false 0 = (.reading c q, none) := hlook
        rw [hlook]
        simp only [Bool.false_eq_true, if_false, hagain, and_self]
    · have hlook : look closed c q = (.calling c q' n, some ⟨c.callback, n⟩) := by
        simp only [look, hcancelled, htake, Bool.false_eq_true, if_false]
      rw [hlook]
      exact ⟨rfl, rfl, rfl⟩
  · have hlook : look closed c q = (.ended c (some q), none) := if_pos hcancelled
    rw [hlook]
    exact ⟨rfl, rfl, rfl⟩

/-- **Two polls of the first consumer are one step of it.** -/
theorem twice_eq (closed : Bool) (h : Holder ε) {q : Queue (Notification ε)}
    (hq : h.queue? = some q) :
    ((h.twice closed).1.chain, (h.twice closed).1.queue?, (h.twice closed).2)
      = ((Subscribers.turn closed q h.chain).1, some (Subscribers.turn closed q h.chain).2.1,
        (Subscribers.turn closed q h.chain).2.2.toList) := by
  induction h with
  | nobody => cases hq
  | free p =>
    obtain rfl : p = q := Option.some.inj hq
    rfl
  | ended c left =>
    obtain rfl : left = some q := hq
    rfl
  | reading c p =>
    obtain rfl : p = q := Option.some.inj hq
    obtain ⟨hchain, hqueue, hcall⟩ := poll_look closed c p
    have htwice : (reading c p).twice closed
        = (((look closed c p).1.poll closed 0).1, (look closed c p).2.toList) := by
      rw [← List.append_nil (look closed c p).2.toList, ← Option.toList_none, ← hcall]
      rfl
    rw [htwice, hchain, hqueue]
    exact look_eq closed c p
  | calling c p n =>
    obtain rfl : p = q := Option.some.inj hq
    exact look_eq closed c p
  | starting c previous ih =>
    by_cases hnone : previous.chain = []
    · -- the one before has ended, or there was none, so this one is the first
      have hstarted : (starting c previous).twice closed
          = ((look closed c q).1, (look closed c q).2.toList) := by
        have hplace : (starting c previous).chain.length - 1 = 0 := by
          rw [chain, hnone]
          rfl
        have hstart : start c previous = .reading c q := by
          cases previous with
          | nobody => cases hq
          | free p =>
            cases hq
            rfl
          | ended c' left =>
            obtain rfl : left = some q := hq
            rfl
          | starting c' p => exact absurd hnone (List.append_ne_nil_of_right_ne_nil _ (List.cons_ne_nil _ _))
          | reading c' p => cases hnone
          | calling c' p n => cases hnone
        have hfirst : (starting c previous).poll closed 0 = (.reading c q, none) :=
          congrArg (·, none) hstart
        unfold twice
        simp only [hplace, hfirst]
        rfl
      rw [hstarted, chain, hnone]
      exact look_eq closed c q
    · have hrest := ih hq
      have hturn := Subscribers.turn_append closed q hnone c
      rw [twice_starting closed c hnone]
      show ((previous.twice closed).1.chain ++ [c], (previous.twice closed).1.queue?,
        (previous.twice closed).2) = _
      rw [chain, hturn]
      simp only [Prod.mk.injEq] at hrest ⊢
      exact ⟨congrArg (· ++ [c]) hrest.1, hrest.2⟩

end Holder

/-! ## The line behind a session -/

/-- An event that a callback was called with. -/
def Invocation.handed {ε : Type} (call : Invocation ε) : Handed ε :=
  ⟨some call.callback, call.notification⟩

namespace Handed

variable {ε : Type}

theorem invocations_handed (calls : List (Invocation ε)) :
    (calls.map Invocation.handed).filterMap invocation? = calls := by
  rw [List.filterMap_map]
  exact List.filterMap_some

theorem asked_handed (calls : List (Invocation ε)) :
    (calls.map Invocation.handed).filterMap asked? = [] := by
  rw [List.filterMap_map]
  exact List.filterMap_eq_nil_iff.mpr fun _ _ => rfl

end Handed

namespace Relay

variable {ε : Type}

/-- The line as a session keeps it: the consumers in a list, and what they did. -/
def subscribers (s : Relay ε) : Subscribers ε where
  chain := s.events.chain
  registered := s.registered.isSome
  callbacks := s.callbacks
  invocations := s.handed.filterMap Handed.invocation?

/-- The line stands as a session's queue and its consumers do, so many events were accepted, and these
ones were given to whoever asked for the next. -/
structure Behind (s : Relay ε) (q : Queue (Notification ε)) (subscribers : Subscribers ε)
    (accepted : Nat) (asked : List (Notification ε)) : Prop where
  sound : s.Sound
  queue_eq : s.events.queue? = some q
  subscribers_eq : s.subscribers = subscribers
  accepted_eq : s.accepted.length = accepted
  asked_eq : s.handed.filterMap Handed.asked? = asked

/-- The line can get there. -/
def Reaches (s : Relay ε) (q : Queue (Notification ε)) (subscribers : Subscribers ε) (accepted : Nat)
    (asked : List (Notification ε)) : Prop :=
  ∃ acts : List (Act ε), (acts.foldl step s).Behind q subscribers accepted asked

variable {s : Relay ε} {q q' : Queue (Notification ε)} {subs subs' : Subscribers ε}
  {accepted accepted' : Nat} {asked asked' : List (Notification ε)}

theorem Behind.reaches (h : s.Behind q subs accepted asked) : s.Reaches q subs accepted asked :=
  ⟨[], h⟩

theorem Reaches.trans (h : s.Reaches q subs accepted asked)
    (h' : ∀ s' : Relay ε, s'.Behind q subs accepted asked → s'.Reaches q' subs' accepted' asked') :
    s.Reaches q' subs' accepted' asked' := by
  obtain ⟨acts, hacts⟩ := h
  obtain ⟨more, hmore⟩ := h' _ hacts
  refine ⟨acts ++ more, ?_⟩
  rw [foldl_step_append]
  exact hmore

namespace Behind

theorem offer (h : s.Behind q subs accepted asked) (n : Notification ε) :
    (s.offer n).Behind (q.offer n).2 subs (accepted + q.kept [n]) asked := by
  have hsound := h.sound.offer n
  unfold Relay.offer at hsound ⊢
  rw [h.queue_eq] at hsound ⊢
  refine ⟨hsound, ?_, ?_, ?_, h.asked_eq⟩
  · rw [Holder.queue?_onQueue, h.queue_eq]
    rfl
  · rw [← h.subscribers_eq]
    unfold subscribers
    rw [Holder.chain_onQueue]
  · rw [← h.accepted_eq]
    unfold Queue.kept
    by_cases hroom : (q.offer n).1 = .accepted
    · simp only [if_pos hroom]
      exact List.length_append
    · simp only [if_neg hroom]
      rfl

theorem register (h : s.Behind q subs accepted asked) :
    s.register.Behind q subs.register accepted asked := by
  refine ⟨h.sound.register, (queue?_released s).trans h.queue_eq, ?_, h.accepted_eq, h.asked_eq⟩
  rw [← h.subscribers_eq]
  unfold subscribers Relay.register Subscribers.register
  rw [Holder.chain, h.sound.chain_released]
  rfl

theorem clear (h : s.Behind q subs accepted asked) :
    s.clear.Behind q subs.clear accepted asked := by
  refine ⟨h.sound.clear, (queue?_released s).trans h.queue_eq, ?_, h.accepted_eq, h.asked_eq⟩
  rw [← h.subscribers_eq]
  unfold subscribers Relay.clear Subscribers.clear
  rw [h.sound.chain_released]
  rfl

theorem next (h : s.Behind q subs accepted asked) (closed : Bool) :
    (s.next closed).2.Behind (subs.next closed q).2 subs accepted
      (asked ++ (subs.next closed q).1.asked) := by
  have hsound := h.sound.next closed
  obtain ⟨-, hq, rfl, haccepted, rfl⟩ := h
  rw [next_eq hq] at hsound ⊢
  unfold Subscribers.next
  have hregistered : s.subscribers.registered = s.registered.isSome := rfl
  have hchain : s.subscribers.chain = s.events.chain := rfl
  rw [hregistered, hchain]
  split
  · rename_i hsome
    rw [if_pos hsome] at hsound
    exact ⟨hsound, hq, rfl, haccepted, (List.append_nil _).symm⟩
  · rename_i hnone
    rw [if_neg hnone] at hsound
    split
    · rename_i hbusy
      rw [if_pos hbusy] at hsound
      exact ⟨hsound, hq, rfl, haccepted, (List.append_nil _).symm⟩
    · rename_i hidle
      rw [if_neg hidle] at hsound
      have hempty : s.events.chain = [] := by simpa using hidle
      rcases htake : q.take? with - | ⟨n, q'⟩
      · rw [htake] at hsound
        refine ⟨hsound, rfl, ?_, haccepted, ?_⟩
        · unfold subscribers
          rw [hempty]
          rfl
        · cases closed <;> exact (List.append_nil _).symm
      · rw [htake] at hsound
        refine ⟨hsound, rfl, ?_, haccepted, ?_⟩
        · unfold subscribers
          rw [hempty, List.filterMap_append]
          exact congrArg (Subscribers.mk [] _ _) (List.append_nil _)
        · exact List.filterMap_append

end Behind

/-! ## Consumers -/

theorem poll_eq (closed : Bool) (place : Nat) (s : Relay ε) :
    s.poll closed place = { s with
      events := (s.events.poll closed place).1
      handed := s.handed ++ (s.events.poll closed place).2.toList.map Invocation.handed } := by
  unfold poll
  rcases s.events.poll closed place with ⟨events, - | call⟩
  · simp only [Option.toList_none, List.map_nil, List.append_nil]
  · rfl

/-- **A step of the first consumer** is two polls of it. -/
theorem Behind.turn (h : s.Behind q subs accepted asked) (closed : Bool) :
    s.Reaches (subs.step closed q).1 (subs.step closed q).2 accepted asked := by
  obtain ⟨first, hfirst⟩ : ∃ act : Act ε, act = .poll closed (s.events.chain.length - 1) := ⟨_, rfl⟩
  have hsound := h.sound.foldl_step [first, first]
  have htwice := Holder.twice_eq closed s.events h.queue_eq
  simp only [Prod.mk.injEq] at htwice
  obtain ⟨hchain, hqueue, hcalls⟩ := htwice
  have hpolled : [first, first].foldl step s = { s with
      events := (s.events.twice closed).1
      handed := s.handed ++ (s.events.twice closed).2.map Invocation.handed } := by
    simp only [hfirst, List.foldl_cons, List.foldl_nil, step, poll_eq, Holder.twice,
      List.append_assoc, List.map_append]
  refine ⟨[first, first], hsound, ?_, ?_, ?_, ?_⟩
  · rw [hpolled, ← h.subscribers_eq, Subscribers.step_eq]
    exact hqueue
  · rw [hpolled, ← h.subscribers_eq, Subscribers.step_eq]
    unfold subscribers
    rw [hchain, List.filterMap_append, Handed.invocations_handed, hcalls]
  · rw [hpolled]
    exact h.accepted_eq
  · rw [hpolled, List.filterMap_append, Handed.asked_handed, List.append_nil]
    exact h.asked_eq

/-- Consumers that run take so many steps. -/
theorem Behind.run (h : s.Behind q subs accepted asked) (closed : Bool) :
    s.Reaches (subs.run closed q).1 (subs.run closed q).2 accepted asked := by
  have hsteps (n : Nat) : s.Reaches
      (n.repeat (fun p : Queue (Notification ε) × Subscribers ε => p.2.step closed p.1) (q, subs)).1
      (n.repeat (fun p : Queue (Notification ε) × Subscribers ε => p.2.step closed p.1) (q, subs)).2
      accepted asked := by
    induction n with
    | zero => exact h.reaches
    | succ n ih => exact ih.trans fun s' h' => h'.turn closed
  exact hsteps _

end Relay

/-! ## What arrives -/

namespace Engine

variable {τ ε : Type}

/-- What an engine with an open queue does to its events: it offers some, and counts each of them as
lost unless it was accepted. -/
def Offers (e e' : Engine τ ε) : Prop :=
  e.events.isOpen = true → ∃ ns, e'.events = e.events.offerAll ns
    ∧ e'.receiver.stats.eventsLost + e.events.kept ns + e.receiver.stats.events
      = e.receiver.stats.eventsLost + e'.receiver.stats.events

theorem Offers.trans {e e' e'' : Engine τ ε} (h : e.Offers e') (h' : e'.Offers e'') :
    e.Offers e'' := by
  intro hopen
  obtain ⟨ns, hns, hcount⟩ := h hopen
  obtain ⟨ns', hns', hcount'⟩ := h' (by rw [hns, Queue.isOpen_offerAll]; exact hopen)
  refine ⟨ns ++ ns', ?_, ?_⟩
  · rw [Queue.offerAll_append, ← hns]
    exact hns'
  · rw [Queue.kept_append, ← hns]
    omega

theorem SameEvents.offers {e e' : Engine τ ε} (h : e.SameEvents e') : e.Offers e' :=
  fun _ => ⟨[], h.queue, by rw [h.count]; rfl⟩

theorem deliver_events (now : Nat) (output : Output ε) {e : Engine τ ε}
    (hopen : e.events.isOpen = true) :
    (e.deliver now output).events = e.events.offerAll (Output.events [output])
      ∧ (e.deliver now output).receiver.stats.events = e.receiver.stats.events
      ∧ (e.deliver now output).receiver.stats.eventsLost
          + e.events.kept (Output.events [output])
        = e.receiver.stats.eventsLost + (Output.events [output]).length := by
  cases output with
  | resolved r =>
    unfold deliver
    cases e.waiter with
    | none => exact ⟨rfl, rfl, rfl⟩
    | some w =>
      simp only
      split <;> exact ⟨rfl, rfl, rfl⟩
  | event n =>
    have hevents : Output.events [Output.event n] = [n] := rfl
    have hall : e.events.offerAll [n] = (e.events.offer n).2 := rfl
    have hkept : e.events.kept [n] = if (e.events.offer n).1 = .accepted then 1 else 0 := rfl
    rw [hevents, hall, hkept]
    rcases hoffer : e.events.offer n with ⟨outcome, q⟩
    cases outcome with
    | accepted =>
      have hdeliver : e.deliver now (.event n) = { e with events := q } := by
        simp only [deliver, hoffer]
      rw [hdeliver]
      exact ⟨rfl, rfl, rfl⟩
    | full =>
      have hdeliver : e.deliver now (.event n) = { e with receiver := e.receiver.noteEventLost } := by
        simp only [deliver, hoffer]
      rw [hdeliver]
      exact ⟨(Queue.offer_of_full hoffer).symm, rfl, rfl⟩
    | closed =>
      -- an open queue does not refuse like that
      unfold Queue.offer at hoffer
      rw [hopen] at hoffer
      split at hoffer
      · rename_i habsurd
        cases habsurd
      · split at hoffer <;> cases hoffer

theorem received_offers (now : Nat) (outcome : Except Error Bytes) (e : Engine τ ε) :
    e.Offers (e.received now outcome) := by
  rcases outcome with err | bytes
  · cases err <;> exact SameEvents.offers ⟨rfl, rfl⟩
  · intro hopen
    have hdelivered (outputs : List (Output ε)) (e : Engine τ ε) (hopen : e.events.isOpen = true) :
        let e' := outputs.foldl (fun e o => e.deliver now o) e
        e'.events = e.events.offerAll (Output.events outputs)
          ∧ e'.receiver.stats.events = e.receiver.stats.events
          ∧ e'.receiver.stats.eventsLost + e.events.kept (Output.events outputs)
            = e.receiver.stats.eventsLost + (Output.events outputs).length := by
      induction outputs generalizing e with
      | nil => exact ⟨rfl, rfl, rfl⟩
      | cons output outputs ih =>
        obtain ⟨hevents, hcount, hlost⟩ := deliver_events now output hopen
        obtain ⟨hevents', hcount', hlost'⟩ := ih (e.deliver now output)
          (by rw [hevents, Queue.isOpen_offerAll]; exact hopen)
        have hsplit : Output.events (output :: outputs)
            = Output.events [output] ++ Output.events outputs := Output.events_append [output] outputs
        rw [hsplit, Queue.offerAll_append, Queue.kept_append, ← hevents, List.length_append]
        refine ⟨hevents', hcount'.trans hcount, ?_⟩
        simp only [List.foldl_cons]
        omega
    obtain ⟨hfed, hkept⟩ := Receiver.feed_events e.receiver bytes
    obtain ⟨hevents, hcount, hlost⟩ :=
      hdelivered (e.receiver.feed bytes).2 { e with receiver := (e.receiver.feed bytes).1 } hopen
    refine ⟨_, hevents, ?_⟩
    show (e.received now (.ok bytes)).receiver.stats.eventsLost + _ + _ = _
    unfold received
    simp only at hlost hcount ⊢
    omega

/-- **An engine only offers events,** and never takes one away. -/
theorem run_offers [Transport τ] (now : Nat) (e : Engine τ ε) : e.Offers (e.run now) :=
  run_induction (P := e.Offers) now (fun e' h => h.trans (serveNext_sameEvents now e').offers)
    (fun _ h => h) (fun e' outcome _ h => h.trans (received_offers now outcome e'))
    (SameEvents.refl e).offers

end Engine

/-! ## Sessions -/

namespace Subscribers

variable {ε : Type}

theorem isOpen_step (ended : Bool) (q : Queue (Notification ε)) (s : Subscribers ε) :
    (s.step ended q).1.isOpen = q.isOpen := by
  rw [step_eq]
  rcases s.chain with - | ⟨c, rest⟩
  · rfl
  · rcases hcancelled : c.cancelled with - | -
    · rcases htake : q.take? with - | ⟨n, q'⟩
      · rw [turn_of_empty ended hcancelled htake]
      · rw [turn_of_event ended hcancelled htake]
        exact Queue.isOpen_of_take? htake
    · rw [turn_of_cancelled ended hcancelled]

theorem isOpen_run (ended : Bool) (q : Queue (Notification ε)) (s : Subscribers ε) :
    (s.run ended q).1.isOpen = q.isOpen := by
  have hsteps (n : Nat) :
      (n.repeat (fun p : Queue (Notification ε) × Subscribers ε => p.2.step ended p.1) (q, s)).1.isOpen
        = q.isOpen := by
    induction n with
    | zero => rfl
    | succ n ih => exact (isOpen_step ended _ _).trans ih
  exact hsteps _

theorem isOpen_next (ended : Bool) (q : Queue (Notification ε)) (s : Subscribers ε) :
    (s.next ended q).2.isOpen = q.isOpen := by
  unfold next
  split
  · rfl
  · split
    · rfl
    · split
      · exact Queue.isOpen_of_take? ‹_›
      · rfl

end Subscribers

namespace Relay

variable {ε : Type} {s : Relay ε} {asked : List (Notification ε)}

theorem Behind.offerAll {q : Queue (Notification ε)} {subs : Subscribers ε} {accepted : Nat}
    (h : s.Behind q subs accepted asked) (ns : List (Notification ε)) :
    s.Reaches (q.offerAll ns) subs (accepted + q.kept ns) asked := by
  induction ns generalizing s q accepted with
  | nil => exact h.reaches
  | cons n ns ih =>
    have hoffered : s.Reaches (q.offer n).2 subs (accepted + q.kept [n]) asked :=
      ⟨[.offer n], h.offer n⟩
    have hcount : accepted + q.kept (n :: ns) = accepted + q.kept [n] + (q.offer n).2.kept ns := by
      rw [Nat.add_assoc]
      rfl
    rw [hcount]
    exact hoffered.trans fun s' h' => ih h'

/-- The line stands as a timeline does whose queue is open, and each event that was counted was accepted
or counted as lost. -/
def Follows (s : Relay ε) (t : Timeline ε) (asked : List (Notification ε)) : Prop :=
  t.engine.events.isOpen = true ∧ ∃ accepted,
    accepted + t.engine.receiver.stats.eventsLost = t.engine.receiver.stats.events
      ∧ s.Reaches t.engine.events t.subscribers accepted asked

theorem Follows.settle {t : Timeline ε} (h : s.Follows t asked) : s.Follows t.settle asked := by
  obtain ⟨hopen, accepted, hcount, hreaches⟩ := h
  obtain ⟨ns, hns, hkept⟩ := Engine.run_offers t.now t.met hopen
  have hoffered := hreaches.trans fun s' h' => h'.offerAll ns
  rw [t.settle_eq]
  refine ⟨?_, accepted + t.met.events.kept ns, ?_, ?_⟩
  · rw [Subscribers.isOpen_run, hns, Queue.isOpen_offerAll]
    exact hopen
  · have hmet : t.met.receiver = t.engine.receiver := rfl
    rw [hmet] at hkept
    simp only
    omega
  · refine Reaches.trans ?_ fun s' h' => h'.run _
    rw [hns]
    exact hoffered

/-- **Whatever a session does to its timeline,** the line can do. -/
theorem Follows.change {falls : Prop} {t t' : Timeline ε} {ns : List (Notification ε)}
    (h : s.Follows t asked) (hchange : Timeline.Change falls t t' ns) : s.Follows t' (asked ++ ns) := by
  cases hchange with
  | settle =>
    rw [List.append_nil]
    exact h.settle
  | cancel number =>
    rw [List.append_nil]
    unfold Timeline.cancelRequest Engine.submitCancel
    split <;> exact h
  | register =>
    rw [List.append_nil]
    obtain ⟨hopen, accepted, hcount, hreaches⟩ := h
    exact ⟨hopen, accepted, hcount, hreaches.trans fun s' h' => ⟨[.register], h'.register⟩⟩
  | clear =>
    rw [List.append_nil]
    obtain ⟨hopen, accepted, hcount, hreaches⟩ := h
    exact ⟨hopen, accepted, hcount, hreaches.trans fun s' h' => ⟨[.clear], h'.clear⟩⟩
  | next =>
    obtain ⟨hopen, accepted, hcount, hreaches⟩ := h
    refine ⟨(Subscribers.isOpen_next _ _ _).trans hopen, accepted, hcount, ?_⟩
    exact hreaches.trans fun s' h' => ⟨[.next _], h'.next _⟩
  | _ =>
    rw [List.append_nil]
    exact h

theorem Follows.course {falls : Prop} {t t' : Timeline ε} {ns : List (Notification ε)}
    (h : s.Follows t asked) (hcourse : Timeline.Course falls t t' ns) : s.Follows t' (asked ++ ns) := by
  induction hcourse with
  | refl =>
    rw [List.append_nil]
    exact h
  | step _ hchange ih =>
    rw [← List.append_assoc]
    exact ih.change hchange

/-- **A session on its clock is a run of the line** behind it, wherever a script has taken it. -/
theorem follows_of_open {link : Link} {setup : Setup ε} {opened : Session ε}
    (hopen : setup.openOver link = .ok opened) (script : List Action) :
    (of setup.config.queueDepth []).Follows (opened.run script).2.timeline
      ((opened.run script).1.flatMap Answer.asked) := by
  have hstart : (of setup.config.queueDepth []).Follows
      (Timeline.initial setup.config setup.table link) [] :=
    ⟨rfl, 0, rfl, [], of_sound _ [], rfl, rfl, rfl, rfl⟩
  exact hstart.course (Session.course_of_open hopen script fun _ => trivial)

/-- **What becomes of the events that the queue accepts.** However callbacks come and go and the next
event is asked for, in whatever order the consumers take their steps meanwhile and events arrive:

* somebody holds the receiving end, and the events that were handed over, each to one callback or to
  whoever asked, and then those that are queued are the events that the queue accepted, in that order;
* once a callback has been replaced or removed, nothing is handed to it any more.

A session on its clock runs like this: for every script there is such a run with the queue, the
consumers and the calls of callbacks where the script has taken them, with the events that the script
was answered with, and with each event accepted that was counted and not lost. -/
theorem handed_over_once_in_order {ε : Type} (depth : Nat) (acts : List (Act ε)) :
    (∃ q, (of depth acts).events.queue? = some q
      ∧ (of depth acts).handed.map Handed.notification ++ q.items = (of depth acts).accepted)
    ∧ (∀ before act after k, acts = before ++ act :: after → act = .register ∨ act = .clear →
        (of depth before).registered = some k →
          (of depth acts).handedTo k = (of depth before).handedTo k)
    ∧ ∀ (setup : Setup ε) (link : Link) (opened : Session ε), setup.config.queueDepth = depth →
        setup.openOver link = .ok opened → ∀ script,
          let (answers, session) := opened.run script
          let engine := session.timeline.engine
          ∃ acts', (of depth acts').events.queue? = some engine.events
            ∧ (of depth acts').subscribers = session.timeline.subscribers
            ∧ (of depth acts').handed.filterMap Handed.asked? = answers.flatMap Answer.asked
            ∧ (of depth acts').accepted.length + engine.receiver.stats.eventsLost
              = engine.receiver.stats.events := by
  refine ⟨(of_sound depth acts).held, ?_, ?_⟩
  · rintro before act after k rfl hact hk
    have hbefore := of_sound (ε := ε) depth before
    obtain ⟨hsilent, hsame⟩ := hbefore.silent hk hact
    have hafter := hsilent.foldl_step (hbefore.step act) after
    unfold of at hafter hsame ⊢
    rw [foldl_step_append, List.foldl_cons]
    exact hafter.trans hsame
  · rintro setup link opened rfl hopen script
    obtain ⟨-, accepted, hcount, acts', hbehind⟩ := follows_of_open hopen script
    refine ⟨acts', hbehind.queue_eq, hbehind.subscribers_eq, hbehind.asked_eq, ?_⟩
    rw [show (of setup.config.queueDepth acts').accepted.length = accepted from hbehind.accepted_eq]
    exact hcount

/-- A callback is replaced while it is being called, and the one after it is removed before it was ever
called. Both consumers end in turn, and the second event goes to whoever asks for it. -/
theorem second_event_goes_past_both_callbacks :
    let first : Notification Unit := ⟨(), "1"⟩
    let second : Notification Unit := ⟨(), "2"⟩
    let before : List (Act Unit) := [.register, .poll false 0, .offer first, .poll false 0]
    let after : List (Act Unit) :=
      [.offer second, .clear, .next false, .poll false 1, .poll false 1, .poll false 0, .poll false 0,
        .next false]
    let s := of 8 (before ++ .register :: after)
    (of 8 before).registered = some 1 ∧ s.handedTo 1 = [first]
      ∧ s.handed = [⟨some 1, first⟩, ⟨none, second⟩] ∧ s.accepted = [first, second] := by
  intro first second before after s
  obtain ⟨⟨q, hq, haccepted⟩, hsilent, -⟩ :=
    handed_over_once_in_order 8 (before ++ .register :: after)
  have hregistered : (of 8 before).registered = some 1 := by decide +kernel
  have hhanded : s.handed = [⟨some 1, first⟩, ⟨none, second⟩] := by decide +kernel
  have hempty : s.events.queue? = some { depth := 8 } := by decide +kernel
  have hcalled : (of 8 before).handedTo 1 = [first] := by decide +kernel
  obtain rfl : { depth := 8 } = q := Option.some.inj (hempty.symm.trans hq)
  refine ⟨hregistered, ?_, hhanded, ?_⟩
  · exact (hsilent before .register after 1 rfl (.inl rfl) hregistered).trans hcalled
  · rw [show s.accepted = _ from haccepted.symm, show (of 8 _).handed = _ from hhanded]
    rfl

end Relay

end ModemLink
