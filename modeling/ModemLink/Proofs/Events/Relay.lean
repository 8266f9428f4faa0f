/-
Who holds the receiving end of the event queue.

The receiving end is in one hand at a time, and it wanders. At first it is the session's own. A callback
that is registered gets a consumer of its own, which is given whatever the session had: the receiving
end, or the handle of the consumer before, and then it waits for that one to end. A consumer that was
cancelled ends with its next step and leaves the receiving end behind for whoever has its handle. The
session keeps the handle of the last consumer only.

So the parties stand in a line, each with the one before inside it, and `Holder` is that line. The
application registers and removes callbacks and asks for the next event, the consumers take their steps,
and events arrive, in any order. A step of a consumer is one poll: it looks whether it was cancelled,
then whether there is an event, and its callback runs from one step to the next.

`Subscribers` tells the same story with the receiving end outside and the line as a list. Every step
that it takes is made of steps of the line.
-/
import ModemLink.Subscribers

set_option autoImplicit false

namespace ModemLink

namespace Queue

variable {α : Type}

theorem items_offer (a : α) (q : Queue α) :
    (q.offer a).2.items = if (q.offer a).1 = .accepted then q.items ++ [a] else q.items := by
  unfold offer
  split
  · rfl
  · split <;> rfl

theorem items_of_take? {q q' : Queue α} {a : α} (h : q.take? = some (a, q')) :
    q.items = a :: q'.items := by
  unfold take? at h
  split at h
  · cases h
  · cases h
    assumption

end Queue

/-! ## The line -/

/-- Whoever holds the receiving end, or waits for it. -/
inductive Holder (ε : Type) where
  /-- nobody does, and what is queued is lost -/
  | nobody
  /-- the receiving end itself -/
  | free (q : Queue (Notification ε))
  /-- a consumer that waits for what it was given -/
  | starting (c : Consumer) (previous : Holder ε)
  /-- a consumer that looks for an event -/
  | reading (c : Consumer) (q : Queue (Notification ε))
  /-- a consumer that is inside its callback -/
  | calling (c : Consumer) (q : Queue (Notification ε)) (n : Notification ε)
  /-- a consumer that has ended, and what it left behind -/
  | ended (c : Consumer) (left : Option (Queue (Notification ε)))
deriving DecidableEq, Repr

namespace Holder

variable {ε : Type}

/-- The receiving end, as long as somebody holds it. -/
def queue? : Holder ε → Option (Queue (Notification ε))
  | .nobody => none
  | .free q | .reading _ q | .calling _ q _ => some q
  | .starting _ previous => previous.queue?
  | .ended _ left => left

/-- The receiving end changes where it is. -/
def onQueue (f : Queue (Notification ε) → Queue (Notification ε)) : Holder ε → Holder ε
  | .nobody => .nobody
  | .free q => .free (f q)
  | .starting c previous => .starting c (previous.onQueue f)
  | .reading c q => .reading c (f q)
  | .calling c q n => .calling c (f q) n
  | .ended c left => .ended c (left.map f)

/-- The consumers that have not ended, the one that was first given the receiving end first. -/
def chain : Holder ε → List Consumer
  | .nobody | .free _ | .ended _ _ => []
  | .starting c previous => previous.chain ++ [c]
  | .reading c _ | .calling c _ _ => [c]

/-- Cancels the consumer of a callback. -/
def cancel (callback : Nat) : Holder ε → Holder ε
  | .nobody => .nobody
  | .free q => .free q
  | .starting c previous => .starting (mark c) (previous.cancel callback)
  | .reading c q => .reading (mark c) q
  | .calling c q n => .calling (mark c) q n
  | .ended c left => .ended (mark c) left
where
  /-- Cancels a consumer if it is the one. -/
  mark (c : Consumer) : Consumer :=
    if c.callback = callback then { c with cancelled := true } else c

/-- What a consumer makes of what it was given: it waits until the consumer before it has ended. -/
def start (c : Consumer) (previous : Holder ε) : Holder ε :=
  match previous with
  | .free q | .ended _ (some q) => .reading c q
  | .nobody | .ended _ none => .ended c none
  | _ => .starting c previous

/-- **A consumer looks for an event.** A cancelled one ends; one that is not calls its callback with
the oldest event, and ends when the queue is closed and empty. -/
def look (closed : Bool) (c : Consumer) (q : Queue (Notification ε)) :
    Holder ε × Option (Invocation ε) :=
  if c.cancelled then (.ended c (some q), none)
  else
    match q.take? with
    | some (n, q) => (.calling c q n, some ⟨c.callback, n⟩)
    | none => (if closed then .ended c (some q) else .reading c q, none)

/-- **A consumer takes a step,** the one at this place in line counted from the last. -/
def poll (closed : Bool) (place : Nat) : Holder ε → Holder ε × Option (Invocation ε)
  | .starting c previous =>
    match place with
    | 0 => (start c previous, none)
    | place + 1 =>
      let (previous, call) := previous.poll closed place
      (.starting c previous, call)
  | .reading c q => if place = 0 then look closed c q else (.reading c q, none)
  | .calling c q n => if place = 0 then (.reading c q, none) else (.calling c q n, none)
  | h => (h, none)

end Holder

/-! ## Runs -/

/-- An event that was handed over, to a callback or to whoever asked for the next event. -/
structure Handed (ε : Type) where
  callback : Option Nat
  notification : Notification ε
deriving DecidableEq, Repr

namespace Handed

variable {ε : Type}

/-- The call of a callback that it was, if it was one. -/
def invocation? (x : Handed ε) : Option (Invocation ε) := x.callback.map (⟨·, x.notification⟩)

/-- The event that somebody asked for, if it was one. -/
def asked? (x : Handed ε) : Option (Notification ε) :=
  match x.callback with
  | some _ => none
  | none => some x.notification

end Handed

/-- The line behind a session, with its past. -/
structure Relay (ε : Type) where
  /-- what the session has: the receiving end, or the handle of the last consumer -/
  events : Holder ε
  /-- the callback that is registered -/
  registered : Option Nat := none
  /-- how many callbacks were registered so far -/
  callbacks : Nat := 0
  /-- the events that the queue accepted -/
  accepted : List (Notification ε) := []
  /-- the events that were handed over -/
  handed : List (Handed ε) := []
deriving DecidableEq, Repr

namespace Relay

variable {ε : Type}

/-- An event arrives. -/
def offer (n : Notification ε) (s : Relay ε) : Relay ε :=
  match s.events.queue? with
  | none => s
  | some q =>
    { s with
      events := s.events.onQueue fun q => (q.offer n).2
      accepted := if (q.offer n).1 = .accepted then s.accepted ++ [n] else s.accepted }

/-- What the session has once the registered callback is cancelled. -/
def released (s : Relay ε) : Holder ε :=
  match s.registered with
  | some k => s.events.cancel k
  | none => s.events

/-- Registers the next callback in place of the one before. -/
def register (s : Relay ε) : Relay ε :=
  { s with
    events := .starting ⟨s.callbacks + 1, false⟩ s.released
    registered := some (s.callbacks + 1)
    callbacks := s.callbacks + 1 }

/-- Removes the callback. -/
def clear (s : Relay ε) : Relay ε := { s with events := s.released, registered := none }

/-- A consumer takes a step. -/
def poll (closed : Bool) (place : Nat) (s : Relay ε) : Relay ε :=
  match s.events.poll closed place with
  | (events, none) => { s with events := events }
  | (events, some call) =>
    { s with events := events, handed := s.handed ++ [⟨some call.callback, call.notification⟩] }

/-- Takes the receiving end back from a consumer that has ended. -/
def regain : Holder ε → Holder ε
  | .ended _ (some q) => .free q
  | .ended _ none => .nobody
  | h => h

/-- **Asks for the next event.** With a callback registered there is none to be had, and with a consumer
still at it none yet. -/
def next (closed : Bool) (s : Relay ε) : Next ε × Relay ε :=
  if s.registered.isSome then (.absent, s)
  else
    match regain s.events with
    | .nobody => (.absent, { s with events := .nobody })
    | .free q =>
      match q.take? with
      | some (n, q) =>
        (.event n, { s with events := .free q, handed := s.handed ++ [⟨none, n⟩] })
      | none => (if closed then .absent else .pending, { s with events := .free q })
    | _ => (.pending, s)

/-- A step of the application, of a consumer, or of the world around them. -/
inductive Act (ε : Type) where
  | offer (n : Notification ε)
  | register
  | clear
  | poll (closed : Bool) (place : Nat)
  | next (closed : Bool)
deriving DecidableEq, Repr

/-- One more step. -/
def step (s : Relay ε) : Act ε → Relay ε
  | .offer n => s.offer n
  | .register => s.register
  | .clear => s.clear
  | .poll closed place => s.poll closed place
  | .next closed => (s.next closed).2

/-- A run from a queue that has just been made. -/
def of (depth : Nat) (acts : List (Act ε)) : Relay ε :=
  acts.foldl step { events := .free { depth := depth } }

theorem foldl_step_append (s : Relay ε) (a b : List (Act ε)) :
    (a ++ b).foldl step s = b.foldl step (a.foldl step s) :=
  List.foldl_append

/-! ## What a step of a consumer can do -/

end Relay

namespace Holder

variable {ε : Type}

/-- **What a poll can do** to a line that holds a receiving end. -/
inductive Polled (h : Holder ε) (q : Queue (Notification ε)) :
    Holder ε → Option (Invocation ε) → Prop where
  /-- it hands the receiving end on, or nothing at all happens -/
  | moved (h' : Holder ε) (hq : h'.queue? = some q) (hchain : h'.chain.Sublist h.chain) :
    Polled h q h' none
  /-- the oldest event is handed to a callback that was not cancelled -/
  | called (h' : Holder ε) (c : Consumer) (n : Notification ε) (q' : Queue (Notification ε))
    (htake : q.take? = some (n, q')) (hq : h'.queue? = some q') (hchain : h'.chain = h.chain)
    (hc : c ∈ h.chain) (hkept : c.cancelled = false) :
    Polled h q h' (some ⟨c.callback, n⟩)

theorem start_polled (c : Consumer) (previous : Holder ε) {q : Queue (Notification ε)}
    (hq : previous.queue? = some q) :
    (starting c previous).Polled q (start c previous) none := by
  cases previous with
  | nobody => cases hq
  | free p =>
    cases hq
    exact .moved _ rfl (.refl _)
  | ended c' left =>
    obtain rfl : left = some q := hq
    exact .moved _ rfl (.refl _)
  | starting c' p => exact .moved _ hq (.refl _)
  | reading c' p => exact .moved _ hq (.refl _)
  | calling c' p n => exact .moved _ hq (.refl _)

theorem look_polled (closed : Bool) (c : Consumer) (q : Queue (Notification ε)) :
    (reading c q).Polled q (look closed c q).1 (look closed c q).2 := by
  unfold look
  by_cases hcancelled : c.cancelled = true
  · rw [if_pos hcancelled]
    exact .moved _ rfl (List.nil_sublist _)
  · rw [if_neg hcancelled]
    rcases htake : q.take? with - | ⟨n, q'⟩
    · cases closed with
      | false => exact .moved _ rfl (.refl _)
      | true => exact .moved _ rfl (List.nil_sublist _)
    · exact .called _ c n q' htake rfl rfl List.mem_cons_self (Bool.eq_false_iff.mpr hcancelled)

/-- **There are no other outcomes** than those of `Polled`. -/
theorem poll_polled (closed : Bool) (place : Nat) (h : Holder ε) {q : Queue (Notification ε)}
    (hq : h.queue? = some q) : h.Polled q (h.poll closed place).1 (h.poll closed place).2 := by
  induction h generalizing place with
  | nobody => cases hq
  | free p =>
    unfold poll
    exact .moved _ hq (.refl _)
  | ended c left =>
    unfold poll
    exact .moved _ hq (.refl _)
  | calling c p n =>
    unfold poll
    split
    · exact .moved _ hq (.refl _)
    · exact .moved _ hq (.refl _)
  | reading c p =>
    obtain rfl : p = q := Option.some.inj hq
    unfold poll
    split
    · exact look_polled closed c p
    · exact .moved _ hq (.refl _)
  | starting c previous ih =>
    cases place with
    | zero => exact start_polled c previous hq
    | succ place =>
      -- a consumer further down the line
      have hinner := ih place hq
      rcases hpoll : previous.poll closed place with ⟨h', call⟩
      rw [hpoll] at hinner
      simp only [poll, hpoll]
      cases hinner with
      | moved hq' hchain => exact .moved _ hq' (hchain.append_right [c])
      | called c' n q' htake hq' hchain hc hkept =>
        exact .called _ c' n q' htake hq' (congrArg (· ++ [c]) hchain)
          (List.mem_append_left _ hc) hkept

/-! ## The receiving end, wherever it is -/

theorem queue?_onQueue (f : Queue (Notification ε) → Queue (Notification ε)) (h : Holder ε) :
    (h.onQueue f).queue? = h.queue?.map f := by
  induction h with
  | starting c previous ih => exact ih
  | _ => rfl

theorem chain_onQueue (f : Queue (Notification ε) → Queue (Notification ε)) (h : Holder ε) :
    (h.onQueue f).chain = h.chain := by
  induction h with
  | starting c previous ih => exact congrArg (· ++ [c]) ih
  | _ => rfl

theorem queue?_cancel (k : Nat) (h : Holder ε) : (h.cancel k).queue? = h.queue? := by
  induction h with
  | starting c previous ih => exact ih
  | _ => rfl

theorem chain_cancel (k : Nat) (h : Holder ε) :
    (h.cancel k).chain = h.chain.map (cancel.mark k) := by
  induction h with
  | starting c previous ih =>
    rw [cancel, chain, ih, chain, List.map_append]
    rfl
  | _ => rfl

end Holder

namespace Relay

variable {ε : Type}

/-! ## The invariant -/

/-- **The invariant.** Somebody holds the receiving end; what was handed over and then what is queued
are what the queue accepted. A consumer that was not cancelled is that of the registered callback. -/
structure Sound (s : Relay ε) : Prop where
  held : ∃ q, s.events.queue? = some q
    ∧ s.handed.map Handed.notification ++ q.items = s.accepted
  kept : ∀ c ∈ s.events.chain, c.cancelled = false → s.registered = some c.callback
  numbered : ∀ c ∈ s.events.chain, c.callback ≤ s.callbacks
  registered_le : ∀ k, s.registered = some k → k ≤ s.callbacks

theorem queue?_released (s : Relay ε) : s.released.queue? = s.events.queue? := by
  unfold released
  split
  · exact Holder.queue?_cancel _ _
  · rfl

namespace Sound

variable {s : Relay ε}

/-- **Cancelling the registered callback cancels every consumer,** since the others were before. -/
theorem chain_released (h : s.Sound) :
    s.released.chain = Subscribers.cancelAll s.events.chain := by
  have hsame (c : Consumer) (hc : c.cancelled = true) : { c with cancelled := true } = c := by
    rw [← hc]
  unfold released Subscribers.cancelAll
  cases hregistered : s.registered with
  | none =>
    refine (List.map_id _).symm.trans (List.map_congr_left fun c hc => ?_)
    refine (hsame c (Bool.of_not_eq_false fun hkept => ?_)).symm
    cases hregistered.symm.trans (h.kept c hc hkept)
  | some k =>
    rw [Holder.chain_cancel]
    refine List.map_congr_left fun c hc => ?_
    unfold Holder.cancel.mark
    by_cases hk : c.callback = k
    · rw [if_pos hk]
    · rw [if_neg hk]
      refine (hsame c (Bool.of_not_eq_false fun hkept => ?_)).symm
      exact hk (Option.some.inj (hregistered.symm.trans (h.kept c hc hkept))).symm

/-- Whoever stands in line once the registered callback is cancelled was cancelled. -/
theorem cancelled_of_mem_released (h : s.Sound) {c : Consumer} (hc : c ∈ s.released.chain) :
    c.cancelled = true ∧ c.callback ≤ s.callbacks := by
  rw [h.chain_released] at hc
  obtain ⟨c', hc', rfl⟩ := List.mem_map.mp hc
  exact ⟨rfl, h.numbered c' hc'⟩

theorem offer (h : s.Sound) (n : Notification ε) : (s.offer n).Sound := by
  obtain ⟨q, hq, hhanded⟩ := h.held
  unfold Relay.offer
  rw [hq]
  refine ⟨⟨(q.offer n).2, ?_, ?_⟩, ?_, ?_, h.registered_le⟩
  · rw [Holder.queue?_onQueue, hq]
    rfl
  · show s.handed.map Handed.notification ++ (q.offer n).2.items
      = if (q.offer n).1 = .accepted then s.accepted ++ [n] else s.accepted
    rw [Queue.items_offer, ← hhanded]
    split
    · exact (List.append_assoc _ _ _).symm
    · rfl
  · rw [Holder.chain_onQueue]
    exact h.kept
  · rw [Holder.chain_onQueue]
    exact h.numbered

theorem register (h : s.Sound) : s.register.Sound := by
  obtain ⟨q, hq, hhanded⟩ := h.held
  have hmem (c : Consumer) (hc : c ∈ s.register.events.chain) :
      c ∈ s.released.chain ∨ c = ⟨s.callbacks + 1, false⟩ := by
    rcases List.mem_append.mp hc with hc | hc
    · exact .inl hc
    · exact .inr (List.mem_singleton.mp hc)
  refine ⟨⟨q, (queue?_released s).trans hq, hhanded⟩, fun c hc hkept => ?_, fun c hc => ?_,
    fun k hk => ?_⟩
  · rcases hmem c hc with hc | rfl
    · rw [(h.cancelled_of_mem_released hc).1] at hkept
      cases hkept
    · rfl
  · rcases hmem c hc with hc | rfl
    · exact Nat.le_succ_of_le (h.cancelled_of_mem_released hc).2
    · exact Nat.le_refl _
  · cases hk
    exact Nat.le_refl _

theorem clear (h : s.Sound) : s.clear.Sound := by
  obtain ⟨q, hq, hhanded⟩ := h.held
  refine ⟨⟨q, (queue?_released s).trans hq, hhanded⟩, fun c hc hkept => ?_, fun c hc => ?_, nofun⟩
  · rw [(h.cancelled_of_mem_released hc).1] at hkept
    cases hkept
  · exact (h.cancelled_of_mem_released hc).2

theorem poll (h : s.Sound) (closed : Bool) (place : Nat) : (s.poll closed place).Sound := by
  obtain ⟨q, hq, hhanded⟩ := h.held
  have hpolled := Holder.poll_polled closed place s.events hq
  rcases hpoll : s.events.poll closed place with ⟨events, call⟩
  rw [hpoll] at hpolled
  unfold Relay.poll
  rw [hpoll]
  cases hpolled with
  | moved hq' hchain =>
    exact ⟨⟨q, hq', hhanded⟩, fun c hc => h.kept c (hchain.subset hc),
      fun c hc => h.numbered c (hchain.subset hc), h.registered_le⟩
  | called c n q' htake hq' hchain hc hkept =>
    refine ⟨⟨q', hq', ?_⟩, ?_, ?_, h.registered_le⟩
    · rw [← hhanded, Queue.items_of_take? htake, List.map_append, List.append_assoc]
      rfl
    · rw [hchain]
      exact h.kept
    · rw [hchain]
      exact h.numbered

end Sound

/-- **Asking for the next event** is asking the queue, unless somebody else is at it. -/
theorem next_eq {s : Relay ε} {q : Queue (Notification ε)} (hq : s.events.queue? = some q)
    (closed : Bool) :
    s.next closed =
      if s.registered.isSome then (.absent, s)
      else if !s.events.chain.isEmpty then (.pending, s)
      else
        match q.take? with
        | some (n, q) =>
          (.event n, { s with events := .free q, handed := s.handed ++ [⟨none, n⟩] })
        | none => (if closed then .absent else .pending, { s with events := .free q }) := by
  unfold next
  split
  · rfl
  · cases hevents : s.events with
    | nobody =>
      rw [hevents] at hq
      cases hq
    | free p =>
      rw [hevents] at hq
      cases hq
      rfl
    | ended c left =>
      rw [hevents] at hq
      obtain rfl : left = some q := hq
      rfl
    | starting c previous =>
      have hsome : (!(previous.chain ++ [c]).isEmpty) = true := by
        cases previous.chain <;> rfl
      simp only [regain, Holder.chain, hsome, if_true]
    | reading c p => rfl
    | calling c p n => rfl

theorem Sound.next {s : Relay ε} (h : s.Sound) (closed : Bool) : (s.next closed).2.Sound := by
  obtain ⟨q, hq, hhanded⟩ := h.held
  rw [next_eq hq]
  split
  · exact h
  · split
    · exact h
    · rcases htake : q.take? with - | ⟨n, q'⟩
      · exact ⟨⟨q, rfl, hhanded⟩, nofun, nofun, h.registered_le⟩
      · refine ⟨⟨q', rfl, ?_⟩, nofun, nofun, h.registered_le⟩
        rw [← hhanded, Queue.items_of_take? htake, List.map_append, List.append_assoc]
        rfl

/-- **Every step** keeps the events together. -/
theorem Sound.step {s : Relay ε} (h : s.Sound) (act : Act ε) : (s.step act).Sound := by
  cases act with
  | offer n => exact h.offer n
  | register => exact h.register
  | clear => exact h.clear
  | poll closed place => exact h.poll closed place
  | next closed => exact h.next closed

theorem Sound.foldl_step {s : Relay ε} (h : s.Sound) (acts : List (Act ε)) :
    (acts.foldl Relay.step s).Sound := by
  induction acts generalizing s with
  | nil => exact h
  | cons act acts ih => exact ih (h.step act)

/-- **Whatever happens, somebody holds the receiving end,** and no event is lost or handed over
twice. -/
theorem of_sound (depth : Nat) (acts : List (Act ε)) : (of depth acts).Sound := by
  refine Sound.foldl_step ⟨⟨{ depth := depth }, rfl, rfl⟩, fun c hc => ?_, fun c hc => ?_,
    fun k hk => ?_⟩ acts
  · cases hc
  · cases hc
  · cases hk

/-! ## A callback that is gone -/

/-- What was handed to a callback. -/
def handedTo (k : Nat) (s : Relay ε) : List (Notification ε) :=
  (s.handed.filter (·.callback = some k)).map Handed.notification

/-- Nothing is handed to a callback any more: every consumer of it was cancelled, and no later callback
has its number. -/
structure Silent (k : Nat) (s : Relay ε) : Prop where
  cancelled : ∀ c ∈ s.events.chain, c.callback = k → c.cancelled = true
  le : k ≤ s.callbacks

/-- Once the registered callback is cancelled, it is silent. -/
theorem Sound.silent {s : Relay ε} (h : s.Sound) {k : Nat} (hk : s.registered = some k) {act : Act ε}
    (hact : act = .register ∨ act = .clear) :
    (s.step act).Silent k ∧ (s.step act).handedTo k = s.handedTo k := by
  have hle := h.registered_le k hk
  rcases hact with rfl | rfl
  · refine ⟨⟨fun c hc hck => ?_, Nat.le_succ_of_le hle⟩, rfl⟩
    rcases List.mem_append.mp hc with hc | hc
    · exact (h.cancelled_of_mem_released hc).1
    · -- the new consumer belongs to a new callback
      rw [List.mem_singleton.mp hc] at hck
      simp only at hck
      omega
  · exact ⟨⟨fun c hc _ => (h.cancelled_of_mem_released hc).1, hle⟩, rfl⟩

/-- **A silent callback stays silent.** -/
theorem Silent.step {s : Relay ε} {k : Nat} (h : s.Silent k) (hs : s.Sound) (act : Act ε) :
    (s.step act).Silent k ∧ (s.step act).handedTo k = s.handedTo k := by
  obtain ⟨q, hq, -⟩ := hs.held
  cases act with
  | offer n =>
    simp only [Relay.step, Relay.offer, hq]
    refine ⟨⟨?_, h.le⟩, rfl⟩
    rw [Holder.chain_onQueue]
    exact h.cancelled
  | register =>
    refine ⟨⟨fun c hc hck => ?_, Nat.le_succ_of_le h.le⟩, rfl⟩
    have hle := h.le
    rcases List.mem_append.mp hc with hc | hc
    · exact (hs.cancelled_of_mem_released hc).1
    · rw [List.mem_singleton.mp hc] at hck
      simp only at hck
      omega
  | clear => exact ⟨⟨fun c hc _ => (hs.cancelled_of_mem_released hc).1, h.le⟩, rfl⟩
  | poll closed place =>
    have hpolled := Holder.poll_polled closed place s.events hq
    rcases hpoll : s.events.poll closed place with ⟨events, call⟩
    rw [hpoll] at hpolled
    simp only [Relay.step, Relay.poll, hpoll]
    cases hpolled with
    | moved hq' hchain => exact ⟨⟨fun c hc => h.cancelled c (hchain.subset hc), h.le⟩, rfl⟩
    | called c n q' htake hq' hchain hc hkept =>
      refine ⟨⟨?_, h.le⟩, ?_⟩
      · rw [hchain]
        exact h.cancelled
      · -- whoever was called is not the one that was cancelled
        have hother : c.callback ≠ k := by
          intro hck
          rw [h.cancelled c hc hck] at hkept
          cases hkept
        unfold handedTo
        rw [List.filter_append, List.filter_cons_of_neg (by simpa using hother), List.filter_nil,
          List.append_nil]
  | next closed =>
    simp only [Relay.step]
    rw [next_eq hq]
    split
    · exact ⟨h, rfl⟩
    · split
      · exact ⟨h, rfl⟩
      · rcases htake : q.take? with - | ⟨n, q'⟩
        · exact ⟨⟨nofun, h.le⟩, rfl⟩
        · refine ⟨⟨nofun, h.le⟩, ?_⟩
          unfold handedTo
          rw [List.filter_append, List.filter_cons_of_neg (by simp), List.filter_nil, List.append_nil]

theorem Silent.foldl_step {s : Relay ε} {k : Nat} (h : s.Silent k) (hs : s.Sound)
    (acts : List (Act ε)) : (acts.foldl Relay.step s).handedTo k = s.handedTo k := by
  induction acts generalizing s with
  | nil => rfl
  | cons act acts ih =>
    obtain ⟨hsilent, hsame⟩ := h.step hs act
    exact (ih hsilent (hs.step act)).trans hsame

end Relay

end ModemLink
