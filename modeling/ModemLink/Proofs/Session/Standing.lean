/-
Where a session and its engine stand with each other.

Three records of one command have to agree: the session's command in flight, the engine's waiter, and
the slot of the receive path. Each is kept by a party of its own and changed at a time of its own, so
they agree only after what is still under way has been counted in: a request in the queue, a reply
nobody has taken, a command being written, the wish to give up a command.

`Stage` has one case for each place that the exchange of the two can be in, `Sound` is the invariant,
and each step of either party keeps it.
-/
import ModemLink.Proofs.Session.Interplay

set_option autoImplicit false

namespace ModemLink

/-! ## Replies -/

namespace Engine

variable {τ ε : Type}

theorem reply?_post_self (e : Engine τ ε) (k : Nat) (reply : Reply) :
    (e.post k reply).reply? k = some reply :=
  List.lookup_cons_self

theorem reply?_post_of_ne (e : Engine τ ε) {k j : Nat} (reply : Reply) (h : j ≠ k) :
    (e.post k reply).reply? j = e.reply? j := by
  unfold reply? post
  rw [List.lookup_cons, beq_false_of_ne h]

theorem isSome_reply?_post (e : Engine τ ε) (k j : Nat) (reply : Reply)
    (h : (e.reply? j).isSome = true) : ((e.post k reply).reply? j).isSome = true := by
  by_cases hjk : j = k
  · rw [hjk, reply?_post_self]
    rfl
  · rw [reply?_post_of_ne e reply hjk]
    exact h

/-! ## Where a resolution stands -/

theorem lookup_of_delivered {e : Engine τ ε} {k : Nat} {r : Resolved}
    (h : e.slot k = .delivered r) : e.resolutions.lookup k = some r :=
  slot_eq_delivered_iff.mp h

/-- A resolution that cannot come any more does not stand, and nobody waits for it. -/
theorem of_closed {e : Engine τ ε} {k : Nat} (h : e.slot k = .closed) :
    e.resolutions.lookup k = none ∧ ∀ w, e.waiter = some w → w.ticket ≠ k := by
  unfold slot at h
  split at h
  · cases h
  · rename_i hnone
    refine ⟨hnone, fun w hw hticket => ?_⟩
    rw [hw] at h
    simp [hticket] at h

end Engine

/-- Giving up a number leaves no other one out of the slot. -/
theorem Tracker.current_cancel {t : Tracker} {n : Nat} {p : Pending}
    (h : (t.cancel n).2.current = some p) : t.current = some p ∧ p.number ≠ n := by
  unfold cancel at h
  split at h
  · cases h
  · rename_i hother
    refine ⟨h, fun hp => hother ?_⟩
    rw [show t.current = some p from h, Option.map_some, hp]

/-- **Why a call was refused.** A send is refused as busy exactly if a command was in flight.
Terminators are refused as busy if a command was in flight, and otherwise, as long as the engine
answers, exactly if a wait had been cut off. -/
def Returned.Fair (r : Returned) : Prop :=
  match r.call with
  | .send _ => r.outcome = .error .busy ↔ r.pending = true
  | .configure _ =>
    if r.pending then r.outcome = .error .busy
    else r.outcome = .error .notConnected ∨ r.outcome = if r.cut then .error .busy else .ok ()
  | .stats => True

/-- Nobody waits for a reply in between, or while a confirmation is waited for. -/
theorem Doing.not_calling {d : Doing} (hd : d = .nothing ∨ ∃ f, d = .waiting f) {c : Call} :
    ¬ (d = .queueing c ∨ ∃ k, d = .awaiting c k) := by
  rcases hd with rfl | ⟨f, rfl⟩
  · rintro (hd | ⟨k, hd⟩) <;> cases hd
  · rintro (hd | ⟨k, hd⟩) <;> cases hd

namespace Interplay

variable {τ ε : Type}

/-! ## The invariant -/

/-- Nothing is asked of the engine, and it writes nothing. -/
def Clear (s : Interplay τ ε) : Prop := s.writing = none ∧ s.engine.requests = []

/-- A request that nobody waits for. -/
def Leftover (s : Interplay τ ε) : Request → Prop
  | .cancel _ | .setPollStep _ => True
  | .transmit ticket _ => ticket ∈ s.engine.abandoned ∧ s.engine.reply? ticket = none
  | _ => False

/-- **Why a number may be in the slot** although its command is not in flight: it is about to be
given up, or the engine is just writing it, or its send was dropped too late, or a wait for it was
cut off. -/
def Excused (s : Interplay τ ε) (n : Nat) : Prop :=
  s.engine.requests.head? = some (.cancel n) ∨ (∃ k, s.writing = some (k, .ok n))
    ∨ (∃ k, (k, n) ∈ s.late) ∨ s.cut = true

/-- **The fate of a command** that was answered with its number: it is in the slot, and the engine
holds its ticket unless reading has ended, or its resolution stands and the slot is empty. -/
def Fate (e : Engine τ ε) (f : InFlight) : Prop :=
  (∃ p, e.receiver.tracker.current = some p ∧ p.number = f.number
      ∧ e.resolutions.lookup f.ticket = none
      ∧ (e.waiter = some ⟨f.number, f.ticket⟩ ∨ e.waiter = none ∧ e.connected = false))
    ∨ ((e.resolutions.lookup f.ticket).isSome = true ∧ e.receiver.tracker.current = none)

/-- With no command in flight, these requests are left over, and the slot is accounted for. -/
structure Apart (s : Interplay τ ε) (left : List Request) : Prop where
  inFlight_eq : s.inFlight = none
  leftover : ∀ r ∈ left, s.Leftover r
  writing : ∀ k o, s.writing = some (k, o) → k ∈ s.engine.abandoned
  slot : ∀ n, s.InSlot n → s.Excused n

/-- What stands in the queue behind these requests. -/
inductive Asks (s : Interplay τ ε) (left : List Request) : Prop where
  | nothing (hdoing : s.doing = .nothing ∨ ∃ c, s.doing = .queueing c)
    (hrequests : s.engine.requests = left)
  | own (c : Call) (k : Nat) (hdoing : s.doing = .awaiting c k)
    (hrequests : s.engine.requests = left ++ [c.request k]) (hreply : s.engine.reply? k = none)
    (hkept : k ∉ s.engine.abandoned)

/-- How the application holds a command that was answered with its number. -/
inductive Holds (s : Interplay τ ε) (f : InFlight) : Prop where
  | given (command : Text) (hdoing : s.doing = .awaiting (.send command) f.ticket)
    (hinFlight : s.inFlight = none)
    (hreply : s.engine.reply? f.ticket = some (.transmitted (.ok f.number)))
    (hrequests : s.engine.requests = [])
  | inFlight (hdoing : s.doing = .nothing ∨ s.doing = .queueing .stats)
    (hinFlight : s.inFlight = some f) (hrequests : s.engine.requests = [])
  | asking (k : Nat) (hdoing : s.doing = .awaiting .stats k) (hinFlight : s.inFlight = some f)
    (hrequests : s.engine.requests = [.stats k]) (hreply : s.engine.reply? k = none)
    (hkept : k ∉ s.engine.abandoned)
  | told (k : Nat) (stats : Stats) (hdoing : s.doing = .awaiting .stats k)
    (hinFlight : s.inFlight = some f) (hrequests : s.engine.requests = [])
    (hreply : s.engine.reply? k = some (.stats stats))
  | waiting (hdoing : s.doing = .waiting f) (hinFlight : s.inFlight = none)
    (hrequests : s.engine.requests = [])

/-- **Where the two parties stand,** as long as the engine runs. -/
inductive Stage (s : Interplay τ ε) : Prop where
  | apart (left : List Request) (hasks : s.Asks left) (h : s.Apart left)
  | written (command : Text) (k : Nat) (o : Except Error Nat)
    (hdoing : s.doing = .awaiting (.send command) k) (hwriting : s.writing = some (k, o))
    (hrequests : s.engine.requests = []) (hreply : s.engine.reply? k = none)
    (hkept : k ∉ s.engine.abandoned) (hinFlight : s.inFlight = none)
    (hslot : ∀ n, s.InSlot n → s.Excused n)
    (houtcome : s.late = [] → o ≠ .error .busy)
  | answered (c : Call) (k : Nat) (reply : Reply) (hdoing : s.doing = .awaiting c k)
    (hclear : s.Clear) (hreply : s.engine.reply? k = some reply)
    (hnumber : ∀ n, reply ≠ .transmitted (.ok n)) (hinFlight : s.inFlight = none)
    (hslot : ∀ n, s.InSlot n → s.Excused n)
  | held (f : InFlight) (h : s.Holds f) (hwriting : s.writing = none) (hcut : s.cut = false)
    (hfate : Fate s.engine f)

/-- What a reply may say, given the past of both parties. -/
def Fits (s : Interplay τ ε) : Call → Reply → Prop
  | .send _, .transmitted outcome => s.late = [] → outcome ≠ .error .busy
  | .configure _, .configured outcome =>
    s.late = [] → outcome = if s.cut then .error .busy else .ok ()
  | .stats, .stats _ => True
  | _, _ => False

/-- **The invariant of both parties.** -/
structure Sound (s : Interplay τ ε) : Prop where
  -- tickets come from a counter
  replies_lt : ∀ k, (s.engine.reply? k).isSome = true → k < s.engine.nextTicket
  abandoned_lt : ∀ k ∈ s.engine.abandoned, k < s.engine.nextTicket
  -- who waits, and what was resolved, was answered before
  waiter_answered : ∀ w, s.engine.waiter = some w → (s.engine.reply? w.ticket).isSome = true
  resolved_answered : ∀ k, (s.engine.resolutions.lookup k).isSome = true →
    (s.engine.reply? k).isSome = true
  writing_new : ∀ k o, s.writing = some (k, o) → s.engine.reply? k = none
  -- a command that was written is in the slot until it is answered
  writing_slot : ∀ k n, s.writing = some (k, .ok n) → s.InSlot n
  ended : s.engine.running = false → s.Clear
  called : ∀ c, (s.doing = .queueing c ∨ ∃ k, s.doing = .awaiting c k) → c.exclusive = true →
    s.called = false ∧ s.inFlight = none
  awaits : ∀ c k, s.doing = .awaiting c k → k < s.engine.nextTicket
    ∧ ∀ reply, s.engine.reply? k = some reply → s.Fits c reply
  -- the command of a wait that was cut off stays in the slot, and reading has ended
  cut : s.engine.running = true → s.cut = true → s.engine.connected = false
    ∧ (∃ n, s.InSlot n) ∧ (∀ n, .cancel n ∉ s.engine.requests)
    ∧ ∀ k n, s.writing ≠ some (k, .ok n)
  stage : s.engine.running = true → s.Stage
  fair : s.late = [] → ∀ r ∈ s.log, Returned.Fair r

/-! ## What a stage says -/

/-- How a call stands that waits for its reply. -/
inductive Awaits (s : Interplay τ ε) : Call → Nat → Prop where
  | queued (c : Call) (k : Nat) (left : List Request)
    (hrequests : s.engine.requests = left ++ [c.request k]) (hreply : s.engine.reply? k = none)
    (h : s.Apart left) : Awaits s c k
  | written (command : Text) (k : Nat) (o : Except Error Nat) (hwriting : s.writing = some (k, o))
    (hrequests : s.engine.requests = []) (hreply : s.engine.reply? k = none)
    (hinFlight : s.inFlight = none) (hslot : ∀ n, s.InSlot n → s.Excused n) :
    Awaits s (.send command) k
  | answered (c : Call) (k : Nat) (reply : Reply) (hclear : s.Clear)
    (hreply : s.engine.reply? k = some reply) (hnumber : ∀ n, reply ≠ .transmitted (.ok n))
    (hinFlight : s.inFlight = none) (hslot : ∀ n, s.InSlot n → s.Excused n) : Awaits s c k
  | given (command : Text) (f : InFlight) (hclear : s.Clear)
    (hreply : s.engine.reply? f.ticket = some (.transmitted (.ok f.number)))
    (hinFlight : s.inFlight = none) (hcut : s.cut = false) (hfate : Fate s.engine f) :
    Awaits s (.send command) f.ticket
  | asking (f : InFlight) (k : Nat) (hrequests : s.engine.requests = [.stats k])
    (hreply : s.engine.reply? k = none) : Awaits s .stats k
  | told (f : InFlight) (k : Nat) (stats : Stats) (hclear : s.Clear)
    (hreply : s.engine.reply? k = some (.stats stats)) (hinFlight : s.inFlight = some f)
    (hcut : s.cut = false) (hfate : Fate s.engine f) : Awaits s .stats k

namespace Stage

variable {s : Interplay τ ε}

theorem of_awaiting (h : s.Stage) {c : Call} {k : Nat} (hdoing : s.doing = .awaiting c k) :
    s.Awaits c k := by
  cases h with
  | apart left hasks h =>
    cases hasks with
    | nothing hd => rcases hd with hd | ⟨c', hd⟩ <;> cases hd.symm.trans hdoing
    | own c' k' hd hrequests hreply =>
      cases hd.symm.trans hdoing
      exact .queued c k left hrequests hreply h
  | written command k' o hd hwriting hrequests hreply hkept hinFlight hslot =>
    cases hd.symm.trans hdoing
    exact .written command k o hwriting hrequests hreply hinFlight hslot
  | answered c' k' reply hd hclear hreply hnumber hinFlight hslot =>
    cases hd.symm.trans hdoing
    exact .answered c k reply hclear hreply hnumber hinFlight hslot
  | held f h hwriting hcut hfate =>
    cases h with
    | given command hd hinFlight hreply hrequests =>
      cases hd.symm.trans hdoing
      exact .given command f ⟨hwriting, hrequests⟩ hreply hinFlight hcut hfate
    | inFlight hd => rcases hd with hd | hd <;> cases hd.symm.trans hdoing
    | asking k' hd hinFlight hrequests hreply =>
      cases hd.symm.trans hdoing
      exact .asking f k hrequests hreply
    | told k' stats hd hinFlight hrequests hreply =>
      cases hd.symm.trans hdoing
      exact .told f k stats ⟨hwriting, hrequests⟩ hreply hinFlight hcut hfate
    | waiting hd => cases hd.symm.trans hdoing

/-- Between two calls, and before a request is queued. -/
theorem of_free (h : s.Stage) (hdoing : s.doing = .nothing ∨ ∃ c, s.doing = .queueing c) :
    s.Apart s.engine.requests ∨ ∃ f, (s.doing = .nothing ∨ s.doing = .queueing .stats)
      ∧ s.inFlight = some f ∧ s.engine.requests = [] ∧ s.writing = none ∧ s.cut = false
      ∧ Fate s.engine f := by
  have hfree (c : Call) (k : Nat) : s.doing ≠ .awaiting c k := by
    rcases hdoing with hd | ⟨c', hd⟩ <;> rw [hd] <;> nofun
  cases h with
  | apart left hasks h =>
    cases hasks with
    | nothing _ hrequests =>
      rw [hrequests]
      exact .inl h
    | own c k hd => exact absurd hd (hfree c k)
  | written command k o hd => exact absurd hd (hfree _ k)
  | answered c k reply hd => exact absurd hd (hfree c k)
  | held f h hwriting hcut hfate =>
    cases h with
    | given command hd => exact absurd hd (hfree _ _)
    | inFlight hd hinFlight hrequests =>
      exact .inr ⟨f, hd, hinFlight, hrequests, hwriting, hcut, hfate⟩
    | asking k hd => exact absurd hd (hfree _ _)
    | told k stats hd => exact absurd hd (hfree _ _)
    | waiting hd => rcases hdoing with hd' | ⟨c, hd'⟩ <;> cases hd.symm.trans hd'

theorem of_waiting (h : s.Stage) {f : InFlight} (hdoing : s.doing = .waiting f) :
    s.inFlight = none ∧ s.Clear ∧ s.cut = false ∧ Fate s.engine f := by
  cases h with
  | apart left hasks =>
    cases hasks with
    | nothing hd => rcases hd with hd | ⟨c, hd⟩ <;> cases hd.symm.trans hdoing
    | own c k hd => cases hd.symm.trans hdoing
  | written command k o hd => cases hd.symm.trans hdoing
  | answered c k reply hd => cases hd.symm.trans hdoing
  | held g h hwriting hcut hfate =>
    cases h with
    | given command hd => cases hd.symm.trans hdoing
    | inFlight hd => rcases hd with hd | hd <;> cases hd.symm.trans hdoing
    | asking k hd => cases hd.symm.trans hdoing
    | told k stats hd => cases hd.symm.trans hdoing
    | waiting hd hinFlight hrequests =>
      cases hd.symm.trans hdoing
      exact ⟨hinFlight, ⟨hwriting, hrequests⟩, hcut, hfate⟩

end Stage

/-- Whose request the oldest one is. -/
inductive Oldest (s : Interplay τ ε) (r : Request) (rest : List Request) : Prop where
  | leftover (left : List Request) (hasks : s.Asks (r :: left)) (h : s.Apart (r :: left))
  | own (c : Call) (k : Nat) (hr : r = c.request k) (hrest : rest = [])
    (hdoing : s.doing = .awaiting c k) (hreply : s.engine.reply? k = none)
    (hkept : k ∉ s.engine.abandoned) (h : s.Apart [])
  | asking (f : InFlight) (k : Nat) (hr : r = .stats k) (hrest : rest = [])
    (hdoing : s.doing = .awaiting .stats k) (hinFlight : s.inFlight = some f)
    (hreply : s.engine.reply? k = none) (hcut : s.cut = false) (hfate : Fate s.engine f)

theorem Stage.oldest {s : Interplay τ ε} (h : s.Stage) {r : Request} {rest : List Request}
    (hrequests : s.engine.requests = r :: rest) : s.Oldest r rest := by
  cases h with
  | apart left hasks h =>
    cases hasks with
    | nothing hd hleft =>
      obtain rfl : left = r :: rest := hleft.symm.trans hrequests
      exact .leftover rest (.nothing hd hleft) h
    | own c k hd hleft hreply hkept =>
      cases left with
      | nil =>
        obtain ⟨hr, hrest⟩ := List.cons.inj (hrequests.symm.trans hleft)
        exact .own c k hr hrest hd hreply hkept h
      | cons r' left =>
        obtain ⟨rfl, -⟩ := List.cons.inj (hrequests.symm.trans hleft)
        exact .leftover left (.own c k hd hleft hreply hkept) h
  | written command k o hd hw hnone => cases hnone.symm.trans hrequests
  | answered c k reply hd hclear => cases hclear.2.symm.trans hrequests
  | held f h hwriting hcut hfate =>
    cases h with
    | given command hd hinFlight hreply hnone => cases hnone.symm.trans hrequests
    | inFlight hd hinFlight hnone => cases hnone.symm.trans hrequests
    | asking k hd hinFlight hone hreply hkept =>
      obtain ⟨hr, hrest⟩ := List.cons.inj (hrequests.symm.trans hone)
      exact .asking f k hr hrest hd hinFlight hreply hcut hfate
    | told k stats hd hinFlight hnone => cases hnone.symm.trans hrequests
    | waiting hd hinFlight hnone => cases hnone.symm.trans hrequests

/-- Once the oldest request is taken, the others stand as they stood. -/
theorem Asks.taken {s s' : Interplay τ ε} {r : Request} {left rest : List Request}
    (h : s.Asks (r :: left)) (hrequests : s.engine.requests = r :: rest)
    (hdoing : s'.doing = s.doing) (hrest : s'.engine.requests = rest)
    (hreplies : s'.engine.replies = s.engine.replies)
    (habandoned : s'.engine.abandoned = s.engine.abandoned) : s'.Asks left := by
  cases h with
  | nothing hd hleft =>
    rw [← hdoing] at hd
    exact .nothing hd (hrest.trans (List.cons.inj (hrequests.symm.trans hleft)).2)
  | own c k hd hleft hreply hkept =>
    refine .own c k (hdoing.trans hd) (hrest.trans (List.cons.inj (hrequests.symm.trans hleft)).2)
      ?_ ?_
    · unfold Engine.reply?
      rw [hreplies]
      exact hreply
    · rw [habandoned]
      exact hkept

/-- A number in the slot that is not about to be given up. -/
theorem Excused.of_head {s : Interplay τ ε} {n : Nat} (h : s.Excused n) {r : Request}
    {rest : List Request} (hrequests : s.engine.requests = r :: rest) (hr : r ≠ .cancel n) :
    (∃ k, s.writing = some (k, .ok n)) ∨ (∃ k, (k, n) ∈ s.late) ∨ s.cut = true := by
  rcases h with hhead | h
  · rw [hrequests] at hhead
    exact absurd (Option.some.inj hhead) hr
  · exact h

/-- A stage depends on the engine's queue and replies, and otherwise only on who is in the slot and
on what becomes of the command in flight. -/
theorem Stage.withEngine {s : Interplay τ ε} (h : s.Stage) (e : Engine τ ε)
    (produced : List Resolution) (hrequests : e.requests = s.engine.requests)
    (habandoned : e.abandoned = s.engine.abandoned) (hreplies : e.replies = s.engine.replies)
    (hslot : ∀ p, e.receiver.tracker.current = some p → s.InSlot p.number)
    (hfate : ∀ f, s.writing = none → Fate s.engine f → Fate e f) :
    Stage { s with engine := e, produced := produced } := by
  have hreply (k : Nat) : e.reply? k = s.engine.reply? k := by
    unfold Engine.reply?
    rw [hreplies]
  have hexcused (n : Nat)
      (hn : InSlot { s with engine := e, produced := produced } n)
      (hstill : ∀ n, s.InSlot n → s.Excused n) :
      Excused { s with engine := e, produced := produced } n := by
    obtain ⟨p, hp, rfl⟩ := hn
    have := hstill _ (hslot p hp)
    unfold Excused at this ⊢
    rw [hrequests]
    exact this
  have happart (left : List Request) (ha : s.Apart left) :
      Apart { s with engine := e, produced := produced } left := by
    refine ⟨ha.inFlight_eq, fun r hr => ?_, fun k o hw => ?_, fun n hn => hexcused n hn ha.slot⟩
    · have := ha.leftover r hr
      cases r with
      | transmit ticket command =>
        rw [Leftover, habandoned, hreply]
        exact this
      | _ => exact this
    · rw [habandoned]
      exact ha.writing k o hw
  cases h with
  | apart left hasks ha =>
    refine .apart left ?_ (happart left ha)
    cases hasks with
    | nothing hd hleft => exact .nothing hd (hrequests.trans hleft)
    | own c k hd hleft hnone hkept =>
      exact .own c k hd (hrequests.trans hleft) ((hreply k).trans hnone) (habandoned ▸ hkept)
  | written command k o hd hw hnone hnew hkept hinFlight hstill houtcome =>
    exact .written command k o hd hw (hrequests.trans hnone) ((hreply k).trans hnew)
      (habandoned ▸ hkept) hinFlight (fun n hn => hexcused n hn hstill) houtcome
  | answered c k reply hd hclear hsome hnumber hinFlight hstill =>
    exact .answered c k reply hd ⟨hclear.1, hrequests.trans hclear.2⟩ ((hreply k).trans hsome)
      hnumber hinFlight fun n hn => hexcused n hn hstill
  | held f hf hwriting hcut hfate' =>
    refine .held f ?_ hwriting hcut (hfate f hwriting hfate')
    cases hf with
    | given command hd hinFlight hsome hnone =>
      exact .given command hd hinFlight ((hreply _).trans hsome) (hrequests.trans hnone)
    | inFlight hd hinFlight hnone => exact .inFlight hd hinFlight (hrequests.trans hnone)
    | asking k hd hinFlight hone hnew hkept =>
      exact .asking k hd hinFlight (hrequests.trans hone) ((hreply k).trans hnew)
        (habandoned ▸ hkept)
    | told k stats hd hinFlight hnone hsome =>
      exact .told k stats hd hinFlight (hrequests.trans hnone) ((hreply k).trans hsome)
    | waiting hd hinFlight hnone => exact .waiting hd hinFlight (hrequests.trans hnone)

end Interplay

end ModemLink
