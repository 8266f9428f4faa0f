/-
The trace of every number.

A number is drawn when a command is begun, is given to the ticket of its send, and goes from there into
a wait, or to nobody. `Traced` follows it: which ticket it belongs to, whether it was taken, whether a
dropped send has left it standing, and where it ends.
-/
import ModemLink.Proofs.Session.Serving

set_option autoImplicit false

namespace ModemLink

theorem Engine.mem_requests_submit {τ ε : Type} (e : Engine τ ε) {request : Nat → Request}
    {r : Request} (h : r ∈ (e.submit request).2.requests) :
    r ∈ e.requests ∨ r = request e.nextTicket := by
  unfold submit at h
  split at h
  · rw [List.mem_append, List.mem_singleton] at h
    exact h
  · exact .inl h

theorem Engine.mem_requests_submitCancel {τ ε : Type} (e : Engine τ ε) {number : Nat}
    {r : Request} (h : r ∈ (e.submitCancel number).requests) :
    r ∈ e.requests ∨ r = .cancel number := by
  unfold submitCancel at h
  split at h
  · rw [List.mem_append, List.mem_singleton] at h
    exact h
  · exact .inl h

theorem Tracker.cancel_of_ne {t : Tracker} {p : Pending} {n : Nat} (hp : t.current = some p)
    (hn : p.number ≠ n) : (t.cancel n).2 = t := by
  unfold cancel
  rw [hp, Option.map_some, if_neg fun h => hn (Option.some.inj h)]

namespace Interplay

variable {τ ε : Type}

/-! ## The invariant -/

/-- A ticket was answered with a number. -/
def Given (s : Interplay τ ε) (k n : Nat) : Prop :=
  s.engine.reply? k = some (.transmitted (.ok n))

/-- A number was resolved. -/
def Confirmed (s : Interplay τ ε) (n : Nat) : Prop := ∃ res ∈ s.produced, res.number = n

/-- The application took the number from its reply. -/
def Taken (s : Interplay τ ε) (k n : Nat) : Prop :=
  s.Given k n ∧ k ∉ s.engine.abandoned ∧ ∀ c, s.doing ≠ .awaiting c k

/-- **The trace of every number.** -/
structure Traced (s : Interplay τ ε) : Prop where
  -- numbers come from a counter, and each is in the slot or resolved at most once
  numbers : Drawn s.engine.receiver.tracker.next (s.begun.map Prod.snd)
  once : Drawn s.engine.receiver.tracker.next
    (s.engine.receiver.tracker.inFlight ++ s.produced.map Resolution.number)
  -- the number in the slot is just being written, or was given to its ticket
  slot : ∀ n, s.InSlot n → (∃ k, s.writing = some (k, .ok n)) ∨ ∃ k, s.Given k n
  given_begun : ∀ k n, s.Given k n → (k, n) ∈ s.begun
  writing_begun : ∀ k n, s.writing = some (k, .ok n) → (k, n) ∈ s.begun
  -- a send whose number stood there was dropped too late
  dropped : ∀ k n, k ∈ s.engine.abandoned → s.Given k n → (k, n) ∈ s.late
  late : ∀ k n, (k, n) ∈ s.late → k ∈ s.engine.abandoned ∧ s.Given k n
  -- a number that nobody took is never given up
  stands : ∀ k n, s.Given k n → ((k, n) ∈ s.late ∨ ∃ c, s.doing = .awaiting c k) →
    s.InSlot n ∨ s.Confirmed n
  cancels : ∀ n, .cancel n ∈ s.engine.requests → ∃ k, s.Taken k n
  held : ∀ f, (s.inFlight = some f ∨ s.doing = .waiting f) → s.Taken f.ticket f.number
  awaits : ∀ c k, s.doing = .awaiting c k → k ∉ s.engine.abandoned

namespace Traced

variable {s : Interplay τ ε}

/-- A number was begun under one ticket only. -/
theorem ticket_unique (h : s.Traced) {j k n : Nat} (hj : (j, n) ∈ s.begun) (hk : (k, n) ∈ s.begun) :
    j = k :=
  congrArg Prod.fst (List.inj_on_of_nodup_map h.numbers.nodup hj hk rfl)

theorem not_inSlot_of_confirmed (h : s.Traced) {n : Nat} (hn : s.Confirmed n) : ¬ s.InSlot n := by
  rintro ⟨p, hp, rfl⟩
  obtain ⟨res, hres, hnumber⟩ := hn
  have hnodup := h.once.nodup
  unfold Tracker.inFlight at hnodup
  rw [hp] at hnodup
  have hfresh := (List.nodup_cons.mp hnodup).1
  exact hfresh (List.mem_map.mpr ⟨res, hres, hnumber⟩)

/-! ## The application -/

theorem taken_of_doing {k n : Nat} (h : s.Taken k n) (d : Doing) (hd : ∀ c k, d ≠ .awaiting c k) :
    Taken { s with doing := d } k n :=
  ⟨h.1, h.2.1, fun c => hd c k⟩

/-- The application turns to something that is no call awaiting its reply. -/
theorem withDoing (h : s.Traced) (d : Doing) (hd : ∀ c k, d ≠ .awaiting c k)
    (hf : ∀ f, d = .waiting f → s.Taken f.ticket f.number) : Traced { s with doing := d } :=
  { h with
    stands := fun k n hn hwho => h.stands k n hn (hwho.imp_right fun ⟨c, hc⟩ => absurd hc (hd c k))
    cancels := fun n hn => by
      obtain ⟨k, hk⟩ := h.cancels n hn
      exact ⟨k, taken_of_doing hk d hd⟩
    held := fun f hheld => by
      rcases hheld with hheld | hheld
      · exact taken_of_doing (h.held f (.inl hheld)) d hd
      · exact taken_of_doing (hf f hheld) d hd
    awaits := fun c k hc => absurd hc (hd c k) }

theorem call (h : s.Traced) (c : Call) : (s.call c).Traced := by
  unfold Interplay.call
  split
  · simp only
    split
    · exact { h.withDoing .nothing nofun nofun with }
    · exact { h.withDoing (.queueing c) nofun nofun with }
  · exact h

theorem enqueue (h : s.Traced) (hsound : s.Sound) : s.enqueue.Traced := by
  unfold Interplay.enqueue
  split
  · rename_i c hdoing
    split
    · exact h
    · -- the ticket is a new one, so it is nobody else's
      have hnew (k n : Nat) (hn : s.Given k n) : s.engine.nextTicket ≠ k := by
        intro heq
        rw [Given, ← heq, hsound.reply?_nextTicket] at hn
        cases hn
      have htaken {k n : Nat} (hk : s.Taken k n) : Taken { s with
          engine := (s.engine.submit c.request).2
          doing := .awaiting c s.engine.nextTicket } k n :=
        ⟨hk.1, hk.2.1, fun c' hc' => hnew k n hk.1 (Doing.awaiting.inj hc').2⟩
      exact { h with
        stands := fun k n hn hwho => by
          refine h.stands k n hn (hwho.imp_right fun ⟨c', hc'⟩ => ?_)
          exact absurd (Doing.awaiting.inj hc').2 (hnew k n hn)
        cancels := fun n hn => by
          have hn' : .cancel n ∈ s.engine.requests := by
            rcases s.engine.mem_requests_submit hn with hn' | hn'
            · exact hn'
            · cases c <;> cases hn'
          obtain ⟨k, hk⟩ := h.cancels n hn'
          exact ⟨k, htaken hk⟩
        held := fun f hheld => by
          rcases hheld with hheld | hheld
          · exact htaken (h.held f (.inl hheld))
          · cases hheld
        awaits := fun c' k hc' => by
          cases hc'
          exact hsound.nextTicket_not_mem_abandoned }
  · exact h

theorem setPollStep (h : s.Traced) (step : Nat) : (s.setPollStep step).Traced := by
  unfold Interplay.setPollStep
  split
  · split
    · exact { h with
        cancels := fun n hn => by
          have hn' : .cancel n ∈ (s.engine.submit fun _ => .setPollStep step).2.requests := hn
          rcases s.engine.mem_requests_submit hn' with hn' | hn'
          · exact h.cancels n hn'
          · cases hn' }
    · exact h
  · exact h

/-- **A send that is dropped** while its number stands there leaves it standing. -/
theorem drop_awaiting (h : s.Traced) {command : Text} {k : Nat}
    (hdoing : s.doing = .awaiting (.send command) k) {late : List (Nat × Nat)}
    (hmore : ∀ x ∈ s.late, x ∈ late) (hgiven : ∀ n, s.Given k n → (k, n) ∈ late)
    (hnew : ∀ j n, (j, n) ∈ late → (j, n) ∈ s.late ∨ j = k ∧ s.Given k n) :
    Traced { s with doing := .nothing, engine := s.engine.abandon k, late := late } := by
  have htaken {j n : Nat} (hj : s.Taken j n) :
      Taken { s with doing := .nothing, engine := s.engine.abandon k } j n := by
    refine ⟨hj.1, fun hmem => ?_, nofun⟩
    rcases List.mem_cons.mp hmem with rfl | hmem
    · exact hj.2.2 _ hdoing
    · exact hj.2.1 hmem
  exact { h with
    dropped := fun j n hj hn => by
      rcases List.mem_cons.mp hj with rfl | hj
      · exact hgiven n hn
      · exact hmore _ (h.dropped j n hj hn)
    late := fun j n hjn => by
      rcases hnew j n hjn with hjn | ⟨rfl, hn⟩
      · exact ⟨List.mem_cons_of_mem _ (h.late j n hjn).1, (h.late j n hjn).2⟩
      · exact ⟨List.mem_cons_self, hn⟩
    stands := fun j n hn hwho => by
      rcases hwho with hjn | ⟨c, hc⟩
      · rcases hnew j n hjn with hjn | ⟨rfl, -⟩
        · exact h.stands j n hn (.inl hjn)
        · exact h.stands j n hn (.inr ⟨_, hdoing⟩)
      · cases hc
    cancels := fun n hn => by
      obtain ⟨j, hj⟩ := h.cancels n hn
      exact ⟨j, htaken hj⟩
    held := fun f hheld => by
      rcases hheld with hheld | hheld
      · exact htaken (h.held f (.inl hheld))
      · cases hheld
    awaits := nofun }

theorem drop (h : s.Traced) : s.drop.Traced := by
  unfold Interplay.drop
  split
  · exact h.withDoing .nothing nofun nofun
  · rename_i command k hdoing
    apply h.drop_awaiting hdoing
    · intro x hx
      split
      · exact List.mem_cons_of_mem _ hx
      · exact hx
    · intro n hn
      rw [Engine.given?_eq_some.mpr hn]
      exact List.mem_cons_self
    · intro j n hjn
      split at hjn
      · rename_i number hgiven
        rcases List.mem_cons.mp hjn with heq | hjn
        · cases heq
          exact .inr ⟨rfl, Engine.given?_eq_some.mp hgiven⟩
        · exact .inl hjn
      · exact .inl hjn
  · exact h

theorem take (h : s.Traced) : s.take.Traced := by
  unfold Interplay.take
  split
  · rename_i c k hdoing
    have hret (outcome : Except Error Unit) : (s.ret c outcome).Traced :=
      { h.withDoing .nothing nofun nofun with }
    split
    · rename_i _ n hgiven
      have hn : s.Given k n := Engine.given?_eq_some.mp hgiven
      exact { hret (.ok ()) with
        held := fun f hheld => by
          rcases hheld with hheld | hheld
          · cases hheld
            exact ⟨hn, h.awaits c k hdoing, nofun⟩
          · cases hheld }
    · exact hret _
    · split
      · exact h
      · exact hret _
  · exact h

theorem wait (h : s.Traced) : s.wait.Traced := by
  unfold Interplay.wait
  split
  · rename_i f hdoing hf
    have hwait := h.withDoing (.waiting f) nofun fun f' hf' => by
      cases hf'
      exact h.held f (.inl hf)
    exact { hwait with
      held := fun f' hheld => by
        rcases hheld with hheld | hheld
        · cases hheld
        · exact hwait.held f' (.inr hheld) }
  · exact h

theorem look (h : s.Traced) : s.look.Traced := by
  unfold Interplay.look
  split
  · split
    · rename_i r engine hcollect
      obtain rfl : _ = engine := congrArg Prod.snd hcollect
      exact { h.withDoing .nothing nofun nofun with }
    · exact { h.withDoing .nothing nofun nofun with }
    · exact h
  · exact h

theorem giveUp (h : s.Traced) : s.giveUp.Traced := by
  unfold Interplay.giveUp
  split
  · rename_i f hdoing
    have hgiveUp := h.withDoing .nothing nofun nofun
    -- there may be no room for the wish
    have hengine : s.engine.submitCancel f.number = { s.engine with
        requests := (s.engine.submitCancel f.number).requests } := by
      unfold Engine.submitCancel
      split <;> rfl
    rw [hengine]
    exact { hgiveUp with
      cancels := fun n hn => by
        rcases s.engine.mem_requests_submitCancel hn with hn' | hn'
        · exact hgiveUp.cancels n hn'
        · cases hn'
          exact ⟨f.ticket, taken_of_doing (h.held f (.inr hdoing)) .nothing nofun⟩ }
  · exact h

/-! ## The engine -/

/-- Requests leave the queue. -/
theorem withRequests (h : s.Traced) {rest : List Request}
    (hrest : ∀ r ∈ rest, r ∈ s.engine.requests) :
    Traced { s with engine := { s.engine with requests := rest } } :=
  { h with cancels := fun n hn => h.cancels n (hrest _ hn) }

/-- The receive path becomes another one with the same slot. -/
theorem withReceiver (h : s.Traced) (r : Receiver ε)
    (htracker : r.tracker = s.engine.receiver.tracker) :
    Traced { s with engine := { s.engine with receiver := r } } := by
  have hslot (n : Nat) : InSlot { s with engine := { s.engine with receiver := r } } n ↔ s.InSlot n := by
    unfold InSlot
    rw [htracker]
  exact { h with
    numbers := by
      rw [htracker]
      exact h.numbers
    once := by
      rw [htracker]
      exact h.once
    slot := fun n hn => h.slot n ((hslot n).mp hn)
    stands := fun k n hn hwho => (h.stands k n hn hwho).imp_left (hslot n).mpr }

/-- Something else is being written, or nothing. -/
theorem withWriting (h : s.Traced) (writing : Option (Nat × Except Error Nat))
    (hslot : ∀ n, s.InSlot n → (∃ k, writing = some (k, .ok n)) ∨ ∃ k, s.Given k n)
    (hbegun : ∀ k n, writing = some (k, .ok n) → (k, n) ∈ s.begun) :
    Traced { s with writing := writing } :=
  { h with
    slot := hslot
    writing_begun := hbegun }

/-- What is given once a reply stands under a ticket that had none. -/
theorem given_post {ticket : Nat} (hnew : s.engine.reply? ticket = none) {e : Engine τ ε}
    (hreplies : e.replies = s.engine.replies) {reply : Reply} {k n : Nat} :
    Given { s with engine := e.post ticket reply } k n
      ↔ (k = ticket ∧ reply = .transmitted (.ok n)) ∨ s.Given k n := by
  have hkept (j : Nat) : e.reply? j = s.engine.reply? j := congrArg (List.lookup j) hreplies
  unfold Given
  by_cases hk : k = ticket
  · subst hk
    rw [Engine.reply?_post_self, hnew]
    constructor
    · intro heq
      exact .inl ⟨rfl, Option.some.inj heq⟩
    · rintro (⟨-, heq⟩ | heq)
      · exact congrArg some heq
      · cases heq
  · rw [Engine.reply?_post_of_ne _ reply hk, hkept]
    constructor
    · exact .inr
    · rintro (⟨heq, -⟩ | heq)
      · exact absurd heq hk
      · exact heq

/-- A reply without a number, under a ticket that had none. -/
theorem post (h : s.Traced) {ticket : Nat} (hnew : s.engine.reply? ticket = none) {reply : Reply}
    (hreply : ∀ n, reply ≠ .transmitted (.ok n)) :
    Traced { s with engine := s.engine.post ticket reply } := by
  have hgiven (k n : Nat) :
      Given { s with engine := s.engine.post ticket reply } k n ↔ s.Given k n := by
    rw [given_post hnew rfl]
    exact or_iff_right fun hself => hreply n hself.2
  have htaken {k n : Nat} (hk : s.Taken k n) :
      Taken { s with engine := s.engine.post ticket reply } k n :=
    ⟨(hgiven k n).mpr hk.1, hk.2⟩
  exact { h with
    slot := fun n hn => (h.slot n hn).imp_right fun ⟨k, hk⟩ => ⟨k, (hgiven k n).mpr hk⟩
    given_begun := fun k n hn => h.given_begun k n ((hgiven k n).mp hn)
    dropped := fun k n hk hn => h.dropped k n hk ((hgiven k n).mp hn)
    late := fun k n hkn => ⟨(h.late k n hkn).1, (hgiven k n).mpr (h.late k n hkn).2⟩
    stands := fun k n hn hwho => h.stands k n ((hgiven k n).mp hn) hwho
    cancels := fun n hn => by
      obtain ⟨k, hk⟩ := h.cancels n hn
      exact ⟨k, htaken hk⟩
    held := fun f hf => htaken (h.held f hf) }

/-- A number is given up that no dropped send and no call has left standing. -/
theorem cancel (h : s.Traced) (number : Nat) (waiter : Option Waiter)
    (hwho : ∀ k, s.Given k number → ¬ ((k, number) ∈ s.late ∨ ∃ c, s.doing = .awaiting c k)) :
    Traced { s with
      engine := { s.engine with receiver := (s.engine.receiver.cancel number).2, waiter := waiter } } :=
  { h with
    numbers := by
      show Drawn (s.engine.receiver.tracker.cancel number).2.next _
      rw [Tracker.cancel_next]
      exact h.numbers
    once := by
      show Drawn (s.engine.receiver.tracker.cancel number).2.next
        ((s.engine.receiver.tracker.cancel number).2.inFlight ++ _)
      rw [Tracker.cancel_next, Tracker.cancel_inFlight]
      exact h.once.of_count_le (Nat.le_refl _) fun n =>
        (List.filter_sublist.append_right _).count_le n
    slot := fun n hn => by
      obtain ⟨p, hp, rfl⟩ := hn
      exact h.slot _ ⟨p, (Tracker.current_cancel hp).1, rfl⟩
    stands := fun k n hn hstill => by
      rcases h.stands k n hn hstill with ⟨p, hp, rfl⟩ | hconfirmed
      · by_cases hnumber : p.number = number
        · rw [hnumber] at hn hstill
          exact absurd hstill (hwho k hn)
        · refine .inl ⟨p, ?_, rfl⟩
          show (s.engine.receiver.tracker.cancel number).2.current = some p
          rw [Tracker.cancel_of_ne hp hnumber]
          exact hp
      · exact .inr hconfirmed }

/-- **A command is begun.** Its number is a new one, and the slot was empty. -/
theorem begin (h : s.Traced) (hidle : s.engine.receiver.tracker.current = none) (ticket : Nat)
    (r : Receiver ε) (link : τ) (o : Except Error Nat)
    (hnext : r.tracker.next = s.engine.receiver.tracker.next + 1)
    (hslot : ∀ p, r.tracker.current = some p →
      p.number = s.engine.receiver.tracker.next ∧ o = .ok p.number)
    (ho : ∀ n, o = .ok n → n = s.engine.receiver.tracker.next) :
    Traced { s with
      engine := { s.engine with receiver := r, transport := link }
      writing := some (ticket, o)
      begun := (ticket, s.engine.receiver.tracker.next) :: s.begun } :=
  { h with
    numbers := by
      show Drawn r.tracker.next _
      rw [hnext]
      refine h.numbers.draw fun n => ?_
      simp only [List.map_cons, List.count_cons, List.count_nil]
      omega
    once := by
      have honce := h.once
      unfold Tracker.inFlight at honce
      rw [hidle, Option.map_none, Option.toList_none, List.nil_append] at honce
      show Drawn r.tracker.next (r.tracker.inFlight ++ _)
      unfold Tracker.inFlight
      rw [hnext]
      cases hp : r.tracker.current with
      | none => exact honce.of_count_le (Nat.le_succ _) fun _ => Nat.le_refl _
      | some p =>
        refine honce.draw fun n => Nat.le_of_eq ?_
        rw [Option.map_some, Option.toList_some, (hslot p hp).1, List.count_append]
    slot := fun n hn => by
      obtain ⟨p, hp, rfl⟩ := hn
      exact .inl ⟨ticket, by rw [(hslot p hp).2]⟩
    given_begun := fun k n hn => List.mem_cons_of_mem _ (h.given_begun k n hn)
    writing_begun := fun k n hw => by
      obtain ⟨rfl, ho'⟩ := Prod.mk.inj (Option.some.inj hw)
      rw [ho n ho']
      exact List.mem_cons_self
    stands := fun k n hn hwho => by
      rcases h.stands k n hn hwho with ⟨p, hp, -⟩ | hconfirmed
      · cases hidle.symm.trans hp
      · exact .inr hconfirmed }

/-- Bytes are read. What was in the slot is there still, or is resolved. -/
theorem read (h : s.Traced) {r : Receiver ε} {resolutions : List Resolution}
    (hfollows : s.engine.receiver.tracker.Follows r.tracker resolutions) :
    Traced { s with
      engine := { s.engine with receiver := r }
      produced := s.produced ++ resolutions } :=
  { h with
    numbers := by
      show Drawn r.tracker.next _
      rw [hfollows.next_eq]
      exact h.numbers
    once := by
      refine h.once.of_count_le (Nat.le_of_eq hfollows.next_eq.symm) fun n => ?_
      have hcount := hfollows.count_eq n
      simp only [List.map_append, List.count_append]
      omega
    slot := fun n hn => by
      obtain ⟨p, hp, rfl⟩ := hn
      exact h.slot _ (Sound.inSlot_of_follows hfollows hp)
    stands := fun k n hn hwho => by
      rcases h.stands k n hn hwho with ⟨p, hp, rfl⟩ | ⟨res, hres, hnumber⟩
      · cases hfollows with
        | idle hnone => cases hnone.symm.trans hp
        | kept q q' hq hq' hnumber =>
          cases hq.symm.trans hp
          exact .inl ⟨q', hq', hnumber⟩
        | ended q res hq hq' hnumber =>
          cases hq.symm.trans hp
          exact .inr ⟨res, List.mem_append_right _ (List.mem_singleton.mpr rfl), hnumber⟩
      · exact .inr ⟨res, List.mem_append_left _ hres, hnumber⟩ }

/-- The send that is still there is given its number. -/
theorem give (h : s.Traced) (hsound : s.Sound) {k n : Nat}
    (hwriting : s.writing = some (k, .ok n)) (hkept : k ∉ s.engine.abandoned) :
    Traced { s with
      writing := none
      engine := { s.engine with waiter := some ⟨n, k⟩ }.post k (.transmitted (.ok n)) } := by
  have hnew := hsound.writing_new k _ hwriting
  have hgiven {j m : Nat} : Given { s with
      writing := none
      engine := { s.engine with waiter := some ⟨n, k⟩ }.post k (.transmitted (.ok n)) } j m
      ↔ (j = k ∧ Reply.transmitted (.ok n) = .transmitted (.ok m)) ∨ s.Given j m :=
    given_post hnew rfl
  have htaken {j m : Nat} (hj : s.Taken j m) : Taken { s with
      writing := none
      engine := { s.engine with waiter := some ⟨n, k⟩ }.post k (.transmitted (.ok n)) } j m :=
    ⟨hgiven.mpr (.inr hj.1), hj.2⟩
  exact { h with
    slot := fun m hm => by
      rcases h.slot m hm with ⟨j, hj⟩ | ⟨j, hj⟩
      · cases hwriting.symm.trans hj
        exact .inr ⟨k, hgiven.mpr (.inl ⟨rfl, rfl⟩)⟩
      · exact .inr ⟨j, hgiven.mpr (.inr hj)⟩
    given_begun := fun j m hj => by
      rcases hgiven.mp hj with ⟨rfl, heq⟩ | hj
      · cases heq
        exact h.writing_begun _ _ hwriting
      · exact h.given_begun j m hj
    writing_begun := nofun
    dropped := fun j m hdropped hj => by
      rcases hgiven.mp hj with ⟨rfl, -⟩ | hj
      · exact absurd hdropped hkept
      · exact h.dropped j m hdropped hj
    late := fun j m hjm => ⟨(h.late j m hjm).1, hgiven.mpr (.inr (h.late j m hjm).2)⟩
    stands := fun j m hj hwho => by
      rcases hgiven.mp hj with ⟨rfl, heq⟩ | hj
      · cases heq
        exact .inl (hsound.writing_slot _ _ hwriting)
      · exact h.stands j m hj hwho
    cancels := fun m hm => by
      obtain ⟨j, hj⟩ := h.cancels m hm
      exact ⟨j, htaken hj⟩
    held := fun f hf => htaken (h.held f hf) }

/-! ## Runs -/

theorem served (h : s.Traced) (hsound : s.Sound) (hwriting : s.writing = none)
    {s' : Interplay τ ε} [Transport τ] (hserved : s.Served s') : s'.Traced := by
  have hrest {r : Request} {rest : List Request} (hrequests : s.engine.requests = r :: rest) :
      Traced { s with engine := { s.engine with requests := rest } } :=
    h.withRequests fun r' hr' => hrequests ▸ List.mem_cons_of_mem _ hr'
  cases hserved with
  | nothing hrequests => exact h
  | cancel number rest hrequests =>
    -- who asks for a number to be given up has taken it
    obtain ⟨k, hgiven, hkept, hover⟩ := h.cancels number (hrequests ▸ List.mem_cons_self)
    refine (hrest hrequests).cancel number _ fun j hj hwho => ?_
    obtain rfl := h.ticket_unique (h.given_begun j _ hj) (h.given_begun k _ hgiven)
    rcases hwho with hlate | ⟨c, hc⟩
    · exact hkept (h.late _ _ hlate).1
    · exact hover c hc
  | pollStep step rest hrequests => exact { hrest hrequests with }
  | refused ticket command rest err hrequests =>
    refine (hrest hrequests).withWriting _ (fun n hn => ?_) nofun
    rcases h.slot n hn with ⟨k, hk⟩ | hgiven
    · cases hwriting.symm.trans hk
    · exact .inr hgiven
  | failed ticket command rest r link now err hrequests hconnected hidle htracker =>
    refine (hrest hrequests).begin hidle ticket r link _ ?_ (fun p hp => ?_) nofun
    · rw [htracker]
    · rw [htracker] at hp
      cases hp
  | begun ticket command rest r p link hrequests hconnected hidle htracker hp =>
    rw [hp]
    refine (hrest hrequests).begin hidle ticket r link _ ?_ (fun p' hp' => ?_) (fun n hn => ?_)
    · rw [htracker]
    · rw [htracker] at hp'
      cases hp'
      exact ⟨hp, by rw [hp]⟩
    · cases hn
      rfl
  | configured ticket t rest r outcome hrequests htracker =>
    exact ((hrest hrequests).withReceiver r htracker).post (hsound.unanswered hrequests rfl) nofun
  | stats ticket rest stats hrequests =>
    exact (hrest hrequests).post (hsound.unanswered hrequests rfl) nofun
  | shutdown ticket rest hrequests => exact absurd hrequests hsound.not_shutdown

theorem serve (h : s.Traced) (hsound : s.Sound) [Transport τ] (now : Nat) :
    (s.serve now).Traced := by
  by_cases hwriting : s.writing = none
  · exact h.served hsound hwriting (serve_served s now hwriting)
  · rw [serve_of_writing now (Option.isSome_iff_ne_none.mpr hwriting)]
    exact h

theorem answer (h : s.Traced) (hsound : s.Sound) : s.answer.Traced := by
  unfold Interplay.answer
  split
  · rename_i k o hwriting
    -- what is not the number just written was given before
    have hother {n : Nat} (hn : s.InSlot n) (ho : o ≠ .ok n) : ∃ j, s.Given j n := by
      rcases h.slot n hn with ⟨j, hj⟩ | hgiven
      · cases hwriting.symm.trans hj
        exact absurd rfl ho
      · exact hgiven
    unfold Engine.answerTransmit
    by_cases habandoned : k ∈ s.engine.abandoned
    · cases o with
      | ok n =>
        simp only [if_pos habandoned]
        have hcancel := h.cancel n none fun j hj _ => by
          obtain rfl := h.ticket_unique (h.given_begun j n hj) (h.writing_begun k n hwriting)
          cases (hsound.writing_new j _ hwriting).symm.trans hj
        refine hcancel.withWriting none (fun m hm => .inr ?_) nofun
        obtain ⟨p, hp, rfl⟩ := hm
        obtain ⟨hp, hne⟩ := Tracker.current_cancel hp
        exact hother ⟨p, hp, rfl⟩ fun heq => hne (Except.ok.inj heq).symm
      | error err =>
        simp only [if_pos habandoned]
        exact h.withWriting none (fun n hn => .inr (hother hn nofun)) nofun
    · cases o with
      | ok n =>
        simp only [if_neg habandoned]
        exact h.give hsound hwriting habandoned
      | error err =>
        simp only [if_neg habandoned]
        have hanswered := h.withWriting none (fun n hn => .inr (hother hn nofun)) nofun
        exact hanswered.post (hsound.writing_new k _ hwriting) nofun
  · exact h

theorem heard (h : s.Traced) {e : Engine τ ε} {resolutions : List Resolution}
    (hheard : s.engine.Heard e resolutions) :
    Traced { s with engine := e, produced := s.produced ++ resolutions } := by
  cases hheard with
  | nothing =>
    rw [List.append_nil]
    exact h
  | failed =>
    rw [List.append_nil]
    exact { h with }
  | kept r q hfollows => exact { h.read hfollows with }
  | passed r q res w now hfollows => exact { h.read hfollows with }
  | unheard r q res hfollows => exact { h.read hfollows with }

theorem step [Transport τ] (h : s.Traced) (hsound : s.Sound) (act : Act τ ε) :
    (s.step act).Traced := by
  cases act with
  | call c => exact h.call c
  | enqueue => exact h.enqueue hsound
  | setPollStep step => exact h.setPollStep step
  | drop => exact h.drop
  | take => exact h.take
  | wait => exact h.wait
  | look => exact h.look
  | giveUp => exact h.giveUp
  | serve now => exact h.serve hsound now
  | answer => exact h.answer hsound
  | read now outcome =>
    simp only [Interplay.step, Interplay.read]
    split
    · exact h.heard (Engine.received_heard _ now outcome)
    · exact h
  | link link => exact { h with }
  | events q => exact { h with }
  | stop =>
    simp only [Interplay.step]
    split
    · exact { h with cancels := fun _ hmem => by cases hmem }
    · exact h

theorem foldl_step [Transport τ] (hlink : Transport.NeverBusy τ) (acts : List (Act τ ε))
    (h : s.Traced) (hsound : s.Sound) : (acts.foldl Interplay.step s).Traced := by
  induction acts generalizing s with
  | nil => exact h
  | cons act acts ih => exact ih (h.step hsound act) (hsound.step hlink act)

end Traced

/-- **Every number of every run is traced.** -/
theorem of_traced [Transport τ] (hlink : Transport.NeverBusy τ) (config : Config)
    (table : EventTable ε) (link : τ) (acts : List (Act τ ε)) :
    (of config table link acts).Traced := by
  refine .foldl_step hlink acts ?_ (.start config table link)
  exact {
    numbers := fun _ => Nat.zero_le _
    once := fun _ => Nat.zero_le _
    slot := fun _ ⟨_, hp, _⟩ => nomatch hp
    given_begun := fun _ _ => nofun
    writing_begun := fun _ _ => nofun
    dropped := fun _ _ => nofun
    late := fun _ _ => nofun
    stands := fun _ _ => nofun
    cancels := fun _ => nofun
    held := fun _ hf => by rcases hf with hf | hf <;> cases hf
    awaits := fun _ _ => nofun }

end Interplay

end ModemLink
