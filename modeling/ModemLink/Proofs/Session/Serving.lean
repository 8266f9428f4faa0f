/-
The engine's steps keep the two parties sound: it serves requests, answers what it has written, reads,
and ends. With the application's steps that makes every run sound.

A link's own failures are never called busy; that word is for a command in flight.
-/
import ModemLink.Proofs.Session.Calling

set_option autoImplicit false

namespace ModemLink

/-- Whatever makes sending fail, it is not that something else is busy. -/
def Transport.NeverBusy (τ : Type) [Transport τ] : Prop :=
  ∀ (now : Nat) (bytes : Bytes) (link link' : τ) (err : Error),
    send now bytes link = (.error err, link') → err ≠ .busy

theorem Link.neverBusy : Transport.NeverBusy Link := by
  intro now bytes link link' err hsend
  have hsent : link.send now bytes = (.error err, link') := hsend
  unfold Link.send at hsent
  split at hsent
  · cases hsent
    exact nofun
  · simp only at hsent
    split at hsent
    · cases hsent
    · split at hsent
      · cases hsent
      · cases hsent
        exact nofun

namespace Interplay

variable {τ ε : Type} {s : Interplay τ ε}

/-- While the engine writes, it serves nothing. -/
theorem serve_of_writing [Transport τ] (now : Nat) (h : s.writing.isSome = true) :
    s.serve now = s := by
  unfold serve
  rw [if_pos h]

namespace Sound

/-! ## Serving -/

theorem running_of_request (h : s.Sound) {r : Request} {rest : List Request}
    (hrequests : s.engine.requests = r :: rest) : s.engine.running = true := by
  by_contra hnot
  cases (h.ended (Bool.eq_false_iff.mpr hnot)).2.symm.trans hrequests

/-- The oldest request has no reply yet. -/
theorem unanswered (h : s.Sound) {r : Request} {rest : List Request}
    (hrequests : s.engine.requests = r :: rest) {k : Nat} (hticket : r.ticket? = some k) :
    s.engine.reply? k = none := by
  cases (h.stage (h.running_of_request hrequests)).oldest hrequests with
  | leftover left hasks ha =>
    have hleft := ha.leftover r List.mem_cons_self
    cases r with
    | transmit ticket command =>
      cases hticket
      exact hleft.2
    | cancel number => cases hticket
    | setPollStep step => cases hticket
    | _ => cases hleft
  | own c j hr hrest hdoing hreply =>
    cases c <;> cases hr <;> cases hticket <;> exact hreply
  | asking f j hr hrest hdoing hinFlight hreply =>
    cases hr
    cases hticket
    exact hreply

/-- While the oldest request is not the wish to give up a number, nothing is written and no send was
dropped too late, only a wait that was cut off leaves a number in the slot. -/
theorem inSlot_iff_cut (h : s.Sound) (hwriting : s.writing = none) {r : Request}
    {rest : List Request} (hrequests : s.engine.requests = r :: rest) (hr : ∀ n, r ≠ .cancel n)
    (hslot : ∀ n, s.InSlot n → s.Excused n) (hlate : s.late = []) :
    (∃ n, s.InSlot n) ↔ s.cut = true := by
  constructor
  · rintro ⟨n, hn⟩
    rcases (hslot n hn).of_head hrequests (hr n) with ⟨k, hw⟩ | ⟨k, hk⟩ | hcut
    · cases hwriting.symm.trans hw
    · rw [hlate] at hk
      cases hk
    · exact hcut
  · intro hcut
    exact (h.cut (h.running_of_request hrequests) hcut).2.1

theorem isSome_iff_inSlot :
    s.engine.receiver.tracker.current.isSome = true ↔ ∃ n, s.InSlot n := by
  rw [Option.isSome_iff_exists]
  constructor
  · rintro ⟨p, hp⟩
    exact ⟨p.number, p, hp, rfl⟩
  · rintro ⟨n, p, hp, -⟩
    exact ⟨p, hp⟩

theorem serve_cancel (h : s.Sound) (hwriting : s.writing = none) (number : Nat)
    (rest : List Request) (hrequests : s.engine.requests = .cancel number :: rest) :
    Sound { s with engine := { s.engine with requests := rest }.cancel number } := by
  have hrunning := h.running_of_request hrequests
  refine { h with
    waiter_answered := fun w hw => ?_
    writing_slot := fun k n hw => ?_
    ended := fun hended => absurd (hrunning.symm.trans hended) (by decide)
    cut := fun _ hcut => ?_
    stage := fun _ => ?_ }
  · exact h.waiter_answered w (Option.filter_eq_some_iff.mp hw).1
  · cases hwriting.symm.trans hw
  · -- after a wait that was cut off, no number is given up
    obtain ⟨-, -, hcancel, -⟩ := h.cut hrunning hcut
    exact absurd (hrequests ▸ List.mem_cons_self) (hcancel number)
  · cases (h.stage hrunning).oldest hrequests with
    | leftover left hasks ha =>
      refine .apart left (hasks.taken hrequests rfl rfl rfl rfl)
        ⟨ha.inFlight_eq, fun r hr => ha.leftover r (List.mem_cons_of_mem _ hr), ha.writing,
          fun n hn => ?_⟩
      obtain ⟨p, hp, rfl⟩ := hn
      obtain ⟨hp, hother⟩ := Tracker.current_cancel hp
      have hexcused := (ha.slot _ ⟨p, hp, rfl⟩).of_head hrequests fun heq => hother (by cases heq; rfl)
      exact .inr hexcused
    | own c k hr => cases c <;> cases hr
    | asking f k hr => cases hr

theorem serve_pollStep (h : s.Sound) (step : Nat) (rest : List Request)
    (hrequests : s.engine.requests = .setPollStep step :: rest) :
    Sound { s with engine := { s.engine with requests := rest, pollStep := step } } := by
  have hrunning := h.running_of_request hrequests
  refine { h with
    ended := fun hended => absurd (hrunning.symm.trans hended) (by decide)
    cut := fun _ hcut => ?_
    stage := fun _ => ?_ }
  · obtain ⟨hconnected, hslot, hcancel, hw⟩ := h.cut hrunning hcut
    exact ⟨hconnected, hslot, fun n hn => hcancel n (hrequests ▸ List.mem_cons_of_mem _ hn), hw⟩
  · cases (h.stage hrunning).oldest hrequests with
    | leftover left hasks ha =>
      exact .apart left (hasks.taken hrequests rfl rfl rfl rfl)
        ⟨ha.inFlight_eq, fun r hr => ha.leftover r (List.mem_cons_of_mem _ hr), ha.writing,
          fun n hn => .inr ((ha.slot n hn).of_head hrequests nofun)⟩
    | own c k hr => cases c <;> cases hr
    | asking f k hr => cases hr

/-- **A command that was taken from the queue** is in the slot if it was written, and is refused as
busy only if something was in the slot. -/
theorem serve_transmit (h : s.Sound) (hwriting : s.writing = none) {ticket : Nat} {command : Text}
    {rest : List Request} (hrequests : s.engine.requests = .transmit ticket command :: rest)
    (r : Receiver ε) (link : τ) (begun : List (Nat × Nat)) (o : Except Error Nat)
    (hslot : ∀ p, r.tracker.current = some p → s.InSlot p.number ∨ o = .ok p.number)
    (hstill : ∀ n, s.InSlot n → ∃ p, r.tracker.current = some p ∧ p.number = n)
    (hok : ∀ n, o = .ok n → s.engine.connected = true ∧ ∃ p, r.tracker.current = some p ∧ p.number = n)
    (hbusy : o = .error .busy → s.engine.connected = true ∧ ∃ n, s.InSlot n) :
    Sound { s with
      engine := { s.engine with requests := rest, receiver := r, transport := link }
      writing := some (ticket, o)
      begun := begun } := by
  have hrunning := h.running_of_request hrequests
  have hexcused (hslot' : ∀ n, s.InSlot n → s.Excused n) (n : Nat)
      (hn : ∃ p, r.tracker.current = some p ∧ p.number = n) :
      Excused { s with
        engine := { s.engine with requests := rest, receiver := r, transport := link }
        writing := some (ticket, o)
        begun := begun } n := by
    obtain ⟨p, hp, rfl⟩ := hn
    rcases hslot p hp with hin | hnumber
    · rcases (hslot' _ hin).of_head hrequests nofun with ⟨k, hw⟩ | hrest
      · cases hwriting.symm.trans hw
      · exact .inr (.inr hrest)
    · exact .inr (.inl ⟨ticket, by rw [hnumber]⟩)
  have hnew : s.engine.reply? ticket = none := h.unanswered hrequests rfl
  refine { h with
    writing_new := fun k o' hw => ?_
    writing_slot := fun k n hw => ?_
    ended := fun hended => absurd (hrunning.symm.trans hended) (by decide)
    cut := fun _ hcut => ?_
    stage := fun _ => ?_ }
  · cases hw
    exact hnew
  · cases hw
    exact (hok n rfl).2
  · obtain ⟨hconnected, ⟨n, hn⟩, hcancel, -⟩ := h.cut hrunning hcut
    refine ⟨hconnected, ⟨n, hstill n hn⟩,
      fun n hn => hcancel n (hrequests ▸ List.mem_cons_of_mem _ hn), fun k n hw => ?_⟩
    cases hw
    cases hconnected.symm.trans (hok n rfl).1
  · cases (h.stage hrunning).oldest hrequests with
    | leftover left hasks ha =>
      refine .apart left (hasks.taken hrequests rfl rfl rfl rfl)
        ⟨ha.inFlight_eq, fun r hr => ha.leftover r (List.mem_cons_of_mem _ hr), fun k o' hw => ?_,
          hexcused ha.slot⟩
      cases hw
      exact (ha.leftover _ List.mem_cons_self).1
    | own c k hr hrest hdoing hreply hkept ha =>
      cases c <;> cases hr
      refine .written command ticket o hdoing rfl hrest hreply hkept ha.inFlight_eq
        (hexcused ha.slot) fun hlate ho => ?_
      -- only a wait that was cut off could be in the way, and then reading has ended
      obtain ⟨hconnected, hin⟩ := hbusy ho
      have hcut := (h.inSlot_iff_cut hwriting hrequests nofun ha.slot hlate).mp hin
      cases hconnected.symm.trans (h.cut hrunning hcut).1
    | asking f k hr => cases hr

/-- An answer goes to a ticket that was handed out. -/
theorem replies_lt_post (h : s.Sound) {c : Call} {k : Nat} (hdoing : s.doing = .awaiting c k)
    {e : Engine τ ε} (hreplies : e.replies = s.engine.replies) (reply : Reply) {j : Nat}
    (hj : ((e.post k reply).reply? j).isSome = true) : j < s.engine.nextTicket := by
  by_cases hjk : j = k
  · rw [hjk]
    exact (h.awaits c k hdoing).1
  · rw [Engine.reply?_post_of_ne _ reply hjk] at hj
    have hreply : e.reply? j = s.engine.reply? j := congrArg (List.lookup j) hreplies
    exact h.replies_lt j (hreply ▸ hj)

/-- The call in progress finds the answer that was meant for it. -/
theorem awaits_post (h : s.Sound) {c : Call} {k : Nat} (hdoing : s.doing = .awaiting c k)
    (e : Engine τ ε) {reply : Reply} (hfits : s.Fits c reply) (c' : Call) (j : Nat)
    (hd : s.doing = .awaiting c' j) :
    j < s.engine.nextTicket ∧ ∀ reply', (e.post k reply).reply? j = some reply' → s.Fits c' reply' := by
  cases hdoing.symm.trans hd
  refine ⟨(h.awaits c k hdoing).1, fun reply' hreply' => ?_⟩
  rw [Engine.reply?_post_self] at hreply'
  cases hreply'
  exact hfits

/-- The last request in the queue is answered, to the call that asked. -/
theorem serve_post (h : s.Sound) (hwriting : s.writing = none)
    (hrunning : s.engine.running = true) {c : Call} {k : Nat} (hdoing : s.doing = .awaiting c k)
    (r : Receiver ε) (htracker : r.tracker = s.engine.receiver.tracker) (reply : Reply)
    (hfits : s.Fits c reply)
    (hstage : Stage { s with
      engine := { s.engine with requests := [], receiver := r }.post k reply }) :
    Sound { s with engine := { s.engine with requests := [], receiver := r }.post k reply } := by
  refine { h with
    replies_lt := fun j hj => h.replies_lt_post hdoing rfl reply hj
    waiter_answered := fun w hw => Engine.isSome_reply?_post _ _ _ _ (h.waiter_answered w hw)
    resolved_answered := fun j hj => Engine.isSome_reply?_post _ _ _ _ (h.resolved_answered j hj)
    writing_new := fun _ _ hw => ?_
    writing_slot := fun _ _ hw => ?_
    ended := fun _ => ⟨hwriting, rfl⟩
    awaits := h.awaits_post hdoing _ hfits
    cut := fun _ hcut => ?_
    stage := fun _ => hstage }
  · cases hwriting.symm.trans hw
  · cases hwriting.symm.trans hw
  · obtain ⟨hconnected, hin, -, hw⟩ := h.cut hrunning hcut
    refine ⟨hconnected, ?_, fun _ => nofun, hw⟩
    unfold InSlot
    rw [show (Engine.post k reply { s.engine with requests := [], receiver := r }).receiver.tracker
      = s.engine.receiver.tracker from htracker]
    exact hin

/-- A call that is answered without a number. -/
theorem serve_own (h : s.Sound) (hwriting : s.writing = none) {c : Call} {k : Nat}
    (hdoing : s.doing = .awaiting c k) (hrequests : s.engine.requests = [c.request k])
    (hc : ∀ n, c.request k ≠ .cancel n) (ha : s.Apart []) (r : Receiver ε)
    (htracker : r.tracker = s.engine.receiver.tracker) (reply : Reply) (hfits : s.Fits c reply)
    (hnumber : ∀ n, reply ≠ .transmitted (.ok n)) :
    Sound { s with engine := { s.engine with requests := [], receiver := r }.post k reply } := by
  refine h.serve_post hwriting (h.running_of_request hrequests) hdoing r htracker reply hfits
    (.answered c k reply hdoing ⟨hwriting, rfl⟩ (Engine.reply?_post_self _ k reply) hnumber
      ha.inFlight_eq fun n hn => ?_)
  obtain ⟨p, hp, rfl⟩ := hn
  have hin : s.InSlot p.number := ⟨p, htracker ▸ hp, rfl⟩
  exact .inr ((ha.slot _ hin).of_head hrequests (hc _))

theorem serve_configured (h : s.Sound) (hwriting : s.writing = none) (ticket : Nat)
    (t : Terminators) (rest : List Request) (r : Receiver ε) (outcome : Except Error Unit)
    (hrequests : s.engine.requests = .configure ticket t :: rest)
    (htracker : r.tracker = s.engine.receiver.tracker)
    (houtcome : outcome
      = if s.engine.receiver.tracker.current.isSome = true then .error .busy else .ok ()) :
    Sound { s with
      engine := { s.engine with requests := rest, receiver := r }.post ticket
        (.configured outcome) } := by
  cases (h.stage (h.running_of_request hrequests)).oldest hrequests with
  | leftover left hasks ha => cases ha.leftover _ List.mem_cons_self
  | own c k hr hrest hdoing hreply hkept ha =>
    cases c <;> cases hr
    subst hrest
    refine h.serve_own hwriting hdoing hrequests nofun ha r htracker _ (fun hlate => ?_) nofun
    rw [houtcome]
    simp only [isSome_iff_inSlot, h.inSlot_iff_cut hwriting hrequests nofun ha.slot hlate]
  | asking f k hr => cases hr

theorem serve_stats (h : s.Sound) (hwriting : s.writing = none) (ticket : Nat)
    (rest : List Request) (stats : Stats)
    (hrequests : s.engine.requests = .stats ticket :: rest) :
    Sound { s with engine := { s.engine with requests := rest }.post ticket (.stats stats) } := by
  cases (h.stage (h.running_of_request hrequests)).oldest hrequests with
  | leftover left hasks ha => cases ha.leftover _ List.mem_cons_self
  | own c k hr hrest hdoing hreply hkept ha =>
    cases c <;> cases hr
    subst hrest
    exact h.serve_own hwriting hdoing hrequests nofun ha s.engine.receiver rfl _ trivial nofun
  | asking f k hr hrest hdoing hinFlight hreply hcut hfate =>
    obtain rfl : ticket = k := by
      cases hr
      rfl
    subst hrest
    exact h.serve_post hwriting (h.running_of_request hrequests) hdoing s.engine.receiver rfl _
      trivial (.held f (.told ticket stats hdoing hinFlight rfl (Engine.reply?_post_self _ ticket _)) hwriting
        hcut hfate)

/-- Nobody queues the wish that the engine end while the application is at work. -/
theorem not_shutdown (h : s.Sound) {ticket : Nat} {rest : List Request} :
    s.engine.requests ≠ .shutdown ticket :: rest := by
  intro hrequests
  cases (h.stage (h.running_of_request hrequests)).oldest hrequests with
  | leftover left hasks ha => exact ha.leftover _ List.mem_cons_self
  | own c k hr => cases c <;> cases hr
  | asking f k hr => cases hr

theorem served (h : s.Sound) (hwriting : s.writing = none) [Transport τ]
    (hlink : Transport.NeverBusy τ) {s' : Interplay τ ε} (hserved : s.Served s') : s'.Sound := by
  cases hserved with
  | nothing hrequests => exact h
  | cancel number rest hrequests => exact h.serve_cancel hwriting number rest hrequests
  | pollStep step rest hrequests => exact h.serve_pollStep step rest hrequests
  | refused ticket command rest err hrequests hbusy =>
    refine h.serve_transmit hwriting hrequests s.engine.receiver s.engine.transport s.begun _
      (fun p hp => .inl ⟨p, hp, rfl⟩) (fun n hn => hn) nofun fun ho => ?_
    cases ho
    obtain ⟨hconnected, hsome⟩ := hbusy.mp rfl
    exact ⟨hconnected, isSome_iff_inSlot.mp hsome⟩
  | failed ticket command rest r link now err hrequests hconnected hidle htracker hsend =>
    refine h.serve_transmit hwriting hrequests r link _ _ (fun p hp => ?_) (fun n hn => ?_) nofun
      fun ho => ?_
    · rw [htracker] at hp
      cases hp
    · obtain ⟨p, hp, -⟩ := hn
      cases hidle.symm.trans hp
    · cases ho
      exact absurd rfl (hlink _ _ _ _ _ hsend)
  | begun ticket command rest r p link hrequests hconnected hidle htracker hp =>
    refine h.serve_transmit hwriting hrequests r link _ _ (fun p' hp' => ?_) (fun n hn => ?_)
      (fun n hn => ?_) nofun
    · rw [htracker] at hp'
      cases hp'
      exact .inr rfl
    · obtain ⟨p', hp', -⟩ := hn
      cases hidle.symm.trans hp'
    · cases hn
      exact ⟨hconnected, p, by rw [htracker], rfl⟩
  | configured ticket t rest r outcome hrequests htracker houtcome =>
    exact h.serve_configured hwriting ticket t rest r outcome hrequests htracker houtcome
  | stats ticket rest stats hrequests => exact h.serve_stats hwriting ticket rest stats hrequests
  | shutdown ticket rest hrequests => exact absurd hrequests h.not_shutdown

theorem serve (h : s.Sound) [Transport τ] (hlink : Transport.NeverBusy τ) (now : Nat) :
    (s.serve now).Sound := by
  by_cases hwriting : s.writing = none
  · exact h.served hwriting hlink (serve_served s now hwriting)
  · rw [serve_of_writing now (Option.isSome_iff_ne_none.mpr hwriting)]
    exact h

/-! ## Answering -/

theorem running_of_writing (h : s.Sound) {k : Nat} {o : Except Error Nat}
    (hwriting : s.writing = some (k, o)) : s.engine.running = true := by
  by_contra hnot
  cases (h.ended (Bool.eq_false_iff.mpr hnot)).1.symm.trans hwriting

/-- Nobody waits for what becomes of a command whose send was dropped, and its number is given up. -/
theorem answer_abandoned (h : s.Sound) {k : Nat} {o : Except Error Nat}
    (hwriting : s.writing = some (k, o)) (habandoned : k ∈ s.engine.abandoned)
    (r : Receiver ε) (waiter : Option Waiter)
    (hwaiter : ∀ w, waiter = some w → s.engine.waiter = some w)
    (hslot : ∀ p, r.tracker.current = some p → s.InSlot p.number ∧ o ≠ .ok p.number)
    (hstill : ∀ err, o = .error err → r = s.engine.receiver) :
    Sound { s with writing := none, engine := { s.engine with receiver := r, waiter := waiter } } := by
  have hrunning := h.running_of_writing hwriting
  refine { h with
    waiter_answered := fun w hw => h.waiter_answered w (hwaiter w hw)
    writing_new := fun _ _ => nofun
    writing_slot := fun _ _ => nofun
    ended := fun hended => absurd (hrunning.symm.trans hended) (by decide)
    cut := fun _ hcut => ?_
    stage := fun _ => ?_ }
  · obtain ⟨hconnected, ⟨n, hn⟩, hcancel, hw⟩ := h.cut hrunning hcut
    refine ⟨hconnected, ⟨n, ?_⟩, hcancel, fun _ _ => nofun⟩
    -- once reading has ended nothing is written, so it can only be a refusal
    cases o with
    | ok m => exact absurd hwriting (hw k m)
    | error err =>
      obtain rfl := hstill err rfl
      exact hn
  · cases h.stage hrunning with
    | apart left hasks ha =>
      refine .apart left ?_ ⟨ha.inFlight_eq, ha.leftover, fun _ _ => nofun, fun n hn => ?_⟩
      · cases hasks with
        | nothing hd hrequests => exact .nothing hd hrequests
        | own c j hd hrequests hreply hkept => exact .own c j hd hrequests hreply hkept
      · obtain ⟨p, hp, rfl⟩ := hn
        obtain ⟨hin, hother⟩ := hslot p hp
        rcases ha.slot _ hin with hhead | ⟨j, hj⟩ | hrest
        · exact .inl hhead
        · cases hwriting.symm.trans hj
          exact absurd rfl hother
        · exact .inr (.inr hrest)
    | written command j o' hd hw hrequests hreply hkept =>
      cases hwriting.symm.trans hw
      exact absurd habandoned hkept
    | answered c j reply hd hclear => cases hclear.1.symm.trans hwriting
    | held f hf hnone => cases hnone.symm.trans hwriting

/-- What is written for a send that is still there is its command, and nothing is queued behind it. -/
theorem of_written (h : s.Sound) {k : Nat} {o : Except Error Nat}
    (hwriting : s.writing = some (k, o)) (hkept : k ∉ s.engine.abandoned) :
    ∃ command, s.doing = .awaiting (.send command) k ∧ s.engine.requests = []
      ∧ s.inFlight = none ∧ (∀ n, s.InSlot n → s.Excused n) ∧ (s.late = [] → o ≠ .error .busy) := by
  cases h.stage (h.running_of_writing hwriting) with
  | apart left hasks ha => exact absurd (ha.writing k o hwriting) hkept
  | written command j o' hd hw hrequests hreply _ hinFlight hslot houtcome =>
    cases hwriting.symm.trans hw
    exact ⟨command, hd, hrequests, hinFlight, hslot, houtcome⟩
  | answered c j reply hd hclear => cases hclear.1.symm.trans hwriting
  | held f hf hnone => cases hnone.symm.trans hwriting

/-- The number that is about to be answered is in the slot, and nothing stands under its ticket. -/
theorem fate_written (h : s.Sound) {k n : Nat} (hwriting : s.writing = some (k, .ok n))
    {e : Engine τ ε} (hreceiver : e.receiver = s.engine.receiver)
    (hresolutions : e.resolutions = s.engine.resolutions) (hwaiter : e.waiter = some ⟨n, k⟩) :
    Fate e ⟨n, k⟩ := by
  obtain ⟨p, hp, hnumber⟩ := h.writing_slot k n hwriting
  refine .inl ⟨p, hreceiver ▸ hp, hnumber, ?_, .inl hwaiter⟩
  rw [hresolutions]
  -- a ticket that was resolved would have been answered before
  by_contra hsome
  have hanswered := h.resolved_answered k (Option.isSome_iff_ne_none.mpr hsome)
  rw [h.writing_new k _ hwriting] at hanswered
  cases hanswered

/-- A command whose send is still there is held by both parties from now on, if it was written. -/
theorem answer_kept (h : s.Sound) {k : Nat} {o : Except Error Nat}
    (hwriting : s.writing = some (k, o)) (hkept : k ∉ s.engine.abandoned)
    (waiter : Option Waiter)
    (hok : ∀ n, o = .ok n → waiter = some ⟨n, k⟩)
    (herr : ∀ err, o = .error err → waiter = s.engine.waiter) :
    Sound { s with
      writing := none
      engine := { s.engine with waiter := waiter }.post k (.transmitted o) } := by
  have hrunning := h.running_of_writing hwriting
  obtain ⟨command, hdoing, hrequests, hinFlight, hslot, houtcome⟩ := h.of_written hwriting hkept
  refine { h with
    replies_lt := fun j hj => h.replies_lt_post hdoing rfl _ hj
    waiter_answered := fun w hw => ?_
    resolved_answered := fun j hj => Engine.isSome_reply?_post _ _ _ _ (h.resolved_answered j hj)
    writing_new := fun _ _ => nofun
    writing_slot := fun _ _ => nofun
    ended := fun hended => absurd (hrunning.symm.trans hended) (by decide)
    awaits := h.awaits_post hdoing _ houtcome
    cut := fun _ hcut => ?_
    stage := fun _ => ?_ }
  · cases o with
    | ok n =>
      cases (hok n rfl).symm.trans hw
      show ((Engine.post k _ _).reply? k).isSome = true
      rw [Engine.reply?_post_self]
      rfl
    | error err =>
      exact Engine.isSome_reply?_post _ _ _ _ (h.waiter_answered w ((herr err rfl).symm.trans hw))
  · obtain ⟨hconnected, hin, hcancel, -⟩ := h.cut hrunning hcut
    exact ⟨hconnected, hin, hcancel, fun _ _ => nofun⟩
  · cases o with
    | ok n =>
      have hcut : s.cut = false := by
        by_contra hcut
        exact (h.cut hrunning ((Bool.not_eq_false _).mp hcut)).2.2.2 k n hwriting
      exact .held ⟨n, k⟩
        (.given command hdoing hinFlight (Engine.reply?_post_self _ k _) hrequests) rfl hcut
        (h.fate_written hwriting rfl rfl (hok n rfl))
    | error err =>
      refine .answered _ k _ hdoing ⟨rfl, hrequests⟩ (Engine.reply?_post_self _ k _) nofun hinFlight
        fun n hn => ?_
      -- what is in the slot is not this command, which was not written
      rcases hslot n hn with hhead | ⟨j, hj⟩ | hrest
      · exact .inl hhead
      · cases hwriting.symm.trans hj
      · exact .inr (.inr hrest)

theorem answer (h : s.Sound) : s.answer.Sound := by
  unfold Interplay.answer
  split
  · rename_i k o hwriting
    unfold Engine.answerTransmit
    by_cases habandoned : k ∈ s.engine.abandoned
    · cases o with
      | ok n =>
        simp only [if_pos habandoned]
        refine h.answer_abandoned hwriting habandoned _ none nofun (fun p hp => ?_) nofun
        obtain ⟨hp, hother⟩ := Tracker.current_cancel hp
        exact ⟨⟨p, hp, rfl⟩, fun heq => hother (Except.ok.inj heq).symm⟩
      | error err =>
        simp only [if_pos habandoned]
        exact h.answer_abandoned hwriting habandoned s.engine.receiver s.engine.waiter
          (fun _ hw => hw) (fun p hp => ⟨⟨p, hp, rfl⟩, nofun⟩) fun _ _ => rfl
    · cases o with
      | ok n =>
        simp only [if_neg habandoned]
        refine h.answer_kept hwriting habandoned _ (fun m hm => ?_) nofun
        cases hm
        rfl
      | error err =>
        simp only [if_neg habandoned]
        exact h.answer_kept hwriting habandoned s.engine.waiter nofun fun _ _ => rfl
  · exact h

/-! ## Reading -/

/-- The number in the slot was there before. -/
theorem inSlot_of_follows {t : Tracker} {a : List Resolution}
    (h : s.engine.receiver.tracker.Follows t a) {p : Pending} (hp : t.current = some p) :
    s.InSlot p.number := by
  obtain ⟨q, hq, hnumber, -⟩ := h.exists_before hp
  exact ⟨q, hq, hnumber.symm⟩

theorem fate_kept {e : Engine τ ε} {f : InFlight} (h : Fate e f) (r : Receiver ε)
    (q : Queue (Notification ε)) (hfollows : e.receiver.tracker.Follows r.tracker []) :
    Fate { e with receiver := r, events := q } f := by
  cases hfollows with
  | idle hnone hnone' =>
    rcases h with ⟨p, hp, -⟩ | ⟨hsome, -⟩
    · cases hnone.symm.trans hp
    · exact .inr ⟨hsome, hnone'⟩
  | kept p p' hp hp' hnumber =>
    rcases h with ⟨p'', hp'', hf, hrest⟩ | ⟨-, hnone⟩
    · cases hp''.symm.trans hp
      exact .inl ⟨p', hp', hnumber.trans hf, hrest⟩
    · cases hnone.symm.trans hp

/-- While bytes are read, a resolution is that of the command in flight, and reaches its ticket. -/
theorem fate_ended {e : Engine τ ε} {f : InFlight} (h : Fate e f) (hconnected : e.connected = true)
    {r : Receiver ε} {res : Resolution}
    (hfollows : e.receiver.tracker.Follows r.tracker [res]) :
    r.tracker.current = none ∧ e.waiter = some ⟨f.number, f.ticket⟩ ∧ res.number = f.number := by
  cases hfollows with
  | ended p _ hp hnone hnumber =>
    rcases h with ⟨p', hp', hf, -, hw | ⟨-, hlost⟩⟩ | ⟨-, hnone'⟩
    · cases hp'.symm.trans hp
      exact ⟨hnone, hw, hnumber.trans hf⟩
    · cases hlost.symm.trans hconnected
    · cases hnone'.symm.trans hp

theorem heard (h : s.Sound) (hwriting : s.writing = none) (hlive : s.engine.live = true)
    {e : Engine τ ε} {resolutions : List Resolution} (hheard : s.engine.Heard e resolutions) :
    Sound { s with engine := e, produced := s.produced ++ resolutions } := by
  obtain ⟨hrunning, hconnected⟩ := Bool.and_eq_true_iff.mp hlive
  have hcut {P : Prop} (hcut : s.cut = true) : P := by
    cases (h.cut hrunning hcut).1.symm.trans hconnected
  have hwrites {P : Prop} {k : Nat} {o : Except Error Nat} (hw : s.writing = some (k, o)) : P := by
    cases hwriting.symm.trans hw
  cases hheard with
  | nothing =>
    exact { h with
      stage := fun _ => (h.stage hrunning).withEngine _ _ rfl rfl rfl (fun p hp => ⟨p, hp, rfl⟩)
        fun _ _ hf => hf }
  | failed =>
    refine { h with
      waiter_answered := fun _ => nofun
      cut := fun _ hc => hcut hc
      stage := fun _ => (h.stage hrunning).withEngine _ _ rfl rfl rfl (fun p hp => ⟨p, hp, rfl⟩)
        fun f _ hf => ?_ }
    -- the slot keeps its command although nobody is told of it any more
    rcases hf with ⟨p, hp, hnumber, hnone, -⟩ | hf
    · exact .inl ⟨p, hp, hnumber, hnone, .inr ⟨rfl, rfl⟩⟩
    · exact .inr hf
  | kept r q hfollows =>
    exact { h with
      writing_slot := fun _ _ hw => hwrites hw
      cut := fun _ hc => hcut hc
      stage := fun _ => (h.stage hrunning).withEngine _ _ rfl rfl rfl
        (fun p hp => inSlot_of_follows hfollows hp) fun f _ hf => fate_kept hf r q hfollows }
  | passed r q res w now hfollows hw hnumber =>
    refine { h with
      waiter_answered := fun _ => nofun
      resolved_answered := fun k hk => ?_
      writing_slot := fun _ _ hw => hwrites hw
      cut := fun _ hc => hcut hc
      stage := fun _ => (h.stage hrunning).withEngine _ _ rfl rfl rfl
        (fun p hp => inSlot_of_follows hfollows hp) fun f _ hf => ?_ }
    · by_cases hkw : k = w.ticket
      · rw [hkw]
        exact h.waiter_answered w hw
      · rw [List.lookup_cons, beq_false_of_ne hkw] at hk
        exact h.resolved_answered k hk
    · obtain ⟨hnone, hwaiter, -⟩ := fate_ended hf hconnected hfollows
      cases hw.symm.trans hwaiter
      refine .inr ⟨?_, hnone⟩
      rw [List.lookup_cons_self]
      rfl
  | unheard r q res hfollows hw =>
    refine { h with
      writing_slot := fun _ _ hw => hwrites hw
      cut := fun _ hc => hcut hc
      stage := fun _ => (h.stage hrunning).withEngine _ _ rfl rfl rfl
        (fun p hp => inSlot_of_follows hfollows hp) fun f _ hf => ?_ }
    obtain ⟨-, hwaiter, hnumber⟩ := fate_ended hf hconnected hfollows
    exact absurd hnumber.symm (hw _ hwaiter)

theorem read (h : s.Sound) (now : Nat) (outcome : Except Error Bytes) :
    (s.read now outcome).Sound := by
  unfold Interplay.read
  split
  · rename_i hreads
    obtain ⟨hwriting, hlive⟩ := Bool.and_eq_true_iff.mp hreads
    exact h.heard (Option.isNone_iff_eq_none.mp hwriting) hlive (Engine.received_heard _ now outcome)
  · exact h

/-! ## The world -/

theorem link (h : s.Sound) (link : τ) :
    Sound { s with engine := { s.engine with transport := link } } :=
  { h with
    stage := fun hrunning => (h.stage hrunning).withEngine _ s.produced rfl rfl rfl
      (fun p hp => ⟨p, hp, rfl⟩) fun _ _ hf => hf }

theorem events (h : s.Sound) (q : Queue (Notification ε)) :
    Sound { s with engine := { s.engine with events := q } } :=
  { h with
    stage := fun hrunning => (h.stage hrunning).withEngine _ s.produced rfl rfl rfl
      (fun p hp => ⟨p, hp, rfl⟩) fun _ _ hf => hf }

theorem stop (h : s.Sound) (hwriting : s.writing = none) :
    Sound { s with engine := s.engine.stop } :=
  { h with
    waiter_answered := fun _ => nofun
    ended := fun _ => ⟨hwriting, rfl⟩
    cut := nofun
    stage := nofun }

/-! ## Runs -/

theorem step [Transport τ] (hlink : Transport.NeverBusy τ) (h : s.Sound) (act : Act τ ε) :
    (s.step act).Sound := by
  cases act with
  | call c => exact h.call c
  | enqueue => exact h.enqueue
  | setPollStep step => exact h.setPollStep step
  | drop => exact h.drop
  | take => exact h.take
  | wait => exact h.wait
  | look => exact h.look
  | giveUp => exact h.giveUp
  | serve now => exact h.serve hlink now
  | answer => exact h.answer
  | read now outcome => exact h.read now outcome
  | link link => exact h.link link
  | events q => exact h.events q
  | stop =>
    simp only [Interplay.step]
    split
    · rename_i hnone
      exact h.stop (Option.isNone_iff_eq_none.mp hnone)
    · exact h

theorem foldl_step [Transport τ] (hlink : Transport.NeverBusy τ) (acts : List (Act τ ε))
    (h : s.Sound) : (acts.foldl Interplay.step s).Sound := by
  induction acts generalizing s with
  | nil => exact h
  | cons act acts ih => exact ih (h.step hlink act)

theorem start (config : Config) (table : EventTable ε) (link : τ) :
    Sound { engine := .start config table link : Interplay τ ε } where
  replies_lt _ := nofun
  abandoned_lt _ := nofun
  waiter_answered _ := nofun
  resolved_answered _ := nofun
  writing_new _ _ := nofun
  writing_slot _ _ := nofun
  ended := nofun
  called _ hd := absurd hd (Doing.not_calling (.inl rfl))
  awaits _ _ := nofun
  cut _ := nofun
  stage _ := .apart [] (.nothing (.inl rfl) rfl)
    ⟨rfl, fun _ => nofun, fun _ _ => nofun, fun _ ⟨_, hp, _⟩ => nomatch hp⟩
  fair _ _ := nofun

end Sound

/-- **The two parties stand well with each other in every run.** -/
theorem of_sound [Transport τ] (hlink : Transport.NeverBusy τ) (config : Config)
    (table : EventTable ε) (link : τ) (acts : List (Act τ ε)) : (of config table link acts).Sound :=
  .foldl_step hlink acts (.start config table link)

end Interplay

end ModemLink
