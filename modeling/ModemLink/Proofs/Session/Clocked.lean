/-
A session on its clock is one run of the two parties.

On the clock everything settles before the session goes on. Each of its steps is made of the small
steps of the two parties, in one particular order, so what holds in every run of the parties holds of
every script.
-/
import ModemLink.Proofs.Session.Serving
import ModemLink.Session.Script

set_option autoImplicit false

namespace ModemLink

/-! ## The queue of requests -/

namespace Engine

variable {τ ε : Type}

theorem Heard.requests_eq {e e' : Engine τ ε} {resolutions : List Resolution}
    (h : e.Heard e' resolutions) : e'.requests = e.requests := by
  cases h <;> rfl

theorem answerTransmit_requests (e : Engine τ ε) (ticket : Nat) (outcome : Except Error Nat) :
    (e.answerTransmit ticket outcome).requests = e.requests := by
  unfold answerTransmit
  cases outcome with
  | ok number => simp only [apply_ite requests, post, ite_self]
  | error err => simp only [apply_ite requests, post, ite_self]

variable [Transport τ]

theorem drain_requests (now n : Nat) (e : Engine τ ε) :
    (e.drain now n).requests = e.requests := by
  induction n generalizing e with
  | zero => rfl
  | succ n ih =>
    unfold drain
    split
    · split
      · rfl
      · rw [ih, (received_heard _ now _).requests_eq]
    · rfl

theorem transmit_requests (now : Nat) (command : Text) (e : Engine τ ε) :
    (e.transmit now command).2.requests = e.requests := by
  unfold transmit
  split
  · rfl
  · split <;> rfl

theorem length_requests_serveNext (now : Nat) (e : Engine τ ε) :
    (e.serveNext now).requests.length ≤ e.requests.length - 1 := by
  unfold serveNext
  cases hrequests : e.requests with
  | nil => exact Nat.le_of_eq (congrArg List.length hrequests)
  | cons r rest =>
    have hkept (e' : Engine τ ε) (h : e'.requests = rest) :
        e'.requests.length ≤ (r :: rest).length - 1 := Nat.le_of_eq (congrArg List.length h)
    cases r with
    | transmit ticket command =>
      apply hkept
      simp only [serve, answerTransmit_requests]
      split
      · rw [transmit_requests]
      · rfl
    | cancel number => exact hkept _ rfl
    | configure ticket t =>
      apply hkept
      simp only [serve, configure]
      split <;> rfl
    | setPollStep step => exact hkept _ rfl
    | stats ticket => exact hkept _ rfl
    | shutdown ticket => exact Nat.zero_le _

/-- Running leaves no request behind. -/
theorem run_requests (now : Nat) (e : Engine τ ε) : (e.run now).requests = [] := by
  have hserved (n : Nat) :
      (n.repeat (serveNext now) e).requests.length ≤ e.requests.length - n := by
    induction n with
    | zero => exact Nat.le_refl _
    | succ n ih =>
      have hnext := length_requests_serveNext now (n.repeat (serveNext now) e)
      rw [Nat.repeat]
      omega
  have hnone := hserved e.requests.length
  unfold run
  rw [drain_requests]
  exact List.eq_nil_of_length_eq_zero (by omega)

end Engine

/-! ## The engine by itself -/

namespace Interplay

variable {τ ε : Type} [Transport τ]

/-- The engine gets there by itself, whatever the application is in the middle of. -/
def Alone (s : Interplay τ ε) (e : Engine τ ε) : Prop :=
  ∃ (acts : List (Act τ ε)) (begun : List (Nat × Nat)) (produced : List Resolution),
    acts.foldl step s = { s with engine := e, begun := begun, produced := produced }

namespace Alone

variable {s : Interplay τ ε}

theorem refl (s : Interplay τ ε) : s.Alone s.engine := ⟨[], s.begun, s.produced, rfl⟩

theorem trans {e e' : Engine τ ε} (h : s.Alone e)
    (h' : ∀ s' : Interplay τ ε, s'.engine = e → s'.writing = s.writing → s'.Alone e') :
    s.Alone e' := by
  obtain ⟨acts, begun, produced, hacts⟩ := h
  obtain ⟨more, begun', produced', hmore⟩ :=
    h' { s with engine := e, begun := begun, produced := produced } rfl rfl
  refine ⟨acts ++ more, begun', produced', ?_⟩
  rw [foldl_step_append, hacts, hmore]

theorem link (s : Interplay τ ε) (link : τ) : s.Alone { s.engine with transport := link } :=
  ⟨[.link link], s.begun, s.produced, rfl⟩

theorem events (s : Interplay τ ε) (q : Queue (Notification ε)) :
    s.Alone { s.engine with events := q } :=
  ⟨[.events q], s.begun, s.produced, rfl⟩

theorem serveNext (s : Interplay τ ε) (hwriting : s.writing = none) (now : Nat) :
    s.Alone (s.engine.serveNext now) := by
  have hfree : ¬ s.writing.isSome = true := by
    rw [hwriting]
    exact Bool.false_ne_true
  unfold Engine.serveNext
  cases hrequests : s.engine.requests with
  | nil => exact refl s
  | cons r rest =>
    -- a command is answered in a step of its own
    refine ⟨[.serve now, .answer], (s.serve now).begun, s.produced, ?_⟩
    simp only [List.foldl_cons, List.foldl_nil, Interplay.step]
    unfold Interplay.serve
    rw [if_neg hfree, hrequests]
    cases r with
    | transmit ticket command => simp only [Interplay.answer, Engine.serve, hwriting]
    | _ => simp only [Engine.serveNext, hrequests, Interplay.answer, hwriting]

theorem repeat_serveNext (s : Interplay τ ε) (hwriting : s.writing = none) (now n : Nat) :
    s.Alone (n.repeat (Engine.serveNext now) s.engine) := by
  induction n with
  | zero => exact refl s
  | succ n ih =>
    refine ih.trans fun s' hengine hw => ?_
    rw [Nat.repeat, ← hengine]
    exact serveNext s' (hw.trans hwriting) now

theorem drain (s : Interplay τ ε) (hwriting : s.writing = none) (now n : Nat) :
    s.Alone (s.engine.drain now n) := by
  induction n generalizing s with
  | zero => exact refl s
  | succ n ih =>
    unfold Engine.drain
    by_cases hlive : (s.engine.running && s.engine.connected) = true
    · rw [if_pos hlive]
      rcases Transport.receive readSize s.engine.transport with ⟨none | outcome, l⟩
      · exact link s l
      · have hread : s.Alone ({ s.engine with transport := l }.received now outcome) := by
          refine ⟨[.link l, .read now outcome], s.begun,
            ([.link l, .read now outcome].foldl step s).produced, ?_⟩
          have hreads : (s.writing.isNone && Engine.live { s.engine with transport := l }) = true := by
            rw [hwriting]
            exact hlive
          simp only [List.foldl_cons, List.foldl_nil, Interplay.step, Interplay.read]
          rw [if_pos hreads]
        refine hread.trans fun s' hengine hw => ?_
        have hrest := ih s' (hw.trans hwriting)
        rw [hengine] at hrest
        exact hrest
    · rw [if_neg hlive]
      exact refl s

theorem run (s : Interplay τ ε) (hwriting : s.writing = none) (now : Nat) :
    s.Alone (s.engine.run now) := by
  refine (repeat_serveNext s hwriting now s.engine.requests.length).trans fun s' hengine hw => ?_
  unfold Engine.run
  rw [← hengine]
  exact drain s' (hw.trans hwriting) now _

end Alone

/-! ## On the clock -/

namespace Alone

variable {ε : Type} (s : Interplay Link ε) (hwriting : s.writing = none) (t : Timeline ε)

include hwriting

theorem settle (h : s.engine = t.engine) : s.Alone t.settle.engine := by
  unfold Timeline.settle Timeline.runConsumers
  have hlink := link s ((t.engine.transport).inject (t.ahead.due t.now))
  rw [h] at hlink
  refine hlink.trans fun s' hengine hw => ?_
  have hrun := run s' (hw.trans hwriting) t.now
  rw [hengine] at hrun
  refine hrun.trans fun s'' hengine' _ => ?_
  have hevents := events s''
  rw [hengine'] at hevents
  exact hevents _

theorem pass (target : Nat) (done : Timeline ε → Bool) (ahead : Schedule)
    (h : s.engine = t.engine) : s.Alone (Timeline.pass target done ahead t).engine := by
  induction ahead generalizing s t with
  | nil =>
    rw [Timeline.pass, ← h]
    exact refl s
  | cons m rest ih =>
    unfold Timeline.pass
    by_cases hdue : m.time ≤ target
    · rw [if_pos hdue]
      have hsettle := settle s hwriting { t with now := m.time } h
      simp only
      split
      · exact hsettle
      · exact hsettle.trans fun s' hengine hw => ih s' (hw.trans hwriting) _ hengine
    · rw [if_neg hdue, ← h]
      exact refl s

theorem advance (target : Nat) (done : Timeline ε → Bool) (h : s.engine = t.engine) :
    s.Alone (t.advance target done).engine := by
  unfold Timeline.advance
  split
  · rw [← h]
    exact refl s
  · exact pass s hwriting t target done t.ahead h

end Alone

end Interplay

namespace Timeline

variable {ε : Type}

theorem settle_requests (t : Timeline ε) : t.settle.engine.requests = [] :=
  Engine.run_requests _ _

/-- Time alone adds no request. -/
theorem length_requests_pass (target : Nat) (done : Timeline ε → Bool) (ahead : Schedule)
    (t : Timeline ε) :
    (pass target done ahead t).engine.requests.length ≤ t.engine.requests.length := by
  induction ahead generalizing t with
  | nil => exact Nat.le_refl _
  | cons m rest ih =>
    unfold pass
    split
    · have hnone := settle_requests { t with now := m.time }
      simp only
      split
      · rw [hnone]
        exact Nat.zero_le _
      · have hrest := ih { t with now := m.time }.settle
        rw [hnone] at hrest
        exact Nat.le_trans hrest (Nat.zero_le _)
    · exact Nat.le_refl _

theorem length_requests_advance (target : Nat) (done : Timeline ε → Bool) (t : Timeline ε) :
    (t.advance target done).engine.requests.length ≤ t.engine.requests.length := by
  unfold advance
  split
  · exact Nat.le_refl _
  · exact length_requests_pass _ _ _ t

end Timeline

/-! ## The session -/

namespace Session

open Interplay (of step foldl_step_append)

variable {ε : Type}

/-- The two parties are where the session is, with the application in the middle of something. -/
structure Matches (s : Session ε) (d : Doing) (p : Interplay Link ε) : Prop where
  engine_eq : p.engine = s.timeline.engine
  inFlight_eq : p.inFlight = s.inFlight
  doing_eq : p.doing = d
  writing_eq : p.writing = none
  late_eq : p.late = []

/-- The rest of a session is its own business. -/
theorem Matches.congr {s s' : Session ε} {d : Doing} {p : Interplay Link ε} (h : s.Matches d p)
    (htimeline : s'.timeline.engine = s.timeline.engine) (hinFlight : s'.inFlight = s.inFlight) :
    s'.Matches d p :=
  ⟨h.engine_eq.trans htimeline.symm, h.inFlight_eq.trans hinFlight.symm, h.doing_eq, h.writing_eq,
    h.late_eq⟩

/-- The two parties get to where the session is. -/
def Reached (s : Session ε) (d : Doing) (p : Interplay Link ε) : Prop :=
  ∃ acts : List (Interplay.Act Link ε), s.Matches d (acts.foldl step p)

theorem Matches.reached {s : Session ε} {d : Doing} {p : Interplay Link ε} (h : s.Matches d p) :
    s.Reached d p := ⟨[], h⟩

theorem Reached.trans {s s' : Session ε} {d d' : Doing} {p : Interplay Link ε}
    (h : s.Reached d p) (h' : ∀ p', s.Matches d p' → s'.Reached d' p') : s'.Reached d' p := by
  obtain ⟨acts, hacts⟩ := h
  obtain ⟨more, hmore⟩ := h' _ hacts
  refine ⟨acts ++ more, ?_⟩
  rw [foldl_step_append]
  exact hmore

/-- Whatever the engine does by itself. -/
theorem Matches.alone {s : Session ε} {d : Doing} {p : Interplay Link ε} (h : s.Matches d p)
    {t : Timeline ε} (ht : p.Alone t.engine) : Reached { s with timeline := t } d p := by
  obtain ⟨acts, begun, produced, hacts⟩ := ht
  refine ⟨acts, ?_⟩
  rw [hacts]
  exact ⟨rfl, h.inFlight_eq, h.doing_eq, h.writing_eq, h.late_eq⟩

theorem Matches.settle {s : Session ε} {d : Doing} {p : Interplay Link ε} (h : s.Matches d p) :
    (s.onTimeline Timeline.settle).Reached d p :=
  h.alone (.settle p h.writing_eq s.timeline h.engine_eq)

/-! ## Calls -/

theorem call_eq {s : Session ε} {p : Interplay Link ε} (h : s.Matches .nothing p) {c : Call}
    (hfree : (c.exclusive && s.isPending) = false) :
    p.call c = { p with called := s.isPending, doing := .queueing c } := by
  have hpending : p.inFlight.isSome = s.isPending := congrArg Option.isSome h.inFlight_eq
  simp only [Interplay.call, h.doing_eq, hpending, hfree, Bool.false_eq_true, if_false]

theorem enqueue_eq {p : Interplay Link ε} {c : Call} (hdoing : p.doing = .queueing c)
    (hroom : p.engine.requests.length < requestDepth) :
    p.enqueue = { p with
      engine := (p.engine.submit c.request).2
      doing := .awaiting c p.engine.nextTicket } := by
  have hnotFull : ¬ (p.engine.running && decide (requestDepth ≤ p.engine.requests.length)) = true := by
    rw [Bool.and_eq_true_iff, decide_eq_true_iff]
    omega
  unfold Interplay.enqueue
  rw [hdoing]
  simp only [if_neg hnotFull]
  rfl

/-- The request of a call is queued, and everything settles. -/
theorem exists_asked {p : Interplay Link ε} {c : Call} (hdoing : p.doing = .queueing c)
    (hwriting : p.writing = none) {t : Timeline ε} (hengine : p.engine = t.engine)
    (hroom : t.engine.requests.length < requestDepth) :
    ∃ (acts : List (Interplay.Act Link ε)) (begun : List (Nat × Nat)) (produced : List Resolution),
      acts.foldl step p = { p with
        engine := (t.call c.request).2.engine
        doing := .awaiting c (t.call c.request).1
        begun := begun
        produced := produced } := by
  have hqueued := enqueue_eq hdoing (hengine ▸ hroom)
  have hsettle : p.enqueue.Alone (t.call c.request).2.engine := by
    rw [hqueued, hengine]
    exact Interplay.Alone.settle { p with
      engine := (t.engine.submit c.request).2
      doing := .awaiting c t.engine.nextTicket } hwriting
        { t with engine := (t.engine.submit c.request).2 } rfl
  obtain ⟨acts, begun, produced, hacts⟩ := hsettle
  refine ⟨.enqueue :: acts, begun, produced, ?_⟩
  rw [List.foldl_cons, step, hacts, hqueued, hengine]
  rfl

/-- What a call returns that waits no longer. -/
def returned (e : Engine Link ε) (ticket : Nat) : Except Error Unit :=
  match e.reply? ticket with
  | some reply => reply.outcome
  | none => .error .notConnected

/-- What is in flight after a call. -/
def inFlightAfter (e : Engine Link ε) (ticket : Nat) (before : Option InFlight) : Option InFlight :=
  match e.given? ticket with
  | some number => some ⟨number, ticket⟩
  | none => before

theorem inFlightAfter_eq {e : Engine Link ε} {ticket : Nat} {before : Option InFlight}
    (h : ∀ number, e.reply? ticket ≠ some (.transmitted (.ok number))) :
    inFlightAfter e ticket before = before := by
  unfold inFlightAfter
  cases hgiven : e.given? ticket with
  | none => rfl
  | some number => exact absurd (Engine.given?_eq_some.mp hgiven) (h number)

/-- A call returns once no request is left. -/
theorem take_eq {p : Interplay Link ε} {c : Call} {k : Nat} (hdoing : p.doing = .awaiting c k)
    (hclear : p.Clear) :
    p.take = { p with inFlight := inFlightAfter p.engine k p.inFlight }.ret c
      (returned p.engine k) := by
  have hexpects : ¬ p.expects k = true := by
    unfold Interplay.expects
    rw [hclear.1, hclear.2]
    exact Bool.false_ne_true
  unfold Interplay.take inFlightAfter returned
  simp only [hdoing]
  cases hgiven : p.engine.given? k with
  | some number =>
    simp only [Engine.given?_eq_some.mp hgiven]
    rfl
  | none =>
    cases hreply : p.engine.reply? k with
    | some reply => rfl
    | none =>
      simp only [if_neg hexpects]
      rfl

/-- **A call** that is not refused at once: it may be held back for a while, then its request is
queued, everything settles, and it returns what its reply says. -/
theorem Matches.call {s : Session ε} {p : Interplay Link ε} (h : s.Matches .nothing p)
    (hsound : p.Sound) (c : Call) (hfree : (c.exclusive && s.isPending) = false)
    {t : Timeline ε}
    (ht : ∀ p' : Interplay Link ε, p'.engine = p.engine → p'.writing = p.writing →
      p'.Alone t.engine)
    (hroom : t.engine.requests.length < requestDepth) {k : Nat} {t' : Timeline ε}
    (hcall : t.call c.request = (k, t')) :
    (∀ reply, t'.engine.reply? k = some reply → ∃ p' : Interplay Link ε, p'.Fits c reply)
    ∧ ∃ acts : List (Interplay.Act Link ε),
      Matches { s with timeline := t', inFlight := inFlightAfter t'.engine k s.inFlight } .nothing
        (acts.foldl step p)
      ∧ (acts.foldl step p).log = ⟨c, s.isPending, p.cut, returned t'.engine k⟩ :: p.log := by
  have hmade := call_eq h hfree
  obtain ⟨paced, begun, produced, hpaced⟩ := ht (p.call c) (by rw [hmade]) (by rw [hmade])
  rw [hmade] at hpaced
  obtain ⟨asked, begun', produced', hasked⟩ :=
    exists_asked (p := { p with
      called := s.isPending
      doing := .queueing c
      engine := t.engine
      begun := begun
      produced := produced }) rfl h.writing_eq rfl hroom
  rw [hcall] at hasked
  -- where the call waits for its reply, with everything settled
  obtain ⟨q, hq⟩ : ∃ q, q = { p with
      called := s.isPending
      doing := .awaiting c k
      engine := t'.engine
      begun := begun'
      produced := produced' } := ⟨_, rfl⟩
  have hrun : (.call c :: (paced ++ asked)).foldl step p = q := by
    rw [List.foldl_cons, foldl_step_append, step, hmade, hpaced, hasked, hq]
  have hsettled : t'.engine.requests = [] := by
    rw [← (Prod.mk.inj hcall).2]
    exact Timeline.settle_requests _
  have hclear : q.Clear := by
    rw [hq]
    exact ⟨h.writing_eq, hsettled⟩
  have hdoing : q.doing = .awaiting c k := by rw [hq]
  have htake := take_eq hdoing hclear
  constructor
  · have hsound' : q.Sound := hrun ▸ hsound.foldl_step Link.neverBusy _
    intro reply hreply
    refine ⟨q, (hsound'.awaits c k hdoing).2 reply ?_⟩
    rw [hq]
    exact hreply
  · refine ⟨.call c :: (paced ++ asked) ++ [.take], ?_⟩
    rw [foldl_step_append, hrun, List.foldl_cons, List.foldl_nil, step, htake, hq]
    refine ⟨⟨rfl, ?_, rfl, h.writing_eq, h.late_eq⟩, rfl⟩
    show inFlightAfter t'.engine k p.inFlight = _
    rw [h.inFlight_eq]

/-- A call that is refused at once. -/
theorem Matches.refused {s : Session ε} {p : Interplay Link ε} (h : s.Matches .nothing p) (c : Call)
    (hbusy : (c.exclusive && s.isPending) = true) :
    s.Matches .nothing (p.call c)
      ∧ (p.call c).log = ⟨c, s.isPending, p.cut, .error .busy⟩ :: p.log := by
  have hpending : p.inFlight.isSome = s.isPending := congrArg Option.isSome h.inFlight_eq
  simp only [Interplay.call, h.doing_eq, hpending, hbusy, if_true]
  exact ⟨⟨h.engine_eq, h.inFlight_eq, rfl, h.writing_eq, h.late_eq⟩, rfl⟩

theorem alone_here {s : Session ε} {p : Interplay Link ε} (h : p.engine = s.timeline.engine) :
    p.Alone s.timeline.engine := by
  rw [← h]
  exact .refl p

theorem pace_alone {s : Session ε} {p : Interplay Link ε} (hengine : p.engine = s.timeline.engine)
    (hwriting : p.writing = none) : p.Alone s.pace.timeline.engine := by
  unfold pace
  split
  · exact .advance p hwriting s.timeline _ _ hengine
  · exact alone_here hengine

/-- Pacing changes the timeline only. -/
theorem pace_eq (s : Session ε) : s.pace = { s with timeline := s.pace.timeline } := by
  unfold pace
  split <;> rfl

theorem pace_inFlight (s : Session ε) : s.pace.inFlight = s.inFlight := by
  rw [pace_eq]

/-- A send changes the timeline and the command in flight only. -/
theorem send_eq (s : Session ε) (command : Text) :
    (s.send command).2 = { s with
      timeline := (s.send command).2.timeline
      inFlight := (s.send command).2.inFlight } := by
  have hpace := s.pace_eq
  unfold send
  split
  · rfl
  · generalize s.pace = paced at hpace ⊢
    simp only
    rw [hpace]
    split <;> rfl

theorem length_requests_pace (s : Session ε) :
    s.pace.timeline.engine.requests.length ≤ s.timeline.engine.requests.length := by
  unfold pace
  split
  · exact Timeline.length_requests_advance _ _ _
  · exact Nat.le_refl _

/-- A send is one call of the parties, and returns what that call returns. -/
theorem Matches.send {s : Session ε} {p : Interplay Link ε} (h : s.Matches .nothing p)
    (hsound : p.Sound) (hroom : s.timeline.engine.requests.length < requestDepth)
    (command : Text) :
    ∃ acts : List (Interplay.Act Link ε),
      (s.send command).2.Matches .nothing (acts.foldl step p)
      ∧ (acts.foldl step p).log = ⟨.send command, s.isPending, p.cut, (s.send command).1⟩ :: p.log := by
  unfold Session.send
  by_cases hpending : s.isPending = true
  · rw [if_pos hpending]
    exact ⟨[.call (.send command)], h.refused _ hpending⟩
  · rw [if_neg hpending]
    have hfree : ((Call.send command).exclusive && s.isPending) = false := by
      rw [Bool.eq_false_iff.mpr hpending]
      rfl
    rcases hcall : s.pace.timeline.call (.transmit · command) with ⟨k, t'⟩
    obtain ⟨hfits, acts, hmatches, hlog⟩ := h.call hsound (.send command) hfree
      (fun p' hengine hwriting => pace_alone (hengine.trans h.engine_eq) (hwriting.trans h.writing_eq))
      (Nat.lt_of_le_of_lt (length_requests_pace s) hroom) hcall
    refine ⟨acts, ?_⟩
    rw [hlog]
    unfold Timeline.transmit returned
    simp only [hcall]
    cases hreply : t'.engine.reply? k with
    | none =>
      rw [inFlightAfter_eq (by rw [hreply]; nofun)] at hmatches
      exact ⟨hmatches.congr rfl (pace_inFlight s), rfl⟩
    | some reply =>
      obtain ⟨p', hfits⟩ := hfits reply hreply
      cases reply with
      | transmitted outcome =>
        cases outcome with
        | ok number =>
          unfold inFlightAfter at hmatches
          rw [Engine.given?_eq_some.mpr hreply] at hmatches
          exact ⟨hmatches.congr rfl rfl, rfl⟩
        | error err =>
          rw [inFlightAfter_eq (by rw [hreply]; nofun)] at hmatches
          exact ⟨hmatches.congr rfl (pace_inFlight s), rfl⟩
      | _ => cases hfits

/-- A call that is no send puts nothing in flight. -/
theorem Matches.call_other {s : Session ε} {p : Interplay Link ε} (h : s.Matches .nothing p)
    (hsound : p.Sound) (hroom : s.timeline.engine.requests.length < requestDepth) (c : Call)
    (hother : ∀ command, c ≠ .send command) (hfree : (c.exclusive && s.isPending) = false) {k : Nat}
    {t' : Timeline ε} (hcall : s.timeline.call c.request = (k, t')) :
    Reached { s with timeline := t' } .nothing p := by
  obtain ⟨hfits, acts, hmatches, -⟩ := h.call hsound c hfree
    (fun p' hengine _ => alone_here (hengine.trans h.engine_eq)) hroom hcall
  have hkept (n : Nat) : t'.engine.reply? k ≠ some (.transmitted (.ok n)) := by
    intro hreply
    obtain ⟨p', hfits⟩ := hfits _ hreply
    cases c with
    | send command => exact hother command rfl
    | configure t => cases hfits
    | stats => cases hfits
  rw [inFlightAfter_eq hkept] at hmatches
  exact ⟨acts, hmatches⟩

theorem Matches.configure {s : Session ε} {p : Interplay Link ε} (h : s.Matches .nothing p)
    (hsound : p.Sound) (hroom : s.timeline.engine.requests.length < requestDepth)
    (t : Terminators) : (s.configure t).2.Reached .nothing p := by
  unfold Session.configure
  by_cases hpending : s.isPending = true
  · rw [if_pos hpending]
    exact h.reached
  · rw [if_neg hpending]
    have hfree : ((Call.configure t).exclusive && s.isPending) = false := by
      rw [Bool.eq_false_iff.mpr hpending]
      rfl
    rcases hcall : s.timeline.call (.configure · t) with ⟨k, t'⟩
    have hcalled := h.call_other hsound hroom (.configure t) nofun hfree hcall
    unfold Timeline.configure
    simp only [hcall]
    refine hcalled.trans fun p' h' => Matches.reached (h'.congr ?_ rfl)
    split <;> rfl

theorem Matches.stats {s : Session ε} {p : Interplay Link ε} (h : s.Matches .nothing p)
    (hsound : p.Sound) (hroom : s.timeline.engine.requests.length < requestDepth) :
    s.stats.2.Reached .nothing p := by
  rcases hcall : s.timeline.call .stats with ⟨k, t'⟩
  have hcalled := h.call_other hsound hroom .stats nofun rfl hcall
  unfold Session.stats Timeline.stats
  simp only [hcall]
  refine hcalled.trans fun p' h' => Matches.reached (h'.congr ?_ rfl)
  split <;> rfl

theorem Matches.configureTiming {s : Session ε} {p : Interplay Link ε} (h : s.Matches .nothing p)
    (hroom : s.timeline.engine.requests.length < requestDepth) (timing : Timing) :
    (s.configureTiming timing).2.Reached .nothing p := by
  unfold Session.configureTiming
  by_cases hpending : s.isPending = true
  · rw [if_pos hpending]
    exact h.reached
  · rw [if_neg hpending]
    split
    · exact h.reached
    · unfold Timeline.setPollStep
      by_cases hrunning : s.timeline.engine.running = true
      · rw [if_pos hrunning]
        have hnone : p.inFlight = none := by
          rw [h.inFlight_eq]
          exact Option.not_isSome_iff_eq_none.mp hpending
        have hopen : (s.timeline.engine.running
            && decide (s.timeline.engine.requests.length < requestDepth)) = true := by
          rw [hrunning, Bool.true_and, decide_eq_true_iff]
          exact hroom
        have hasked : Reached { s with
            timeline := { s.timeline with
              engine := (s.timeline.engine.submit fun _ => .setPollStep timing.pollStep).2 } }
            .nothing p := by
          refine ⟨[.setPollStep timing.pollStep], ?_⟩
          simp only [List.foldl_cons, List.foldl_nil, step, Interplay.setPollStep, h.doing_eq, hnone,
            h.engine_eq, hopen, if_true]
          exact ⟨rfl, h.inFlight_eq ▸ hnone.symm, rfl, h.writing_eq, h.late_eq⟩
        refine hasked.trans fun p' h' => h'.settle.trans fun p'' h'' => ?_
        exact Matches.reached (h''.congr rfl rfl)
      · rw [if_neg hrunning]
        exact h.reached

/-! ## Waiting -/

theorem Matches.giveUp {s : Session ε} {f : InFlight} {p : Interplay Link ε}
    (h : s.Matches (.waiting f) p) : (s.giveUp f).2.Reached .nothing p := by
  refine ⟨[.giveUp], ?_⟩
  simp only [List.foldl_cons, List.foldl_nil, step, Interplay.giveUp, h.doing_eq, h.engine_eq]
  exact ⟨rfl, h.inFlight_eq, rfl, h.writing_eq, h.late_eq⟩

theorem finish_timeline (s : Session ε) (expected : Status) (r : Resolved) :
    (s.finish expected r).2.timeline = s.timeline := by
  unfold finish
  split <;> rfl

theorem finish_inFlight (s : Session ε) (expected : Status) (r : Resolved) :
    (s.finish expected r).2.inFlight = s.inFlight := by
  unfold finish
  split <;> rfl

theorem Matches.advanceToSlot {s : Session ε} {f : InFlight} {p : Interplay Link ε}
    (h : s.Matches (.waiting f) p) (target : Nat) :
    (s.advanceToSlot f target).Reached (.waiting f) p :=
  h.alone (.advance p h.writing_eq s.timeline target _ h.engine_eq)

/-- Looking after the resolution ends the wait or leaves everything as it was. -/
theorem Matches.look {s : Session ε} {f : InFlight} {p : Interplay Link ε}
    (h : s.Matches (.waiting f) p) :
    match s.timeline.collect f.ticket with
    | (.delivered _, timeline) => Reached { s with timeline := timeline } .nothing p
    | (.closed, _) => s.Reached .nothing p
    | (.waiting, _) => True := by
  unfold Timeline.collect
  rcases hslot : s.timeline.engine.slot f.ticket with r | - | -
  · simp only [Engine.collect, hslot]
    refine ⟨[.look], ?_⟩
    simp only [List.foldl_cons, List.foldl_nil, step, Interplay.look, h.doing_eq, h.engine_eq,
      Engine.collect, hslot]
    exact ⟨rfl, h.inFlight_eq, rfl, h.writing_eq, h.late_eq⟩
  · simp only [Engine.collect, hslot]
  · simp only [Engine.collect, hslot]
    refine ⟨[.look], ?_⟩
    simp only [List.foldl_cons, List.foldl_nil, step, Interplay.look, h.doing_eq, h.engine_eq,
      Engine.collect, hslot]
    exact ⟨rfl, h.inFlight_eq, rfl, h.writing_eq, h.late_eq⟩

/-- **A round** lets time pass and looks. -/
theorem Matches.round {s : Session ε} {f : InFlight} {p : Interplay Link ε}
    (h : s.Matches (.waiting f) p) (expected : Status)
    (next : Session ε → Except Error Text × Session ε)
    (hnext : ∀ (s' : Session ε) (p' : Interplay Link ε), s'.Matches (.waiting f) p' →
      (next s').2.Reached .nothing p') :
    Reached
      (let (slot, timeline) := s.timeline.collect f.ticket
      match slot with
      | .delivered r => { s with timeline := timeline }.finish expected r
      | .closed => (.error .notConnected, s)
      | .waiting => next s).2 .nothing p := by
  have hlook := h.look
  rcases hcollect : s.timeline.collect f.ticket with ⟨r | - | -, timeline⟩
  · simp only [hcollect] at hlook
    refine hlook.trans fun p' h' => (h'.congr ?_ ?_).reached
    · rw [finish_timeline]
    · rw [finish_inFlight]
  · exact hnext s p h
  · simp only [hcollect] at hlook
    exact hlook

theorem Matches.waitRounds {f : InFlight} (expected : Status) (deadline rounds : Nat)
    {s : Session ε} {p : Interplay Link ε} (h : s.Matches (.waiting f) p) :
    (s.waitRounds f expected deadline rounds).2.Reached .nothing p := by
  have hadvance := h.advanceToSlot (s.now + min s.timing.pollStep (deadline - s.now))
  induction rounds generalizing s p with
  | zero =>
    unfold Session.waitRounds
    split
    · exact h.giveUp
    · exact hadvance.trans fun p' h' => h'.round expected (·.giveUp f) fun _ _ h'' => h''.giveUp
  | succ rounds ih =>
    unfold Session.waitRounds
    split
    · exact h.giveUp
    · exact hadvance.trans fun p' h' =>
        h'.round expected (·.waitRounds f expected deadline rounds) fun _ _ h'' =>
          ih h'' (h''.advanceToSlot _)

theorem Matches.wait {s : Session ε} {p : Interplay Link ε} (h : s.Matches .nothing p)
    (timeout : Nat) (expected : Status) : (s.wait timeout expected).2.Reached .nothing p := by
  unfold Session.wait
  split
  · exact h.reached
  · cases hf : s.inFlight with
    | none => exact h.reached
    | some f =>
      have hwait : Reached { s with inFlight := none } (.waiting f) p := by
        refine ⟨[.wait], ?_⟩
        simp only [List.foldl_cons, List.foldl_nil, step, Interplay.wait, h.doing_eq,
          h.inFlight_eq, hf]
        exact ⟨h.engine_eq, rfl, rfl, h.writing_eq, h.late_eq⟩
      exact hwait.trans fun p' h' => h'.waitRounds expected _ _

/-! ## Scripts -/

/-- A send that is given up where it has to wait was queued and dropped, or neither. -/
theorem Matches.sendAbandoned {s : Session ε} {p : Interplay Link ε} (h : s.Matches .nothing p)
    (hsound : p.Sound) (hroom : s.timeline.engine.requests.length < requestDepth)
    (command : Text) : (s.sendAbandoned command).2.Reached .nothing p := by
  unfold Session.sendAbandoned
  by_cases hpending : s.isPending = true
  · rw [if_pos hpending]
    exact h.reached
  · rw [if_neg hpending]
    split
    · exact h.reached
    · split
      · have hfree : ((Call.send command).exclusive && s.isPending) = false := by
          rw [Bool.eq_false_iff.mpr hpending]
          rfl
        have hqueued := enqueue_eq (p := { p with
          called := s.isPending
          doing := .queueing (.send command) }) rfl (h.engine_eq ▸ hroom)
        -- nobody has answered yet, so nothing came too late
        have hungiven : ((p.engine.submit (Call.send command).request).2).given?
            p.engine.nextTicket = none := by
          unfold Engine.given?
          rw [show ((p.engine.submit (Call.send command).request).2).reply? p.engine.nextTicket = none
            from hsound.reply?_nextTicket]
        refine ⟨[.call (.send command), .enqueue, .drop], ?_⟩
        simp only [List.foldl_cons, List.foldl_nil, step, call_eq h hfree, hqueued, Interplay.drop,
          hungiven]
        refine ⟨?_, h.inFlight_eq, rfl, h.writing_eq, h.late_eq⟩
        show ((p.engine.submit (Call.send command).request).2).abandon p.engine.nextTicket = _
        rw [h.engine_eq]
        rfl
      · exact h.reached

theorem Matches.nextEvent {s : Session ε} {p : Interplay Link ε} (h : s.Matches .nothing p)
    (timeout : Nat) : (s.nextEvent timeout).2.Reached .nothing p := by
  have hadvance : Reached { s with
      timeline := s.timeline.advance (s.now + timeout) Timeline.eventReady } .nothing p :=
    h.alone (.advance p h.writing_eq s.timeline _ _ h.engine_eq)
  refine hadvance.trans fun p' h' => h'.alone ?_
  have hevents := Interplay.Alone.events p'
  rw [h'.engine_eq] at hevents
  exact hevents _

theorem Matches.happen {s : Session ε} {p : Interplay Link ε} (h : s.Matches .nothing p)
    (e : Happening) : (s.onTimeline (·.happen e)).Reached .nothing p := by
  have hlink (f : Link → Link) : (s.onTimeline (·.onLink f)).Reached .nothing p := by
    refine h.alone ?_
    have hlink := Interplay.Alone.link p (f p.engine.transport)
    rw [h.engine_eq] at hlink
    exact hlink
  cases e with
  | inject bytes => exact hlink _
  | injectAfter delay bytes => exact Matches.reached (h.congr rfl rfl)
  | expect request response => exact hlink _
  | setConnected up => exact hlink _
  | sleep time => exact h.alone (.advance p h.writing_eq s.timeline _ _ h.engine_eq)

/-- **Whatever the session does** is made of steps of the two parties. -/
theorem Matches.act {s : Session ε} {p : Interplay Link ε} (h : s.Matches .nothing p)
    (hsound : p.Sound) (hroom : s.timeline.engine.requests.length < requestDepth)
    (action : Action) : (s.act action).2.Reached .nothing p := by
  cases action with
  | send command =>
    obtain ⟨acts, hmatches, -⟩ := h.send hsound hroom command
    exact ⟨acts, hmatches⟩
  | sendAbandoned command => exact h.sendAbandoned hsound hroom command
  | wait timeout expected => exact h.wait timeout expected
  | waitFor latency expected => exact h.wait _ expected
  | request command expected =>
    obtain ⟨acts, hmatches, -⟩ := h.send hsound hroom command
    simp only [Session.act, Session.request]
    rcases hsend : s.send command with ⟨err | _, sent⟩
    · rw [hsend] at hmatches
      exact ⟨acts, hmatches⟩
    · rw [hsend] at hmatches
      have hsent : sent.Reached .nothing p := ⟨acts, hmatches⟩
      exact hsent.trans fun p' h' => h'.wait _ expected
  | configure t => exact h.configure hsound hroom t
  | configureTiming timing => exact h.configureTiming hroom timing
  | setTimeouts short standard long => exact Matches.reached (h.congr rfl rfl)
  | register => exact Matches.reached (h.congr rfl rfl)
  | clear => exact Matches.reached (h.congr rfl rfl)
  | nextEvent timeout => exact h.nextEvent timeout
  | stats => exact h.stats hsound hroom
  | happen e => exact h.happen e

theorem Matches.run (script : List Action) {s : Session ε} {p : Interplay Link ε}
    (h : s.Matches .nothing p) (hsound : p.Sound) (hnone : s.timeline.engine.requests = []) :
    (s.run script).2.Reached .nothing p ∧ (s.run script).2.timeline.engine.requests = [] := by
  induction script generalizing s p with
  | nil => exact ⟨h.reached, hnone⟩
  | cons action more ih =>
    have hroom : s.timeline.engine.requests.length < requestDepth := by
      rw [hnone]
      decide
    obtain ⟨acts, hacts⟩ :=
      (h.act hsound hroom action).trans fun p' h' => h'.settle
    obtain ⟨hreached, hleft⟩ :=
      ih hacts (hsound.foldl_step Link.neverBusy acts) (Timeline.settle_requests _)
    obtain ⟨rest, hrest⟩ := hreached
    refine ⟨⟨acts ++ rest, ?_⟩, hleft⟩
    rw [foldl_step_append]
    exact hrest

/-- What an opened session was opened with. -/
theorem of_openOver {link : Link} {setup : Setup ε} {s : Session ε}
    (hopen : setup.openOver link = .ok s) :
    setup.config.validate = .ok () ∧ link.connected = true ∧ s = {
      timeline := .start setup.config setup.table link
      timing := setup.config.timing
      timeouts := setup.config.timeouts } := by
  unfold Setup.openOver at hopen
  cases hvalid : setup.config.validate with
  | error err =>
    rw [hvalid] at hopen
    cases hopen
  | ok _ =>
    rw [hvalid] at hopen
    by_cases hup : link.connected = true
    · simp only [hup, if_true] at hopen
      cases hopen
      exact ⟨rfl, hup, rfl⟩
    · simp only [hup] at hopen
      cases hopen

/-- **A session on its clock is a run of the two parties,** wherever a script has taken it, and
nothing is left in the queue then. -/
theorem exists_interplay {link : Link} {setup : Setup ε} {s : Session ε}
    (hopen : setup.openOver link = .ok s) (script : List Action) :
    (∃ acts, (s.run script).2.Matches .nothing (of setup.config setup.table link acts))
      ∧ (s.run script).2.timeline.engine.requests = [] := by
  obtain ⟨-, -, hs⟩ := of_openOver hopen
  obtain ⟨p, hp⟩ : ∃ p : Interplay Link ε, p = { engine := .start setup.config setup.table link } :=
    ⟨_, rfl⟩
  -- the parties begin, and everything settles for the first time
  have hstart : s.Reached .nothing p := by
    obtain ⟨acts, begun, produced, hacts⟩ := Interplay.Alone.settle p (by rw [hp])
      { engine := .start setup.config setup.table link } (by rw [hp])
    refine ⟨acts, ?_⟩
    rw [hacts, hp, hs]
    exact ⟨rfl, rfl, rfl, rfl, rfl⟩
  obtain ⟨acts, hacts⟩ := hstart
  have hsound : (acts.foldl step p).Sound := by
    rw [hp]
    exact Interplay.of_sound Link.neverBusy setup.config setup.table link acts
  have hnone : s.timeline.engine.requests = [] := by
    rw [hs]
    exact Timeline.settle_requests _
  obtain ⟨⟨more, hmore⟩, hleft⟩ := hacts.run script hsound hnone
  refine ⟨⟨acts ++ more, ?_⟩, hleft⟩
  unfold of
  rw [foldl_step_append, ← hp]
  exact hmore

end Session

end ModemLink
