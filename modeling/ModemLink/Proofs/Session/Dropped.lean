/-
What becomes of a send that was dropped.

The engine asks once whether anybody still waits for the number, at the moment when it answers. A send
that was dropped before that gives its number up. One that is dropped afterwards leaves a number
standing that nobody will take, and its command stays in the slot until it is confirmed.
-/
import ModemLink.Proofs.Session.Traces

set_option autoImplicit false

namespace ModemLink

theorem Engine.Heard.abandoned_eq {τ ε : Type} {e e' : Engine τ ε} {resolutions : List Resolution}
    (h : e.Heard e' resolutions) : e'.abandoned = e.abandoned := by
  cases h <;> rfl

theorem Engine.Heard.replies_eq {τ ε : Type} {e e' : Engine τ ε} {resolutions : List Resolution}
    (h : e.Heard e' resolutions) : e'.replies = e.replies := by
  cases h <;> rfl

theorem Engine.answerTransmit_abandoned {τ ε : Type} (e : Engine τ ε) (ticket : Nat)
    (outcome : Except Error Nat) :
    (e.answerTransmit ticket outcome).abandoned = e.abandoned := by
  unfold answerTransmit
  cases outcome with
  | ok number => simp only [apply_ite abandoned, post, ite_self]
  | error err => simp only [apply_ite abandoned, post, ite_self]

namespace Interplay

variable {τ ε : Type}

/-! ## Too late, or in time -/

variable {s : Interplay τ ε}

theorem Served.frame [Transport τ] {s' : Interplay τ ε} (h : s.Served s') :
    s'.engine.abandoned = s.engine.abandoned ∧ s'.late = s.late ∧ s'.doing = s.doing
      ∧ s'.called = s.called ∧ s'.cut = s.cut ∧ s'.log = s.log ∧ s'.inFlight = s.inFlight := by
  cases h <;> exact ⟨rfl, rfl, rfl, rfl, rfl, rfl, rfl⟩

/-- **What a step leaves alone.** Only dropping a send leaves a ticket behind, only the engine writes and
answers, and a call returns only where it is made or takes its reply. -/
structure Frame (act : Act τ ε) (s s' : Interplay τ ε) : Prop where
  left : act ≠ .drop → s'.engine.abandoned = s.engine.abandoned ∧ s'.late = s.late
  outcomes : (∀ now, act ≠ .serve now) → act ≠ .answer →
    s'.writing = s.writing ∧ s'.engine.replies = s.engine.replies
  log : (∀ c, act ≠ .call c) → act ≠ .take → s'.log = s.log

theorem Frame.same {act : Act τ ε} {s s' : Interplay τ ε}
    (habandoned : s'.engine.abandoned = s.engine.abandoned) (hlate : s'.late = s.late)
    (hwriting : s'.writing = s.writing) (hreplies : s'.engine.replies = s.engine.replies)
    (hlog : s'.log = s.log) : Frame act s s' :=
  ⟨fun _ => ⟨habandoned, hlate⟩, fun _ _ => ⟨hwriting, hreplies⟩, fun _ _ => hlog⟩

theorem step_frame [Transport τ] (s : Interplay τ ε) (act : Act τ ε) : Frame act s (s.step act) := by
  cases act with
  | call c =>
    refine ⟨fun _ => ?_, fun _ _ => ?_, fun hcall _ => absurd rfl (hcall c)⟩
    all_goals
      simp only [step, call]
      split
      · split <;> exact ⟨rfl, rfl⟩
      · exact ⟨rfl, rfl⟩
  | enqueue =>
    simp only [step, enqueue]
    split
    · split <;> exact .same rfl rfl rfl rfl rfl
    · exact .same rfl rfl rfl rfl rfl
  | setPollStep step =>
    simp only [Interplay.step, setPollStep]
    split
    · split <;> exact .same rfl rfl rfl rfl rfl
    · exact .same rfl rfl rfl rfl rfl
  | drop =>
    refine ⟨fun hdrop => absurd rfl hdrop, fun _ _ => ?_, fun _ _ => ?_⟩
    · simp only [step, drop]
      split <;> exact ⟨rfl, rfl⟩
    · simp only [step, drop]
      split <;> rfl
  | take =>
    refine ⟨fun _ => ?_, fun _ _ => ?_, fun _ htake => absurd rfl htake⟩
    all_goals
      simp only [step, take]
      split
      · split
        · exact ⟨rfl, rfl⟩
        · exact ⟨rfl, rfl⟩
        · split <;> exact ⟨rfl, rfl⟩
      · exact ⟨rfl, rfl⟩
  | wait =>
    simp only [step, wait]
    split <;> exact .same rfl rfl rfl rfl rfl
  | look =>
    simp only [step, look]
    split
    · split
      · rename_i r engine hcollect
        obtain rfl : _ = engine := congrArg Prod.snd hcollect
        exact .same rfl rfl rfl rfl rfl
      · exact .same rfl rfl rfl rfl rfl
      · exact .same rfl rfl rfl rfl rfl
    · exact .same rfl rfl rfl rfl rfl
  | giveUp =>
    simp only [step, giveUp]
    split
    · unfold Engine.submitCancel
      split <;> exact .same rfl rfl rfl rfl rfl
    · exact .same rfl rfl rfl rfl rfl
  | serve now =>
    simp only [step]
    by_cases hwriting : s.writing = none
    · obtain ⟨habandoned, hlate, -, -, -, hlog, -⟩ := (serve_served s now hwriting).frame
      exact ⟨fun _ => ⟨habandoned, hlate⟩, fun hserve => absurd rfl (hserve now), fun _ _ => hlog⟩
    · rw [serve_of_writing now (Option.isSome_iff_ne_none.mpr hwriting)]
      exact .same rfl rfl rfl rfl rfl
  | answer =>
    refine ⟨fun _ => ?_, fun _ hanswer => absurd rfl hanswer, fun _ _ => ?_⟩
    · simp only [step, answer]
      split
      · exact ⟨Engine.answerTransmit_abandoned _ _ _, rfl⟩
      · exact ⟨rfl, rfl⟩
    · simp only [step, answer]
      split <;> rfl
  | read now outcome =>
    have hheard := Engine.received_heard s.engine now outcome
    simp only [step, read]
    split
    · exact .same hheard.abandoned_eq rfl rfl hheard.replies_eq rfl
    · exact .same rfl rfl rfl rfl rfl
  | link link => exact .same rfl rfl rfl rfl rfl
  | events q => exact .same rfl rfl rfl rfl rfl
  | stop =>
    have hstop : s.step .stop
        = if s.writing.isNone then { s with engine := s.engine.stop } else s := rfl
    rw [hstop]
    split <;> exact .same rfl rfl rfl rfl rfl

/-- **Whether a send was dropped too late** is settled once it is dropped. -/
theorem Traced.late_step [Transport τ] (h : s.Traced) {k : Nat} (hk : k ∈ s.engine.abandoned)
    (act : Act τ ε) :
    k ∈ (s.step act).engine.abandoned ∧ ∀ n, (k, n) ∈ (s.step act).late ↔ (k, n) ∈ s.late := by
  by_cases hact : act = .drop
  · subst hact
    simp only [Interplay.step, Interplay.drop]
    split
    · exact ⟨hk, fun _ => Iff.rfl⟩
    · rename_i command j hdoing
      refine ⟨List.mem_cons_of_mem _ hk, fun n => ?_⟩
      -- the ticket at hand is another one
      have hne : k ≠ j := by
        rintro rfl
        exact h.awaits _ k hdoing hk
      split
      · rw [List.mem_cons]
        refine ⟨fun hn => hn.resolve_left fun heq => hne (Prod.mk.inj heq).1, .inr⟩
      · exact Iff.rfl
    · exact ⟨hk, fun _ => Iff.rfl⟩
  · obtain ⟨habandoned, hlate⟩ := (s.step_frame act).left hact
    rw [habandoned, hlate]
    exact ⟨hk, fun _ => Iff.rfl⟩

theorem Traced.late_foldl_step [Transport τ] (hlink : Transport.NeverBusy τ)
    (acts : List (Act τ ε)) (h : s.Traced) (hsound : s.Sound) {k : Nat}
    (hk : k ∈ s.engine.abandoned) :
    k ∈ (acts.foldl Interplay.step s).engine.abandoned
      ∧ ∀ n, (k, n) ∈ (acts.foldl Interplay.step s).late ↔ (k, n) ∈ s.late := by
  induction acts generalizing s with
  | nil => exact ⟨hk, fun _ => Iff.rfl⟩
  | cons act acts ih =>
    obtain ⟨hk', hlate⟩ := h.late_step hk act
    obtain ⟨hk'', hlate'⟩ := ih (h.step hsound act) (hsound.step hlink act) hk'
    exact ⟨hk'', fun n => (hlate' n).trans (hlate n)⟩

/-- With nothing under way, the slot holds the command of a dropped send exactly if that send was
dropped too late and its number is not resolved. -/
theorem Traced.inSlot_iff (h : s.Traced) (hclear : s.Clear) {k : Nat}
    (hk : k ∈ s.engine.abandoned) :
    (∃ n, (k, n) ∈ s.begun ∧ s.InSlot n) ↔ ∃ n, (k, n) ∈ s.late ∧ ¬ s.Confirmed n := by
  constructor
  · rintro ⟨n, hbegun, hn⟩
    refine ⟨n, ?_, fun hconfirmed => h.not_inSlot_of_confirmed hconfirmed hn⟩
    rcases h.slot n hn with ⟨j, hj⟩ | ⟨j, hj⟩
    · cases hclear.1.symm.trans hj
    · obtain rfl := h.ticket_unique (h.given_begun j n hj) hbegun
      exact h.dropped j n hk hj
  · rintro ⟨n, hlate, hopen⟩
    have hgiven := (h.late k n hlate).2
    refine ⟨n, h.given_begun k n hgiven, ?_⟩
    exact (h.stands k n hgiven (.inl hlate)).resolve_right hopen

/-- With nothing under way and no command in flight, the slot is empty but for a number that came too
late. -/
theorem inSlot_iff_late (h : s.Traced) (hsound : s.Sound) (hclear : s.Clear)
    (hdoing : s.doing = .nothing) (hinFlight : s.inFlight = none)
    (hrunning : s.engine.running = true) (hconnected : s.engine.connected = true) :
    (∃ n, s.InSlot n) ↔ ∃ j n, (j, n) ∈ s.late ∧ ¬ s.Confirmed n := by
  constructor
  · rintro ⟨n, hn⟩
    rcases (hsound.stage hrunning).of_free (.inl hdoing) with ha | ⟨f, -, hf, -⟩
    · rcases ha.slot n hn with hhead | ⟨j, hj⟩ | ⟨j, hj⟩ | hcut
      · rw [hclear.2] at hhead
        cases hhead
      · cases hclear.1.symm.trans hj
      · exact ⟨j, n, hj, fun hconfirmed => h.not_inSlot_of_confirmed hconfirmed hn⟩
      · cases (hsound.cut hrunning hcut).1.symm.trans hconnected
    · cases hinFlight.symm.trans hf
  · rintro ⟨j, n, hlate, hopen⟩
    exact ⟨n, (h.stands j n (h.late j n hlate).2 (.inl hlate)).resolve_right hopen⟩

/-- Once its command is written or refused, a send that is still there gets the outcome. -/
theorem answer_take_log {c : Call} {k : Nat} {o : Except Error Nat}
    (hwriting : s.writing = some (k, o)) (hdoing : s.doing = .awaiting c k)
    (hkept : k ∉ s.engine.abandoned) :
    s.answer.take.log = ⟨c, s.called, s.cut, o.map fun _ => ()⟩ :: s.log := by
  have hreply : (s.engine.answerTransmit k o).reply? k = some (.transmitted o) := by
    unfold Engine.answerTransmit
    cases o with
    | ok n =>
      simp only [if_neg hkept]
      exact Engine.reply?_post_self _ k _
    | error err =>
      simp only [if_neg hkept]
      exact Engine.reply?_post_self _ k _
  have hanswer : s.answer = { s with
      writing := none
      engine := s.engine.answerTransmit k o } := by
    unfold answer
    rw [hwriting]
  rw [hanswer]
  unfold take
  simp only [hdoing]
  cases o with
  | ok n =>
    simp only [Engine.given?_eq_some.mpr hreply]
    rfl
  | error err =>
    have hungiven : (s.engine.answerTransmit k (.error err)).given? k = none := by
      unfold Engine.given?
      rw [hreply]
    simp only [hungiven, hreply]
    rfl

/-- What is said of a command depends on the link and on the slot. -/
theorem Served.written [Transport τ] (hlink : Transport.NeverBusy τ) {s' : Interplay τ ε}
    (h : s.Served s') {ticket : Nat} {command : Text} {rest : List Request}
    (hrequests : s.engine.requests = .transmit ticket command :: rest) :
    ∃ o, s'.writing = some (ticket, o)
      ∧ (o.map (fun _ => ()) = .error .busy
        ↔ s.engine.connected = true ∧ s.engine.receiver.tracker.current.isSome = true) := by
  cases h with
  | refused _ _ _ err hrequests' hbusy =>
    cases hrequests.symm.trans hrequests'
    refine ⟨.error err, rfl, ?_⟩
    rw [← hbusy]
    exact ⟨Except.error.inj, congrArg _⟩
  | failed _ _ _ r link now err hrequests' _ hidle _ hsend =>
    cases hrequests.symm.trans hrequests'
    refine ⟨.error err, rfl, ?_⟩
    rw [hidle]
    constructor
    · -- a link does not say busy of itself
      intro hbusy
      exact absurd (Except.error.inj hbusy) (hlink _ _ _ _ _ hsend)
    · rintro ⟨-, hsome⟩
      cases hsome
  | begun _ _ _ r p link hrequests' _ hidle =>
    cases hrequests.symm.trans hrequests'
    refine ⟨.ok p.number, rfl, ?_⟩
    rw [hidle]
    constructor
    · intro hbusy
      cases hbusy
    · rintro ⟨-, hsome⟩
      cases hsome
  | nothing hnone => cases hnone.symm.trans hrequests
  | cancel _ _ hother => cases hother.symm.trans hrequests
  | pollStep _ _ hother => cases hother.symm.trans hrequests
  | configured _ _ _ _ _ hother => cases hother.symm.trans hrequests
  | stats _ _ _ hother => cases hother.symm.trans hrequests
  | shutdown _ _ hother => cases hother.symm.trans hrequests

/-- With nothing under way, a send is queued at once. -/
theorem send_queued (hclear : s.Clear) (hdoing : s.doing = .nothing)
    (hinFlight : s.inFlight = none) (hrunning : s.engine.running = true) (command : Text) :
    (s.call (.send command)).enqueue = { s with
      called := false
      doing := .awaiting (.send command) s.engine.nextTicket
      engine := { s.engine with
        nextTicket := s.engine.nextTicket + 1
        requests := [.transmit s.engine.nextTicket command] } } := by
  have hcall : s.call (.send command)
      = { s with called := false, doing := .queueing (.send command) } := by
    simp only [call, hdoing, hinFlight, Option.isSome_none, Bool.and_false, Bool.false_eq_true,
      if_false]
  have hroom : (s.engine.running && decide (requestDepth ≤ ([] : List Request).length)) = false :=
    Bool.and_false _
  rw [hcall]
  simp only [enqueue, Engine.submit, if_pos hrunning, hclear.2, hroom, Bool.false_eq_true, if_false]
  rfl

/-- A send with nothing else under way is refused as busy exactly if something is in the slot. -/
theorem send_outcome [Transport τ] (hlink : Transport.NeverBusy τ) (hsound : s.Sound)
    (hclear : s.Clear) (hdoing : s.doing = .nothing) (hinFlight : s.inFlight = none)
    (hrunning : s.engine.running = true) (hconnected : s.engine.connected = true)
    (command : Text) (now : Nat) :
    ∃ outcome, ([.call (.send command), .enqueue, .serve now, .answer, .take].foldl step s).log
        = ⟨.send command, false, s.cut, outcome⟩ :: s.log
      ∧ (outcome = .error .busy ↔ ∃ n, s.InSlot n) := by
  show ∃ outcome, (((s.call (.send command)).enqueue.serve now).answer.take).log = _ ∧ _
  rw [send_queued hclear hdoing hinFlight hrunning command]
  -- the request is the only one, so it is served next
  have hserved := serve_served { s with
    called := false
    doing := .awaiting (.send command) s.engine.nextTicket
    engine := { s.engine with
      nextTicket := s.engine.nextTicket + 1
      requests := [.transmit s.engine.nextTicket command] } } now hclear.1
  obtain ⟨o, hwriting, hbusy⟩ := hserved.written hlink rfl
  obtain ⟨habandoned, -, hdoing', hcalled, hcut, hlog, -⟩ := hserved.frame
  have hkept := hsound.nextTicket_not_mem_abandoned
  rw [← habandoned] at hkept
  refine ⟨o.map fun _ => (), ?_, ?_⟩
  · rw [answer_take_log hwriting hdoing' hkept, hcalled, hcut, hlog]
  · rw [hbusy]
    constructor
    · rintro ⟨-, hsome⟩
      exact Sound.isSome_iff_inSlot.mp hsome
    · intro hslot
      exact ⟨hconnected, Sound.isSome_iff_inSlot.mpr hslot⟩

/-- **A send that is dropped releases the slot exactly if it is dropped in time.** A send waits for its
reply and is dropped at some moment: its request is still queued, or its command is being written, or
its number stands there already. Once nothing is under way, the slot holds its command exactly if the
number stood there and was not resolved since. And with a link that is up and no command in flight, the
next send is refused as busy exactly if some send of the run was dropped too late and its number was not
resolved since. -/
theorem dropped_send_pending_iff [Transport τ] (hlink : Transport.NeverBusy τ) (config : Config)
    (table : EventTable ε) (link : τ) (before after : List (Act τ ε)) {command : Text} {k : Nat}
    (hdoing : (of config table link before).doing = .awaiting (.send command) k) :
    let dropped := of config table link before
    let s := of config table link (before ++ .drop :: after)
    s.Clear →
      ((∃ n, (k, n) ∈ s.begun ∧ s.InSlot n) ↔ ∃ n, dropped.Given k n ∧ ¬ s.Confirmed n)
      ∧ (s.doing = .nothing → s.inFlight = none → s.engine.running = true →
        s.engine.connected = true → ∀ next now, ∃ outcome,
          ([.call (.send next), .enqueue, .serve now, .answer, .take].foldl step s).log
            = ⟨.send next, false, s.cut, outcome⟩ :: s.log
          ∧ (outcome = .error .busy ↔ ∃ j n, (j, n) ∈ s.late ∧ ¬ s.Confirmed n)) := by
  intro dropped s hclear
  have hsound := of_sound hlink config table link (before ++ .drop :: after)
  have htraced := of_traced hlink config table link (before ++ .drop :: after)
  -- the moment at which the send is dropped
  have hawaits : dropped.doing = .awaiting (.send command) k := hdoing
  have hdropped := of_traced hlink config table link before
  have hengine : dropped.drop.engine = dropped.engine.abandon k := by
    simp only [drop, hawaits]
  have habandoned : k ∈ dropped.drop.engine.abandoned := by
    rw [hengine]
    exact List.mem_cons_self
  have hreply : dropped.drop.engine.reply? k = dropped.engine.reply? k := congrArg (·.reply? k) hengine
  have hlate (n : Nat) : (k, n) ∈ dropped.drop.late ↔ dropped.Given k n := by
    have hgiven : dropped.drop.Given k n ↔ dropped.Given k n := iff_of_eq (congrArg (· = _) hreply)
    refine Iff.trans ⟨fun hn => ?_, fun hn => ?_⟩ hgiven
    · exact (hdropped.drop.late k n hn).2
    · exact hdropped.drop.dropped k n habandoned hn
  have hrun : s = after.foldl step dropped.drop := by
    show (before ++ .drop :: after).foldl step _ = _
    rw [foldl_step_append, List.foldl_cons]
    rfl
  obtain ⟨hk, hsettled⟩ := hdropped.drop.late_foldl_step hlink after
    (of_sound hlink config table link before).drop habandoned
  rw [← hrun] at hk hsettled
  constructor
  · refine (htraced.inSlot_iff hclear hk).trans (exists_congr fun n => ?_)
    exact and_congr ((hsettled n).trans (hlate n)) Iff.rfl
  · intro hnothing hinFlight hrunning hconnected next now
    obtain ⟨outcome, hlog, hbusy⟩ :=
      send_outcome hlink hsound hclear hnothing hinFlight hrunning hconnected next now
    refine ⟨outcome, hlog, hbusy.trans ?_⟩
    exact inSlot_iff_late htraced hsound hclear hnothing hinFlight hrunning hconnected

/-- A send that is dropped while its command is being written releases the slot, and the next send goes
through. -/
theorem dropped_while_written :
    let before : List (Act Link Unit) := [.call (.send "AT\r\n"), .enqueue, .serve 0]
    let after : List (Act Link Unit) := [.answer]
    let s := of {} .empty {} (before ++ .drop :: after)
    (of {} .empty {} before).doing = .awaiting (.send "AT\r\n") 0 ∧ s.Clear
      ∧ (¬ ∃ n, (0, n) ∈ s.begun ∧ s.InSlot n)
      ∧ ∃ outcome, ([.call (.send "AT+X\r\n"), .enqueue, .serve 0, .answer, .take].foldl step s).log
          = [⟨.send "AT+X\r\n", false, false, outcome⟩] ∧ outcome ≠ .error .busy := by
  intro before after s
  have hdoing : (of {} .empty {} before).doing = .awaiting (.send "AT\r\n") 0 := by decide +kernel
  have hclear : s.Clear := ⟨by decide +kernel, by decide +kernel⟩
  obtain ⟨hpending, hnext⟩ :=
    dropped_send_pending_iff Link.neverBusy {} .empty {} before after hdoing hclear
  refine ⟨hdoing, hclear, fun h => ?_, ?_⟩
  · obtain ⟨n, hn, -⟩ := hpending.mp h
    have hnew : (of {} .empty {} before).engine.reply? 0 = none := by decide +kernel
    cases hnew.symm.trans hn
  · obtain ⟨outcome, hlog, hbusy⟩ := hnext (by decide +kernel) (by decide +kernel)
      (by decide +kernel) (by decide +kernel) "AT+X\r\n" 0
    have hlate : s.late = [] := by decide +kernel
    refine ⟨outcome, hlog, fun h => ?_⟩
    obtain ⟨j, n, hjn, -⟩ := hbusy.mp h
    rw [hlate] at hjn
    cases hjn

/-- A send that is dropped after its reply leaves its command in the slot, although nothing is under way
any more, and the next send is refused. -/
theorem dropped_after_reply :
    let s := of {} (.empty : EventTable Unit) ({} : Link)
      [.call (.send "AT\r\n"), .enqueue, .serve 0, .answer, .drop]
    s.Clear ∧ s.produced = [] ∧ s.inFlight = none
      ∧ s.begun = [(0, 1)] ∧ s.engine.receiver.tracker.current.map Pending.number = some 1
      ∧ ([.call (.send "AT+X\r\n"), .enqueue, .serve 0, .answer, .take].foldl step s).log
          = [⟨.send "AT+X\r\n", false, false, .error .busy⟩] := by
  intro s
  refine ⟨⟨?_, ?_⟩, ?_, ?_, ?_, ?_, ?_⟩ <;> decide +kernel

end Interplay

end ModemLink
