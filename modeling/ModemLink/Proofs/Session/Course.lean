/-
How a session gets from one moment to another.

Whatever is done with a session, its timeline changes in a few ways only: the clock goes forward,
everything settles, a request is queued, something happens to the link, a callback comes or goes, an
event is taken. `Change` lists them, and a `Course` is any number of them in a row, with the events that
were asked for and came. Whether the link may go down on the way is a parameter of both.

Every script is a course. So what each change keeps holds wherever a script leads, and no proof of that
kind has to follow a wait through its rounds or a sleep through its moments again. The first of these
facts come with it: the moments ahead stay in order, the clock passes none of them by, and the engine
keeps running.
-/
import ModemLink.Proofs.Session.Clocked

set_option autoImplicit false

namespace ModemLink

/-! ## The moments ahead -/

namespace Schedule

/-- The moments come in order, and none of them before a time. -/
structure Ordered (now : Nat) (s : Schedule) : Prop where
  sorted : s.Pairwise fun m m' => m.time < m'.time
  ahead : ∀ m ∈ s, now ≤ m.time

variable {now : Nat} {s : Schedule}

theorem time_of_mem_add {time : Nat} {bytes : Bytes} {m : Moment} (h : m ∈ s.add time bytes) :
    m.time = time ∨ ∃ m' ∈ s, m'.time = m.time := by
  induction s with
  | nil =>
    rw [List.mem_singleton.mp h]
    exact .inl rfl
  | cons m' rest ih =>
    unfold add at h
    split at h
    · rcases List.mem_cons.mp h with rfl | h
      · exact .inl rfl
      · exact .inr ⟨m, h, rfl⟩
    · split at h
      · rcases List.mem_cons.mp h with rfl | h
        · exact .inl rfl
        · exact .inr ⟨m, List.mem_cons_of_mem _ h, rfl⟩
      · rcases List.mem_cons.mp h with rfl | h
        · exact .inr ⟨m, List.mem_cons_self, rfl⟩
        · rcases ih h with htime | ⟨m'', hm'', htime⟩
          · exact .inl htime
          · exact .inr ⟨m'', List.mem_cons_of_mem _ hm'', htime⟩

theorem sorted_add (time : Nat) (bytes : Bytes)
    (h : s.Pairwise fun m m' => m.time < m'.time) :
    (s.add time bytes).Pairwise fun m m' => m.time < m'.time := by
  induction s with
  | nil => exact List.pairwise_singleton _ _
  | cons m rest ih =>
    obtain ⟨hm, hrest⟩ := List.pairwise_cons.mp h
    unfold add
    by_cases hbefore : time < m.time
    · rw [if_pos hbefore]
      refine List.pairwise_cons.mpr ⟨fun m' hm' => ?_, h⟩
      rcases List.mem_cons.mp hm' with rfl | hm'
      · exact hbefore
      · exact Nat.lt_trans hbefore (hm m' hm')
    · rw [if_neg hbefore]
      by_cases hsame : time = m.time
      · rw [if_pos hsame]
        exact List.pairwise_cons.mpr ⟨fun m' hm' => hsame ▸ hm m' hm', hrest⟩
      · rw [if_neg hsame]
        refine List.pairwise_cons.mpr ⟨fun m' hm' => ?_, ih hrest⟩
        rcases time_of_mem_add hm' with htime | ⟨m'', hm'', htime⟩
        · omega
        · exact htime ▸ hm m'' hm''

theorem Ordered.add (h : s.Ordered now) {time : Nat} (bytes : Bytes) (hle : now ≤ time) :
    (s.add time bytes).Ordered now := by
  refine ⟨sorted_add time bytes h.sorted, fun m hm => ?_⟩
  rcases time_of_mem_add hm with htime | ⟨m', hm', htime⟩
  · exact htime ▸ hle
  · exact htime ▸ h.ahead m' hm'

theorem later_of_due {time : Nat} {m : Moment} {rest : Schedule} (h : m.time ≤ time) :
    Schedule.later time (m :: rest) = rest.later time := by
  unfold later
  rw [List.dropWhile_cons, if_pos (decide_eq_true h)]

theorem later_of_not_due {time : Nat} {m : Moment} {rest : Schedule} (h : ¬ m.time ≤ time) :
    Schedule.later time (m :: rest) = m :: rest := by
  unfold later
  rw [List.dropWhile_cons, if_neg (by rw [decide_eq_true_iff]; exact h)]

/-- What is left after a time lies after it. -/
theorem lt_of_mem_later (time : Nat) (h : s.Pairwise fun m m' => m.time < m'.time) {m : Moment}
    (hm : m ∈ s.later time) : time < m.time := by
  induction s with
  | nil => cases hm
  | cons m' rest ih =>
    obtain ⟨hm', hrest⟩ := List.pairwise_cons.mp h
    by_cases hdue : m'.time ≤ time
    · rw [later_of_due hdue] at hm
      exact ih hrest hm
    · rw [later_of_not_due hdue] at hm
      rcases List.mem_cons.mp hm with rfl | hm
      · omega
      · have := hm' m hm
        omega

theorem Ordered.later (h : s.Ordered now) : (s.later now).Ordered now :=
  ⟨h.sorted.sublist (List.dropWhile_sublist _), fun _ hm =>
    Nat.le_of_lt (lt_of_mem_later now h.sorted hm)⟩

/-- Once the first moment has come, the others are left. -/
theorem later_head {m : Moment} {rest : Schedule}
    (h : (m :: rest).Pairwise fun m m' => m.time < m'.time) :
    Schedule.later m.time (m :: rest) = rest := by
  rw [later_of_due (Nat.le_refl _)]
  cases rest with
  | nil => rfl
  | cons m' rest =>
    have hlt := (List.pairwise_cons.mp h).1 m' List.mem_cons_self
    exact later_of_not_due (by omega)

end Schedule

/-! ## Changes -/

/-- A request that does not end the engine, and does not set the poll step to nothing. -/
def Request.Harmless : Request → Prop
  | .shutdown _ => False
  | .setPollStep step => 0 < step
  | _ => True

/-- The event that came, if one did. -/
def Next.asked {ε : Type} : Next ε → List (Notification ε)
  | .event n => [n]
  | _ => []

/-- The event that an answer consists of, if it does. -/
def Answer.asked {ε : Type} : Answer ε → List (Notification ε)
  | .event next => next.asked
  | _ => []

namespace Timeline

variable {ε : Type}

/-- The engine, once what is due has arrived. -/
def met (t : Timeline ε) : Engine Link ε :=
  { t.engine with transport := t.engine.transport.inject (t.ahead.due t.now) }

/-- Settling is a run of the engine, and then of the consumers. -/
theorem settle_eq (t : Timeline ε) :
    let e := t.met.run t.now
    t.settle = {
      now := t.now
      ahead := t.ahead.later t.now
      engine := { e with events := (t.subscribers.run (!e.running) e.events).1 }
      subscribers := (t.subscribers.run (!e.running) e.events).2 } := rfl

/-- **What a session can do to its timeline** in one go, and the event that it took then. A link that is
up goes down only if `falls` holds. -/
inductive Change (falls : Prop) : Timeline ε → Timeline ε → List (Notification ε) → Prop where
  | settle (t : Timeline ε) : Change falls t t.settle []
  /-- the clock goes forward, and passes no moment by -/
  | clock (t : Timeline ε) (time : Nat) (hnow : t.now ≤ time) (hahead : ∀ m ∈ t.ahead, time ≤ m.time) :
    Change falls t { t with now := time } []
  | schedule (t : Timeline ε) (delay : Nat) (bytes : Bytes) :
    Change falls t (t.schedule delay bytes) []
  | link (t : Timeline ε) (f : Link → Link)
    (hup : ∀ l : Link, l.connected = true → (f l).connected = true ∨ falls) :
    Change falls t (t.onLink f) []
  | submit (t : Timeline ε) (request : Nat → Request) (h : ∀ ticket, (request ticket).Harmless) :
    Change falls t { t with engine := (t.engine.submit request).2 } []
  | cancel (t : Timeline ε) (number : Nat) : Change falls t (t.cancelRequest number) []
  | abandon (t : Timeline ε) (ticket : Nat) :
    Change falls t { t with engine := t.engine.abandon ticket } []
  | collect (t : Timeline ε) (ticket : Nat) : Change falls t (t.collect ticket).2 []
  | register (t : Timeline ε) : Change falls t { t with subscribers := t.subscribers.register } []
  | clear (t : Timeline ε) : Change falls t { t with subscribers := t.subscribers.clear } []
  | next (t : Timeline ε) : Change falls t t.nextEvent.2 t.nextEvent.1.asked

/-- **Any number of changes,** with the events taken on the way. -/
inductive Course (falls : Prop) : Timeline ε → Timeline ε → List (Notification ε) → Prop where
  | refl (t : Timeline ε) : Course falls t t []
  | step {t t' t'' : Timeline ε} {ns ns' : List (Notification ε)} (h : Course falls t t' ns)
    (hchange : Change falls t' t'' ns') : Course falls t t'' (ns ++ ns')

variable {falls : Prop}

namespace Course

variable {t t' t'' : Timeline ε} {ns ns' : List (Notification ε)}

theorem single (h : Change falls t t' ns) : Course falls t t' ns := .step (.refl t) h

theorem trans (h : Course falls t t' ns) (h' : Course falls t' t'' ns') :
    Course falls t t'' (ns ++ ns') := by
  induction h' with
  | refl => rwa [List.append_nil]
  | step _ hchange ih =>
    rw [← List.append_assoc]
    exact .step ih hchange

/-- Nothing is taken at first. -/
theorem before (h : Course falls t t' []) (h' : Course falls t' t'' ns) : Course falls t t'' ns :=
  h.trans h'

end Course

/-! ## The clock -/

/-- The moments that lie ahead are in order, and none of them lies behind. -/
def InOrder (t : Timeline ε) : Prop := t.ahead.Ordered t.now

theorem inOrder_settle {t : Timeline ε} (h : t.InOrder) : t.settle.InOrder := Schedule.Ordered.later h

theorem Change.inOrder {t t' : Timeline ε} {ns : List (Notification ε)}
    (hchange : Change falls t t' ns) (h : t.InOrder) : t'.InOrder := by
  cases hchange with
  | settle => exact inOrder_settle h
  | clock time hnow hahead => exact ⟨h.sorted, hahead⟩
  | schedule delay bytes => exact Schedule.Ordered.add h bytes (Nat.le_add_right _ _)
  | _ => exact h

theorem Course.inOrder {t t' : Timeline ε} {ns : List (Notification ε)}
    (hcourse : Course falls t t' ns) (h : t.InOrder) : t'.InOrder := by
  induction hcourse with
  | refl => exact h
  | step _ hchange ih => exact hchange.inOrder ih

theorem pass_course {target : Nat} (done : Timeline ε → Bool) {ahead : Schedule} {t : Timeline ε}
    (h : t.InOrder) (hahead : t.ahead = ahead) (hnow : t.now ≤ target) :
    Course falls t (pass target done ahead t) [] := by
  induction ahead generalizing t with
  | nil =>
    refine .single (.clock t target hnow fun m hm => ?_)
    rw [hahead] at hm
    cases hm
  | cons m rest ih =>
    have hsorted := h.sorted
    rw [hahead] at hsorted
    have hfirst (m' : Moment) (hm' : m' ∈ t.ahead) : m.time ≤ m'.time := by
      rw [hahead] at hm'
      rcases List.mem_cons.mp hm' with rfl | hm'
      · exact Nat.le_refl _
      · exact Nat.le_of_lt ((List.pairwise_cons.mp hsorted).1 m' hm')
    unfold pass
    by_cases hdue : m.time ≤ target
    · have hm : t.now ≤ m.time := h.ahead m (hahead ▸ List.mem_cons_self)
      have hclock : Change falls t { t with now := m.time } [] := .clock t m.time hm hfirst
      have hsettled : Course falls t { t with now := m.time }.settle [] :=
        .step (.single hclock) (.settle _)
      rw [if_pos hdue]
      simp only
      split
      · exact hsettled
      · refine hsettled.before (ih (hsettled.inOrder h) ?_ hdue)
        show Schedule.later m.time t.ahead = rest
        rw [hahead]
        exact Schedule.later_head hsorted
    · rw [if_neg hdue]
      exact .single (.clock t target hnow fun m' hm' => by have := hfirst m' hm'; omega)

theorem advance_course {target : Nat} (done : Timeline ε → Bool) {t : Timeline ε} (h : t.InOrder)
    (hnow : t.now ≤ target) : Course falls t (t.advance target done) [] := by
  unfold advance
  split
  · exact .refl t
  · exact pass_course done h rfl hnow

/-! ## Calls -/

theorem call_course (t : Timeline ε) (request : Nat → Request) (h : ∀ k, (request k).Harmless) :
    Course falls t (t.call request).2 [] :=
  .step (.single (.submit t request h)) (.settle _)

theorem transmit_course (t : Timeline ε) (command : Text) :
    Course falls t (t.transmit command).2 [] := by
  have hcall : Course falls t _ [] := t.call_course (.transmit · command) fun _ => trivial
  unfold transmit
  simp only
  split <;> exact hcall

theorem transmitAbandoned_course (t : Timeline ε) (command : Text) :
    Course falls t (t.transmitAbandoned command) [] :=
  .step (.single (.submit t (.transmit · command) fun _ => trivial)) (.abandon _ _)

theorem configure_course (t : Timeline ε) (terminators : Terminators) :
    Course falls t (t.configure terminators).2 [] := by
  have hcall : Course falls t _ [] := t.call_course (.configure · terminators) fun _ => trivial
  unfold configure
  simp only
  split <;> exact hcall

theorem setPollStep_course (t : Timeline ε) {step : Nat} (hstep : 0 < step) :
    Course falls t (t.setPollStep step).2 [] := by
  unfold setPollStep
  split
  · exact t.call_course (fun _ => .setPollStep step) fun _ => hstep
  · exact .refl t

theorem stats_course (t : Timeline ε) : Course falls t t.stats.2 [] := by
  have hcall : Course falls t _ [] := t.call_course .stats fun _ => trivial
  unfold stats
  simp only
  split <;> exact hcall

theorem awaitEvent_course {deadline : Nat} {t : Timeline ε} (h : t.InOrder) (hnow : t.now ≤ deadline) :
    Course falls t (t.awaitEvent deadline).2 (t.awaitEvent deadline).1.asked :=
  (advance_course eventReady h hnow).before (.single (.next _))

theorem happen_course (e : Happening) {t : Timeline ε} (h : t.InOrder)
    (hfalls : e = .setConnected false → falls) : Course falls t (t.happen e) [] := by
  cases e with
  | inject bytes => exact .single (.link t _ fun _ hup => .inl hup)
  | injectAfter delay bytes => exact .single (.schedule t delay bytes)
  | expect request response => exact .single (.link t _ fun _ hup => .inl hup)
  | setConnected up =>
    cases up with
    | true => exact .single (.link t _ fun _ _ => .inl rfl)
    | false => exact .single (.link t _ fun _ _ => .inr (hfalls rfl))
  | sleep time => exact advance_course (fun _ => false) h (Nat.le_add_right _ _)

end Timeline

/-! ## Whatever is done with a session -/

namespace Session

open Timeline (Course)

variable {ε : Type} {falls : Prop}

theorem ready_le (s : Session ε) : s.now ≤ s.ready := by
  unfold ready
  split
  · exact Nat.le_refl _
  · exact Nat.le_max_left _ _

theorem pace_course {s : Session ε} (h : s.timeline.InOrder) :
    Course falls s.timeline s.pace.timeline [] := by
  unfold pace
  split
  · exact Timeline.advance_course (fun _ => false) h s.ready_le
  · exact .refl _

theorem send_course {s : Session ε} (h : s.timeline.InOrder) (command : Text) :
    Course falls s.timeline (s.send command).2.timeline [] := by
  have hsent : Course falls s.timeline (s.pace.timeline.transmit command).2 [] :=
    (pace_course h).before (s.pace.timeline.transmit_course command)
  unfold send
  split
  · exact .refl _
  · simp only
    split <;> exact hsent

theorem sendAbandoned_course (s : Session ε) (command : Text) :
    Course falls s.timeline (s.sendAbandoned command).2.timeline [] := by
  unfold sendAbandoned
  split
  · exact .refl _
  · split
    · exact .refl _
    · split
      · exact Timeline.transmitAbandoned_course _ command
      · exact .refl _

/-- **A round** lets time pass and looks, and what comes after it goes on from there. -/
theorem round_course (f : InFlight) (expected : Status) (s : Session ε)
    (next : Session ε → Except Error Text × Session ε)
    (hnext : Course falls s.timeline (next s).2.timeline []) :
    Course falls s.timeline
      (let (slot, timeline) := s.timeline.collect f.ticket
      match slot with
      | .delivered r => { s with timeline := timeline }.finish expected r
      | .closed => (.error .notConnected, s)
      | .waiting => next s).2.timeline [] := by
  rcases hcollect : s.timeline.collect f.ticket with ⟨r | - | -, timeline⟩
  · have hcollected : Course falls s.timeline (s.timeline.collect f.ticket).2 [] :=
      .single (.collect _ _)
    rw [hcollect] at hcollected
    simp only [finish_timeline]
    exact hcollected
  · exact hnext
  · exact .refl _

theorem waitRounds_course (f : InFlight) (expected : Status) (deadline rounds : Nat) {s : Session ε}
    (h : s.timeline.InOrder) :
    Course falls s.timeline (s.waitRounds f expected deadline rounds).2.timeline [] := by
  have hgiveUp (s : Session ε) : Course falls s.timeline (s.giveUp f).2.timeline [] :=
    .single (.cancel _ f.number)
  have hadvance (s : Session ε) (h : s.timeline.InOrder) :
      Course falls s.timeline
        (s.advanceToSlot f (s.now + min s.timing.pollStep (deadline - s.now))).timeline [] :=
    Timeline.advance_course (fun t => t.engine.slot f.ticket != .waiting) h (Nat.le_add_right _ _)
  induction rounds generalizing s with
  | zero =>
    unfold waitRounds
    split
    · exact hgiveUp s
    · exact (hadvance s h).before (round_course f expected _ (·.giveUp f) (hgiveUp _))
  | succ rounds ih =>
    unfold waitRounds
    split
    · exact hgiveUp s
    · exact (hadvance s h).before
        (round_course f expected _ (·.waitRounds f expected deadline rounds)
          (ih ((hadvance s h).inOrder h)))

theorem wait_course {s : Session ε} (h : s.timeline.InOrder) (timeout : Nat) (expected : Status) :
    Course falls s.timeline (s.wait timeout expected).2.timeline [] := by
  unfold wait
  split
  · exact .refl _
  · split
    · exact .refl _
    · exact waitRounds_course _ expected _ _ (s := { s with inFlight := none }) h

theorem request_course {s : Session ε} (h : s.timeline.InOrder) (command : Text)
    (expected : Status) : Course falls s.timeline (s.request command expected).2.timeline [] := by
  have hsent : Course falls s.timeline (s.send command).2.timeline [] := send_course h command
  unfold request
  rcases hsend : s.send command with ⟨err | _, sent⟩
  · rw [hsend] at hsent
    exact hsent
  · rw [hsend] at hsent
    exact hsent.before (wait_course (hsent.inOrder h) _ expected)

theorem configureTiming_course (s : Session ε) (timing : Timing) :
    Course falls s.timeline (s.configureTiming timing).2.timeline [] := by
  unfold configureTiming
  split
  · exact .refl _
  · split
    · exact .refl _
    · rename_i hstep
      have hset : Course falls s.timeline (s.timeline.setPollStep timing.pollStep).2 [] :=
        s.timeline.setPollStep_course (Nat.pos_of_ne_zero hstep)
      rcases hpoll : s.timeline.setPollStep timing.pollStep with ⟨err | _, timeline⟩
      · rw [hpoll] at hset
        exact hset
      · rw [hpoll] at hset
        exact hset

/-- **An action is a course,** and the events that it takes are those that it answers with. -/
theorem act_course {s : Session ε} (h : s.timeline.InOrder) (action : Action)
    (hfalls : action = .happen (.setConnected false) → falls) :
    Course falls s.timeline (s.act action).2.timeline (s.act action).1.asked := by
  cases action with
  | send command => exact send_course h command
  | sendAbandoned command => exact sendAbandoned_course s command
  | wait timeout expected => exact wait_course h timeout expected
  | waitFor latency expected => exact wait_course h _ expected
  | request command expected => exact request_course h command expected
  | configure t =>
    simp only [act, configure]
    split
    · exact .refl _
    · exact Timeline.configure_course _ t
  | configureTiming timing => exact configureTiming_course s timing
  | setTimeouts short standard long => exact .refl _
  | register => exact .single (.register _)
  | clear => exact .single (.clear _)
  | nextEvent timeout => exact Timeline.awaitEvent_course h (Nat.le_add_right _ _)
  | stats => exact Timeline.stats_course _
  | happen e => exact Timeline.happen_course e h fun he => hfalls (congrArg Action.happen he)

/-- **Every script is a course.** -/
theorem run_course (script : List Action) {s : Session ε} (h : s.timeline.InOrder)
    (hfalls : Action.happen (.setConnected false) ∈ script → falls) :
    Course falls s.timeline (s.run script).2.timeline ((s.run script).1.flatMap Answer.asked) := by
  induction script generalizing s with
  | nil => exact .refl _
  | cons action more ih =>
    have hact := act_course h action fun heq => hfalls (heq ▸ List.mem_cons_self)
    have hsettled : Course falls s.timeline (s.perform action).2.timeline (s.act action).1.asked := by
      have hstep := hact.step (.settle _)
      rw [List.append_nil] at hstep
      exact hstep
    exact hsettled.trans
      (ih (hsettled.inOrder h) fun hmem => hfalls (List.mem_cons_of_mem _ hmem))

end Session

/-! ## The engine keeps going -/

namespace Engine

variable {τ ε : Type}

/-- Only what a request is answered with is different. -/
def Answers (e e' : Engine τ ε) : Prop :=
  ∃ (r : Receiver ε) (link : τ) (w : Option Waiter) (replies : List (Nat × Reply)),
    e' = { e with receiver := r, transport := link, waiter := w, replies := replies }

theorem Answers.trans {e e' e'' : Engine τ ε} (h : e.Answers e') (h' : e'.Answers e'') :
    e.Answers e'' := by
  obtain ⟨r, link, w, replies, rfl⟩ := h
  obtain ⟨r', link', w', replies', rfl⟩ := h'
  exact ⟨r', link', w', replies', rfl⟩

theorem answerTransmit_answers (ticket : Nat) (outcome : Except Error Nat) (e : Engine τ ε) :
    e.Answers (e.answerTransmit ticket outcome) := by
  unfold answerTransmit
  cases outcome with
  | ok number =>
    simp only
    split <;> exact ⟨_, _, _, _, rfl⟩
  | error err =>
    simp only
    split <;> exact ⟨_, _, _, _, rfl⟩

variable [Transport τ]

theorem transmit_answers (now : Nat) (command : Text) (e : Engine τ ε) :
    e.Answers (e.transmit now command).2 := by
  unfold transmit
  split
  · exact ⟨_, _, _, _, rfl⟩
  · split <;> exact ⟨_, _, _, _, rfl⟩

/-- What serving a request does to the engine as such. -/
theorem serve_answers (now : Nat) (r : Request) (e : Engine τ ε)
    (hstep : ∀ step, r ≠ .setPollStep step) (hstop : ∀ ticket, r ≠ .shutdown ticket) :
    e.Answers (e.serve now r) := by
  cases r with
  | transmit ticket command =>
    simp only [serve]
    refine Answers.trans ?_ (answerTransmit_answers ticket _ _)
    split
    · exact transmit_answers now command e
    · exact ⟨_, _, _, _, rfl⟩
  | cancel number => exact ⟨_, _, _, _, rfl⟩
  | configure ticket t =>
    simp only [serve, configure]
    split <;> exact ⟨_, _, _, _, rfl⟩
  | setPollStep step => exact absurd rfl (hstep step)
  | stats ticket => exact ⟨_, _, _, _, rfl⟩
  | shutdown ticket => exact absurd rfl (hstop ticket)

/-- Serving does not touch whether the engine reads. -/
theorem serveNext_connected (e : Engine τ ε) (now : Nat) :
    (e.serveNext now).connected = e.connected := by
  unfold serveNext
  rcases e.requests with - | ⟨r, rest⟩
  · rfl
  · have hanswered {e' : Engine τ ε} (h : Answers { e with requests := rest } e') :
        e'.connected = e.connected := by
      obtain ⟨receiver, link, w, replies, rfl⟩ := h
      rfl
    cases r with
    | setPollStep step => rfl
    | shutdown ticket => rfl
    | _ => exact hanswered (serve_answers now _ _ nofun nofun)

/-- What reading keeps, draining keeps. -/
theorem drain_induction {P : Engine τ ε → Prop} (now : Nat)
    (hreceive : ∀ e, P e → P { e with transport := (Transport.receive readSize e.transport).2 })
    (hread : ∀ e outcome, e.live = true → P e → P (e.received now outcome)) (n : Nat)
    {e : Engine τ ε} (h : P e) : P (e.drain now n) := by
  induction n generalizing e with
  | zero => exact h
  | succ n ih =>
    have hreceived := hreceive e h
    unfold drain
    split
    · rename_i hlive
      rcases hlink : Transport.receive readSize e.transport with ⟨- | outcome, link⟩
      · rw [hlink] at hreceived
        exact hreceived
      · rw [hlink] at hreceived
        exact ih (hread _ outcome hlive hreceived)
    · exact h

/-- What serving keeps is kept however many requests are served. -/
theorem serve_induction {P : Engine τ ε → Prop} (now : Nat)
    (hserve : ∀ e, P e → P (e.serveNext now)) (n : Nat) {e : Engine τ ε} (h : P e) :
    P (n.repeat (serveNext now) e) := by
  induction n with
  | zero => exact h
  | succ n ih => exact hserve _ ih

/-- **What serving and reading keep, a run keeps.** -/
theorem run_induction {P : Engine τ ε → Prop} (now : Nat)
    (hserve : ∀ e, P e → P (e.serveNext now))
    (hreceive : ∀ e, P e → P { e with transport := (Transport.receive readSize e.transport).2 })
    (hread : ∀ e outcome, e.live = true → P e → P (e.received now outcome)) {e : Engine τ ε}
    (h : P e) : P (e.run now) :=
  drain_induction now hreceive hread _ (serve_induction now hserve _ h)

/-- **The engine runs,** nothing in the queue is going to end it, and no confirmation was seen later
than now. -/
structure Healthy (now : Nat) (e : Engine τ ε) : Prop where
  running : e.running = true
  pollStep_pos : 0 < e.pollStep
  harmless : ∀ r ∈ e.requests, r.Harmless
  seen : ∀ x ∈ e.resolutions, x.2.time ≤ now

namespace Healthy

variable {now : Nat} {e : Engine τ ε}

omit [Transport τ]

theorem answers (h : e.Healthy now) {e' : Engine τ ε} (hanswers : e.Answers e') : e'.Healthy now := by
  obtain ⟨r, link, w, replies, rfl⟩ := hanswers
  exact ⟨h.running, h.pollStep_pos, h.harmless, h.seen⟩

theorem mono (h : e.Healthy now) {time : Nat} (hle : now ≤ time) : e.Healthy time :=
  { h with seen := fun x hx => Nat.le_trans (h.seen x hx) hle }

theorem deliver (h : e.Healthy now) (output : Output ε) : (e.deliver now output).Healthy now := by
  cases output with
  | resolved r =>
    unfold Engine.deliver
    cases e.waiter with
    | none => exact h
    | some w =>
      simp only
      split
      · refine ⟨h.running, h.pollStep_pos, h.harmless, fun x hx => ?_⟩
        rcases List.mem_cons.mp hx with rfl | hx
        · exact Nat.le_refl _
        · exact h.seen x hx
      · exact h
  | event n =>
    unfold Engine.deliver
    simp only
    split <;> exact ⟨h.running, h.pollStep_pos, h.harmless, h.seen⟩

theorem received (h : e.Healthy now) (outcome : Except Error Bytes) :
    (e.received now outcome).Healthy now := by
  rcases outcome with err | bytes
  · cases err <;> exact ⟨h.running, h.pollStep_pos, h.harmless, h.seen⟩
  · have hdelivered (outputs : List (Output ε)) (e : Engine τ ε) (h : e.Healthy now) :
        (outputs.foldl (fun e o => e.deliver now o) e).Healthy now := by
      induction outputs generalizing e with
      | nil => exact h
      | cons output outputs ih => exact ih _ (h.deliver output)
    exact hdelivered _ _ ⟨h.running, h.pollStep_pos, h.harmless, h.seen⟩

theorem submit (h : e.Healthy now) {request : Nat → Request}
    (hrequest : ∀ ticket, (request ticket).Harmless) : (e.submit request).2.Healthy now := by
  refine ⟨h.running, h.pollStep_pos, fun r hr => ?_, h.seen⟩
  unfold Engine.submit at hr
  rw [h.running] at hr
  rcases List.mem_append.mp hr with hr | hr
  · exact h.harmless r hr
  · rw [List.mem_singleton.mp hr]
    exact hrequest _

theorem submitCancel (h : e.Healthy now) (number : Nat) : (e.submitCancel number).Healthy now := by
  unfold Engine.submitCancel
  split
  · refine ⟨h.running, h.pollStep_pos, fun r hr => ?_, h.seen⟩
    rcases List.mem_append.mp hr with hr | hr
    · exact h.harmless r hr
    · rw [List.mem_singleton.mp hr]
      trivial
  · exact h

variable [Transport τ]

theorem serveNext (h : e.Healthy now) : (e.serveNext now).Healthy now := by
  unfold Engine.serveNext
  rcases hrequests : e.requests with - | ⟨r, rest⟩
  · exact h
  · have hr : r.Harmless := h.harmless r (hrequests ▸ List.mem_cons_self)
    have hrest : Healthy now { e with requests := rest } :=
      { h with harmless := fun r' hr' => h.harmless r' (hrequests ▸ List.mem_cons_of_mem _ hr') }
    cases r with
    | setPollStep step => exact { hrest with pollStep_pos := hr }
    | shutdown ticket => exact hr.elim
    | _ => exact hrest.answers (serve_answers now _ _ nofun nofun)

theorem run (h : e.Healthy now) : (e.run now).Healthy now :=
  run_induction now (fun _ h => h.serveNext)
    (fun _ h => ⟨h.running, h.pollStep_pos, h.harmless, h.seen⟩)
    (fun _ outcome _ h => h.received outcome) h

end Healthy

end Engine

namespace Timeline

variable {ε : Type} {falls : Prop} {t t' : Timeline ε} {ns : List (Notification ε)}

/-- The engine of a timeline is healthy. -/
def Healthy (t : Timeline ε) : Prop := t.engine.Healthy t.now

theorem Change.healthy (hchange : Change falls t t' ns) (h : t.Healthy) : t'.Healthy := by
  have hrunning := h.running
  have hpoll := h.pollStep_pos
  have hharmless := h.harmless
  have hseen := h.seen
  cases hchange with
  | settle =>
    have hmet : t.met.Healthy t.now := ⟨hrunning, hpoll, hharmless, hseen⟩
    have hrun := hmet.run
    exact ⟨hrun.running, hrun.pollStep_pos, hrun.harmless, hrun.seen⟩
  | clock time hnow => exact h.mono hnow
  | submit request hrequest => exact h.submit hrequest
  | cancel number => exact h.submitCancel number
  | collect ticket =>
    exact ⟨hrunning, hpoll, hharmless, fun x hx => hseen x (List.mem_filter.mp hx).1⟩
  | _ => exact ⟨hrunning, hpoll, hharmless, hseen⟩

theorem Course.healthy (hcourse : Course falls t t' ns) (h : t.Healthy) : t'.Healthy := by
  induction hcourse with
  | refl => exact h
  | step _ hchange ih => exact hchange.healthy ih

end Timeline

/-! ## Every session that was opened -/

/-- No configuration with a poll step of nothing is accepted. -/
theorem Config.pollStep_pos {c : Config} (h : c.validate = .ok ()) : 0 < c.timing.pollStep := by
  refine Nat.pos_of_ne_zero fun hzero => ?_
  unfold validate fault? at h
  by_cases hline : c.framing.lineLimit = 0
  · rw [if_pos hline] at h
    cases h
  · rw [if_neg hline, if_pos hzero] at h
    cases h

/-- The timeline of an engine that has taken over a link, before anything has settled. -/
def Timeline.initial {ε : Type} (config : Config) (table : EventTable ε) (link : Link) : Timeline ε :=
  { engine := .start config table link }

namespace Session

variable {ε : Type} {falls : Prop} {link : Link} {setup : Setup ε} {opened : Session ε}

/-- **A session gets where a script takes it from the start,** and the events taken on the way are those
that the script was answered with. -/
theorem course_of_open (hopen : setup.openOver link = .ok opened) (script : List Action)
    (hfalls : Action.happen (.setConnected false) ∈ script → falls) :
    Timeline.Course falls (Timeline.initial setup.config setup.table link)
      (opened.run script).2.timeline ((opened.run script).1.flatMap Answer.asked) := by
  obtain ⟨-, -, hopened⟩ := of_openOver hopen
  have hstart : Timeline.Course falls (Timeline.initial setup.config setup.table link)
      opened.timeline [] := by
    rw [hopened]
    exact .single (.settle _)
  have horder : (Timeline.initial setup.config setup.table link).InOrder := ⟨.nil, nofun⟩
  exact hstart.before (run_course script (hstart.inOrder horder) hfalls)

end Session

end ModemLink
