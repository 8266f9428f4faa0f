/-
Why a send is refused as busy.

The caller's own command in flight is one reason, and the session says so before anything is queued. The
other is the engine's: when the turn of the send comes, a number is in the slot. Whose it can be follows
from where the two parties stand. It is no command in flight, and none that is about to be given up; a
wait that was cut off leaves its number there too, but then reading has ended, and the refusal is another
one. What is left is the number of a send that was dropped too late.

So a refusal is followed back to where it began. A step of either party leaves the refusal under a ticket
as it was, or it is the step that serves the ticket; and every entry of the log was made by one step.
-/
import Mathlib.Data.List.Induction
import ModemLink.Proofs.Session.Dropped

set_option autoImplicit false

namespace ModemLink

namespace Interplay

variable {τ ε : Type} {s s' : Interplay τ ε}

/-! ## Refusals -/

/-- It is the turn of the send under a ticket, and the engine still reads. -/
structure Turn (s : Interplay τ ε) (k : Nat) : Prop where
  writing_eq : s.writing = none
  oldest : ∃ command rest, s.engine.requests = .transmit k command :: rest
  connected : s.engine.connected = true

/-- The send under a ticket was refused as busy, whether that has been posted yet or not. -/
def Refuses (s : Interplay τ ε) (k : Nat) : Prop :=
  s.writing = some (k, .error .busy) ∨ s.engine.reply? k = some (.transmitted (.error .busy))

/-- **What a step does to the outcomes of sends,** written or posted. -/
inductive Told (s : Interplay τ ε) : Act τ ε → Interplay τ ε → Prop where
  | same {act : Act τ ε} {s' : Interplay τ ε} (hwriting : s'.writing = s.writing)
    (hreplies : s'.engine.replies = s.engine.replies) : Told s act s'
  | served (now k : Nat) (o : Except Error Nat) {s' : Interplay τ ε} (hwriting : s.writing = none)
    (holdest : ∃ command rest, s.engine.requests = .transmit k command :: rest)
    (hbusy : o = .error .busy ↔
      s.engine.connected = true ∧ s.engine.receiver.tracker.current.isSome = true)
    (hwritten : s'.writing = some (k, o)) (hreplies : s'.engine.replies = s.engine.replies) :
    Told s (.serve now) s'
  /-- something other than a send was answered -/
  | posted (k : Nat) (reply : Reply) {act : Act τ ε} {s' : Interplay τ ε}
    (hnew : s.engine.reply? k = none) (hother : ∀ o, reply ≠ .transmitted o)
    (hwriting : s'.writing = s.writing) (hreplies : s'.engine.replies = (k, reply) :: s.engine.replies) :
    Told s act s'
  | answered (k : Nat) (o : Except Error Nat) {act : Act τ ε} {s' : Interplay τ ε}
    (hwriting : s.writing = some (k, o)) (hnew : s.engine.reply? k = none)
    (hwritten : s'.writing = none) (hkept : k ∉ s.engine.abandoned)
    (hreplies : s'.engine.replies = (k, .transmitted o) :: s.engine.replies) : Told s act s'
  /-- nobody waits for the outcome any more -/
  | unheard (k : Nat) (o : Except Error Nat) {act : Act τ ε} {s' : Interplay τ ε}
    (hwriting : s.writing = some (k, o)) (hwritten : s'.writing = none)
    (habandoned : k ∈ s.engine.abandoned) (hreplies : s'.engine.replies = s.engine.replies) :
    Told s act s'

theorem Served.told [Transport τ] (h : s.Served s') (hlink : Transport.NeverBusy τ) (hsound : s.Sound)
    (hwriting : s.writing = none) (now : Nat) : s.Told (.serve now) s' := by
  have hsent {ticket : Nat} {command : Text} {rest : List Request}
      (hrequests : s.engine.requests = .transmit ticket command :: rest)
      (hreplies : s'.engine.replies = s.engine.replies) : s.Told (.serve now) s' := by
    obtain ⟨o, hwritten, hbusy⟩ := h.written hlink hrequests
    refine .served now ticket o hwriting ⟨command, rest, hrequests⟩ (Iff.trans ?_ hbusy) hwritten hreplies
    cases o with
    | ok n => exact ⟨nofun, nofun⟩
    | error err => exact ⟨congrArg _, fun h => congrArg _ (Except.error.inj h)⟩
  cases h with
  | nothing | cancel | pollStep => exact .same rfl rfl
  | refused _ _ _ _ hrequests | failed _ _ _ _ _ _ _ hrequests | begun _ _ _ _ _ _ hrequests =>
    exact hsent hrequests rfl
  | configured ticket _ _ _ outcome hrequests =>
    exact .posted ticket (.configured outcome) (hsound.unanswered hrequests rfl)
      (fun o h => by cases h) rfl rfl
  | stats ticket _ stats hrequests =>
    exact .posted ticket (.stats stats) (hsound.unanswered hrequests rfl)
      (fun o h => by cases h) rfl rfl
  | shutdown ticket _ hrequests => exact absurd hrequests hsound.not_shutdown

theorem answer_told (hsound : s.Sound) : s.Told .answer s.answer := by
  unfold answer
  split
  · rename_i k o hwriting
    have hnew := hsound.writing_new k o hwriting
    unfold Engine.answerTransmit
    -- whether somebody still waits decides, not what the outcome is
    by_cases habandoned : k ∈ s.engine.abandoned
    · cases o with
      | ok n =>
        simp only [if_pos habandoned]
        exact .unheard k _ hwriting rfl habandoned rfl
      | error err =>
        simp only [if_pos habandoned]
        exact .unheard k _ hwriting rfl habandoned rfl
    · cases o with
      | ok n =>
        simp only [if_neg habandoned]
        exact .answered k _ hwriting hnew rfl habandoned rfl
      | error err =>
        simp only [if_neg habandoned]
        exact .answered k _ hwriting hnew rfl habandoned rfl
  · exact .same rfl rfl

/-- **Every step is one of these.** -/
theorem step_told [Transport τ] (hlink : Transport.NeverBusy τ) (hsound : s.Sound) (act : Act τ ε) :
    s.Told act (s.step act) := by
  by_cases hserve : ∃ now, act = .serve now
  · obtain ⟨now, rfl⟩ := hserve
    simp only [step]
    by_cases hwriting : s.writing = none
    · exact (serve_served s now hwriting).told hlink hsound hwriting now
    · rw [serve_of_writing now (Option.isSome_iff_ne_none.mpr hwriting)]
      exact .same rfl rfl
  · by_cases hanswer : act = .answer
    · rw [hanswer]
      exact answer_told hsound
    · obtain ⟨hwriting, hreplies⟩ := (s.step_frame act).outcomes (fun now h => hserve ⟨now, h⟩) hanswer
      exact .same hwriting hreplies

theorem reply?_of_replies (h : s'.engine.replies = s.engine.replies) (k : Nat) :
    s'.engine.reply? k = s.engine.reply? k := congrArg (List.lookup k) h

/-- What is posted under another ticket makes no difference. -/
theorem reply?_of_posted {j : Nat} {reply : Reply} (h : s'.engine.replies = (j, reply) :: s.engine.replies)
    {k : Nat} (hne : k ≠ j) : s'.engine.reply? k = s.engine.reply? k := by
  have hposted : s'.engine.reply? k = (s.engine.post j reply).reply? k := congrArg (List.lookup k) h
  rw [hposted, Engine.reply?_post_of_ne _ reply hne]

theorem reply?_of_posted_self {k : Nat} {reply : Reply}
    (h : s'.engine.replies = (k, reply) :: s.engine.replies) : s'.engine.reply? k = some reply := by
  have hposted : s'.engine.reply? k = (s.engine.post k reply).reply? k := congrArg (List.lookup k) h
  rw [hposted, Engine.reply?_post_self]

/-- **A refusal was there before, or begins where the send is served** while a number is in the slot. -/
theorem Told.began {act : Act τ ε} (h : s.Told act s') {k : Nat} (hrefuses : s'.Refuses k) :
    s.Refuses k ∨ (∃ now, act = .serve now) ∧ s.Turn k ∧ ∃ n, s.InSlot n := by
  cases h with
  | same hwriting hreplies =>
    refine .inl (hrefuses.imp (fun h => hwriting.symm.trans h) fun h => ?_)
    exact (reply?_of_replies hreplies k).symm.trans h
  | served now j o hwriting holdest hbusy hwritten hreplies =>
    rcases hrefuses with h | h
    · -- the one place where a refusal begins
      cases hwritten.symm.trans h
      obtain ⟨hconnected, hsome⟩ := hbusy.mp rfl
      exact .inr ⟨⟨now, rfl⟩, ⟨hwriting, holdest, hconnected⟩, Sound.isSome_iff_inSlot.mp hsome⟩
    · exact .inl (.inr ((reply?_of_replies hreplies k).symm.trans h))
  | posted j reply hnew hother hwriting hreplies =>
    refine .inl (hrefuses.imp (fun h => hwriting.symm.trans h) fun h => ?_)
    by_cases hk : k = j
    · subst hk
      exact absurd (Option.some.inj ((reply?_of_posted_self hreplies).symm.trans h)) (hother _)
    · exact (reply?_of_posted hreplies hk).symm.trans h
  | answered j o hwriting hnew hwritten hkept hreplies =>
    rcases hrefuses with h | h
    · cases hwritten.symm.trans h
    · by_cases hk : k = j
      · subst hk
        cases (reply?_of_posted_self hreplies).symm.trans h
        exact .inl (.inl hwriting)
      · exact .inl (.inr ((reply?_of_posted hreplies hk).symm.trans h))
  | unheard j o hwriting hwritten habandoned hreplies =>
    rcases hrefuses with h | h
    · cases hwritten.symm.trans h
    · exact .inl (.inr ((reply?_of_replies hreplies k).symm.trans h))

/-- **A refusal stays,** unless nobody waits for it any more. -/
theorem Told.stays {act : Act τ ε} (h : s.Told act s') {k : Nat} (hrefuses : s.Refuses k) :
    s'.Refuses k ∨ k ∈ s.engine.abandoned := by
  cases h with
  | same hwriting hreplies =>
    refine .inl (hrefuses.imp hwriting.trans fun h => ?_)
    exact (reply?_of_replies hreplies k).trans h
  | served now j o hwriting holdest hbusy hwritten hreplies =>
    rcases hrefuses with h | h
    · cases hwriting.symm.trans h
    · exact .inl (.inr ((reply?_of_replies hreplies k).trans h))
  | posted j reply hnew hother hwriting hreplies =>
    refine .inl (hrefuses.imp hwriting.trans fun h => ?_)
    refine (reply?_of_posted hreplies fun hk => ?_).trans h
    rw [hk, hnew] at h
    cases h
  | answered j o hwriting hnew hwritten hkept hreplies =>
    rcases hrefuses with h | h
    · cases hwriting.symm.trans h
      exact .inl (.inr (reply?_of_posted_self hreplies))
    · refine .inl (.inr ((reply?_of_posted hreplies fun hk => ?_).trans h))
      rw [hk, hnew] at h
      cases h
  | unheard j o hwriting hwritten habandoned hreplies =>
    rcases hrefuses with h | h
    · cases hwriting.symm.trans h
      exact .inr habandoned
    · exact .inl (.inr ((reply?_of_replies hreplies k).trans h))

/-- Serving a send while a number is in the slot refuses it. -/
theorem Turn.refuses [Transport τ] {k : Nat} (h : s.Turn k) (hlink : Transport.NeverBusy τ) (now : Nat)
    (hslot : ∃ n, s.InSlot n) : (s.serve now).Refuses k := by
  obtain ⟨command, rest, hrequests⟩ := h.oldest
  obtain ⟨o, hwritten, hbusy⟩ := (serve_served s now h.writing_eq).written hlink hrequests
  have hrefused := hbusy.mpr ⟨h.connected, Sound.isSome_iff_inSlot.mpr hslot⟩
  refine .inl (hwritten.trans ?_)
  cases o with
  | ok n => cases hrefused
  | error err =>
    cases hrefused
    rfl

/-- **Whose number a send finds in the slot** as long as somebody waits for that send: one of a send that
was dropped too late. -/
theorem Turn.stranded {k n : Nat} (h : s.Turn k) (hsound : s.Sound) (hkept : k ∉ s.engine.abandoned)
    (hn : s.InSlot n) : ∃ j, (j, n) ∈ s.late := by
  obtain ⟨command, rest, hrequests⟩ := h.oldest
  have hrunning := hsound.running_of_request hrequests
  -- a send is the oldest request while its caller waits for it, or behind a caller that has left
  cases (hsound.stage hrunning).oldest hrequests with
  | leftover left hasks ha => exact absurd (ha.leftover _ List.mem_cons_self).1 hkept
  | own c j hr hrest hdoing hreply _ ha =>
    have hexcused : s.Excused n := ha.slot n hn
    rcases hexcused.of_head hrequests nofun with ⟨j, hj⟩ | hlate | hcut
    · cases h.writing_eq.symm.trans hj
    · exact hlate
    · cases (hsound.cut hrunning hcut).1.symm.trans h.connected
  | asking f j hr => cases hr

/-! ## Entries of the log -/

/-- **What a step enters into the log:** a call that is refused at once, or one that takes its reply, or
finds that none can come any more. -/
inductive Enters (s : Interplay τ ε) : Act τ ε → Returned → Prop where
  | refused (c : Call) : Enters s (.call c) ⟨c, true, s.cut, .error .busy⟩
  | took (c : Call) (k : Nat) (outcome : Except Error Unit) (hdoing : s.doing = .awaiting c k) :
    Enters s .take ⟨c, s.called, s.cut, outcome⟩

theorem step_log [Transport τ] (s : Interplay τ ε) (act : Act τ ε) :
    (s.step act).log = s.log ∨ ∃ r, s.Enters act r ∧ (s.step act).log = r :: s.log := by
  -- no other step than a call and its end touches the log
  by_cases hcall : ∃ c, act = .call c
  · obtain ⟨c, rfl⟩ := hcall
    simp only [step, call]
    split
    · by_cases hbusy : (c.exclusive && s.inFlight.isSome) = true
      · rw [if_pos hbusy]
        obtain ⟨-, hpending⟩ := Bool.and_eq_true_iff.mp hbusy
        refine .inr ⟨_, .refused c, ?_⟩
        rw [← hpending]
        rfl
      · rw [if_neg hbusy]
        exact .inl rfl
    · exact .inl rfl
  · by_cases htake : act = .take
    · rw [htake]
      simp only [step, take]
      split
      · rename_i c k hdoing
        split
        · exact .inr ⟨_, .took c k _ hdoing, rfl⟩
        · exact .inr ⟨_, .took c k _ hdoing, rfl⟩
        · split
          · exact .inl rfl
          · exact .inr ⟨_, .took c k _ hdoing, rfl⟩
      · exact .inl rfl
    · exact .inl ((s.step_frame act).log (fun c h => hcall ⟨c, h⟩) htake)

/-- **A send is told of a refusal** exactly if it was refused. -/
theorem Sound.take_busy_iff (hsound : s.Sound) {command : Text} {k : Nat}
    (hdoing : s.doing = .awaiting (.send command) k) {r : Returned} (hlog : s.take.log = r :: s.log) :
    r.outcome = .error .busy ↔ s.Refuses k := by
  -- what is being written was not answered yet
  have hunanswered {reply : Reply} (hreply : s.engine.reply? k = some reply) {o : Except Error Nat} :
      s.writing ≠ some (k, o) := by
    intro hwriting
    cases (hsound.writing_new k o hwriting).symm.trans hreply
  unfold Interplay.take at hlog
  simp only [hdoing] at hlog
  split at hlog
  · rename_i n _ hgiven
    have hreply := Engine.given?_eq_some.mp hgiven
    obtain ⟨rfl, -⟩ := List.cons.inj hlog
    refine ⟨nofun, fun hrefuses => ?_⟩
    rcases hrefuses with h | h
    · exact absurd h (hunanswered hreply)
    · cases hreply.symm.trans h
  · rename_i reply hgiven hreply
    obtain ⟨rfl, -⟩ := List.cons.inj hlog
    have hfits := (hsound.awaits _ k hdoing).2 reply hreply
    cases reply with
    | transmitted o =>
      rw [Refuses, hreply]
      constructor
      · intro hbusy
        cases o with
        | ok n => cases hbusy
        | error err =>
          cases hbusy
          exact .inr rfl
      · rintro (h | h)
        · exact absurd h (hunanswered hreply)
        · cases h
          rfl
    | _ => cases hfits
  · rename_i hreply
    split at hlog
    · exact absurd hlog.symm (List.cons_ne_self r s.log)
    · rename_i hexpects
      obtain ⟨rfl, -⟩ := List.cons.inj hlog
      refine ⟨nofun, fun hrefuses => ?_⟩
      rcases hrefuses with h | h
      · refine absurd ?_ hexpects
        unfold Interplay.expects
        rw [h]
        simp
      · cases hreply.symm.trans h

/-! ## Runs -/

/-- **A send was hindered:** when its turn came, the number of a send that had been dropped too late was in
the slot. It has taken its reply since, and returned this. -/
def Hindered [Transport τ] (config : Config) (table : EventTable ε) (link : τ) (acts : List (Act τ ε))
    (r : Returned) : Prop :=
  ∃ before now between after k, acts = before ++ .serve now :: (between ++ .take :: after)
    ∧ let atTurn := of config table link before
      let told := of config table link (before ++ .serve now :: between)
      atTurn.Turn k ∧ (∃ j n, (j, n) ∈ atTurn.late ∧ atTurn.InSlot n)
      ∧ told.doing = .awaiting r.call k ∧ told.take.log = r :: told.log

section

variable [Transport τ] {config : Config} {table : EventTable ε} {link : τ}

theorem of_append (before after : List (Act τ ε)) :
    of config table link (before ++ after) = after.foldl step (of config table link before) :=
  foldl_step_append _ before after

theorem of_concat (acts : List (Act τ ε)) (act : Act τ ε) :
    of config table link (acts ++ [act]) = (of config table link acts).step act :=
  of_append acts [act]

/-- Every entry of the log was made by a step. -/
theorem exists_enters (acts : List (Act τ ε)) {r : Returned} (hr : r ∈ (of config table link acts).log) :
    ∃ before act after, acts = before ++ act :: after ∧ (of config table link before).Enters act r
      ∧ ((of config table link before).step act).log = r :: (of config table link before).log := by
  induction acts using List.reverseRecOn with
  | nil => cases hr
  | append_singleton acts act ih =>
    have hearlier (h : r ∈ (of config table link acts).log) : ∃ before act' after,
        acts ++ [act] = before ++ act' :: after ∧ (of config table link before).Enters act' r
          ∧ ((of config table link before).step act').log = r :: (of config table link before).log := by
      -- the last step comes behind the one that made the entry
      obtain ⟨before, act', after, rfl, hmade⟩ := ih h
      exact ⟨before, act', after ++ [act], by rw [List.append_assoc, List.cons_append], hmade⟩
    rw [of_concat] at hr
    rcases (of config table link acts).step_log act with hsame | ⟨r', henters, hmore⟩
    · exact hearlier (hsame ▸ hr)
    · rw [hmore] at hr
      rcases List.mem_cons.mp hr with rfl | hr
      · exact ⟨acts, act, [], rfl, henters, hmore⟩
      · exact hearlier hr

/-- **Every refusal has a beginning.** -/
theorem exists_turn (hlink : Transport.NeverBusy τ) (acts : List (Act τ ε)) {k : Nat}
    (hrefuses : (of config table link acts).Refuses k) :
    ∃ before now between, acts = before ++ .serve now :: between
      ∧ (of config table link before).Turn k ∧ ∃ n, (of config table link before).InSlot n := by
  induction acts using List.reverseRecOn with
  | nil => rcases hrefuses with h | h <;> cases h
  | append_singleton acts act ih =>
    rw [of_concat] at hrefuses
    have htold := step_told hlink (of_sound hlink config table link acts) act
    -- the last step served the send, or the refusal was there before
    rcases htold.began hrefuses with h | ⟨⟨now, rfl⟩, hturn, hslot⟩
    · obtain ⟨before, now, between, rfl, hbegan⟩ := ih h
      exact ⟨before, now, between ++ [act], by rw [List.append_assoc, List.cons_append], hbegan⟩
    · exact ⟨acts, now, [], rfl, hturn, hslot⟩

/-- A refusal stays as long as somebody waits for it. -/
theorem Refuses.run (hlink : Transport.NeverBusy τ) (acts : List (Act τ ε)) {k : Nat}
    (hsound : s.Sound) (htraced : s.Traced) (h : s.Refuses k ∨ k ∈ s.engine.abandoned) :
    (acts.foldl step s).Refuses k ∨ k ∈ (acts.foldl step s).engine.abandoned := by
  induction acts generalizing s with
  | nil => exact h
  | cons act acts ih =>
    -- who has left does not come back, so the invariant is the refusal or that nobody waits
    refine ih (hsound.step hlink act) (htraced.step hsound act) ?_
    have hleft (hk : k ∈ s.engine.abandoned) := (htraced.late_step hk act).1
    rcases h with h | h
    · exact ((step_told hlink hsound act).stays h).imp_right hleft
    · exact .inr (hleft h)

theorem Hindered.late_ne_nil (hlink : Transport.NeverBusy τ) {acts : List (Act τ ε)} {r : Returned}
    (h : Hindered config table link acts r) : (of config table link acts).late ≠ [] := by
  obtain ⟨before, now, between, after, k, rfl, -, ⟨j, n, hlate, -⟩, -⟩ := h
  have hsound := of_sound hlink config table link before
  have htraced := of_traced hlink config table link before
  -- a send that was dropped too late stays one
  have hstill := (htraced.late_foldl_step hlink (.serve now :: (between ++ .take :: after)) hsound
    (htraced.late j n hlate).1).2 n
  rw [← of_append] at hstill
  exact List.ne_nil_of_mem (hstill.mpr hlate)

/-- **A send that waits for its reply is refused** exactly if, when its turn came, the number of a send that
had been dropped too late was in the slot. -/
theorem refuses_iff (hlink : Transport.NeverBusy τ) (acts : List (Act τ ε)) {c : Call} {k : Nat}
    (hdoing : (of config table link acts).doing = .awaiting c k) :
    (of config table link acts).Refuses k ↔ ∃ before now between, acts = before ++ .serve now :: between
      ∧ (of config table link before).Turn k
      ∧ ∃ j n, (j, n) ∈ (of config table link before).late ∧ (of config table link before).InSlot n := by
  have hkept := (of_traced hlink config table link acts).awaits _ k hdoing
  constructor
  · intro hrefuses
    obtain ⟨before, now, between, rfl, hturn, n, hn⟩ := exists_turn hlink acts hrefuses
    have hsound := of_sound hlink config table link before
    -- at its turn nobody had given up the ticket, since somebody still waits under it
    have hwaits : k ∉ (of config table link before).engine.abandoned := fun hleft => by
      have htraced := of_traced hlink config table link before
      have hstill := (htraced.late_foldl_step hlink (.serve now :: between) hsound hleft).1
      rw [← of_append] at hstill
      exact hkept hstill
    obtain ⟨j, hlate⟩ := hturn.stranded hsound hwaits hn
    exact ⟨before, now, between, rfl, hturn, j, n, hlate, hn⟩
  · rintro ⟨before, now, between, rfl, hturn, -, n, -, hn⟩
    have hsound := of_sound hlink config table link before
    have htraced := of_traced hlink config table link before
    have hrun := Refuses.run hlink between (hsound.step hlink (.serve now))
      (htraced.step hsound (.serve now)) (.inl (hturn.refuses hlink now ⟨n, hn⟩))
    rw [← List.foldl_cons, ← of_append] at hrun
    exact hrun.resolve_right hkept

/-- **A send is refused as busy exactly if a command was in flight or it was hindered.** -/
theorem send_busy_iff_hindered (hlink : Transport.NeverBusy τ) (acts : List (Act τ ε)) {r : Returned}
    (hr : r ∈ (of config table link acts).log) {command : Text} (hcall : r.call = .send command) :
    r.outcome = .error .busy ↔ r.pending = true ∨ Hindered config table link acts r := by
  constructor
  · intro hbusy
    obtain ⟨told, act, after, rfl, henters, hlog⟩ := exists_enters acts hr
    cases henters with
    | refused c => exact .inl rfl
    | took c k outcome hdoing =>
      cases hcall
      have hrefuses := ((of_sound hlink config table link told).take_busy_iff hdoing hlog).mp hbusy
      obtain ⟨before, now, between, rfl, hturn, hlate⟩ := (refuses_iff hlink told hdoing).mp hrefuses
      refine .inr ⟨before, now, between, after, k, ?_, hturn, hlate, hdoing, hlog⟩
      rw [List.append_assoc, List.cons_append]
  · rintro (hpending | ⟨before, now, between, after, k, -, hturn, hlate, hdoing, hlog⟩)
    · obtain ⟨told, act, after, rfl, henters, -⟩ := exists_enters acts hr
      cases henters with
      | refused c => rfl
      | took c k outcome hdoing =>
        -- a call that got as far as a request had nothing in flight
        cases hcall
        have hcalled := ((of_sound hlink config table link told).called _ (.inr ⟨k, hdoing⟩) rfl).1
        cases hcalled.symm.trans hpending
    · have hrefuses := (refuses_iff hlink _ hdoing).mpr ⟨before, now, between, rfl, hturn, hlate⟩
      rw [hcall] at hdoing
      exact ((of_sound hlink config table link _).take_busy_iff hdoing hlog).mpr hrefuses

end

end Interplay

end ModemLink
