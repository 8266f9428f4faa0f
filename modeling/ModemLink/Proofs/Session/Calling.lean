/-
The application's steps keep the two parties sound: it makes calls, drops sends, takes replies, and
waits for its command.
-/
import ModemLink.Proofs.Session.Standing

set_option autoImplicit false

namespace ModemLink.Interplay.Sound

variable {τ ε : Type} {s : Interplay τ ε}

/-! ## Making a call -/

theorem call (h : s.Sound) (c : Call) : (s.call c).Sound := by
  unfold Interplay.call
  rcases hdoing : s.doing with - | c' | ⟨c', k⟩ | f
  · have hfree (hrunning : s.engine.running = true) := (h.stage hrunning).of_free (.inl hdoing)
    by_cases hbusy : (c.exclusive && s.inFlight.isSome) = true
    · rw [if_pos hbusy]
      obtain ⟨hexclusive, hpending⟩ := Bool.and_eq_true_iff.mp hbusy
      refine { h with
        called := fun _ hd => ?_
        awaits := fun _ _ hd => ?_
        stage := fun hrunning => ?_
        fair := fun hlate r hr => ?_ }
      · rcases hd with hd | ⟨k, hd⟩ <;> cases hd
      · cases hd
      · rcases hfree hrunning with ha | ⟨f, -, hf, hrequests, hwriting, hcut, hfate⟩
        · exact .apart _ (.nothing (.inl rfl) rfl) ⟨ha.inFlight_eq, ha.leftover, ha.writing, ha.slot⟩
        · exact .held f (.inFlight (.inl rfl) hf hrequests) hwriting hcut hfate
      · rcases List.mem_cons.mp hr with rfl | hr
        · cases c with
          | send command => exact ⟨fun _ => hpending, fun _ => rfl⟩
          | configure t =>
            unfold Returned.Fair
            rw [if_pos hpending]
          | stats => cases hexclusive
        · exact h.fair hlate r hr
    · rw [if_neg hbusy]
      have hnone (hexclusive : c.exclusive = true) : s.inFlight = none := by
        rw [hexclusive, Bool.true_and, Option.isSome_iff_ne_none, not_not] at hbusy
        exact hbusy
      refine { h with
        called := fun c' hd hexclusive => ?_
        awaits := fun _ _ hd => ?_
        stage := fun hrunning => ?_ }
      · obtain rfl : c' = c := by
          rcases hd with hd | ⟨k, hd⟩ <;> cases hd
          rfl
        refine ⟨?_, hnone hexclusive⟩
        show s.inFlight.isSome = false
        rw [hnone hexclusive]
        rfl
      · cases hd
      · rcases hfree hrunning with ha | ⟨f, -, hf, hrequests, hwriting, hcut, hfate⟩
        · exact .apart _ (.nothing (.inr ⟨c, rfl⟩) rfl)
            ⟨ha.inFlight_eq, ha.leftover, ha.writing, ha.slot⟩
        · -- only the question about the counters is let through
          have hc : c = .stats := by
            cases c with
            | stats => rfl
            | _ => cases (hnone rfl).symm.trans hf
          rw [hc]
          exact .held f (.inFlight (.inr rfl) hf hrequests) hwriting hcut hfate
  · exact h
  · exact h
  · exact h

/-! ## Queueing a request -/

theorem reply?_nextTicket (h : s.Sound) : s.engine.reply? s.engine.nextTicket = none := by
  by_contra hsome
  exact Nat.lt_irrefl _ (h.replies_lt _ (Option.isSome_iff_ne_none.mpr hsome))

theorem nextTicket_not_mem_abandoned (h : s.Sound) :
    s.engine.nextTicket ∉ s.engine.abandoned :=
  fun hmem => Nat.lt_irrefl _ (h.abandoned_lt _ hmem)

/-- One more request at the end of the queue does not hide the wish to give up a number. -/
theorem head?_append {l : List Request} {n : Nat} (r : Request) (h : l.head? = some (.cancel n)) :
    (l ++ [r]).head? = some (.cancel n) := by
  rw [List.head?_append, h]
  rfl

theorem enqueue (h : s.Sound) : s.enqueue.Sound := by
  unfold Interplay.enqueue
  rcases hdoing : s.doing with - | c | ⟨c, k⟩ | f
  · exact h
  · by_cases hfull : (s.engine.running && decide (requestDepth ≤ s.engine.requests.length)) = true
    · simp only [hfull, if_true]
      exact h
    · simp only [if_neg hfull, Engine.submit]
      refine { h with
        replies_lt := fun k hk => Nat.lt_succ_of_lt (h.replies_lt k hk)
        abandoned_lt := fun k hk => Nat.lt_succ_of_lt (h.abandoned_lt k hk)
        ended := fun hended => ?_
        called := fun c' hd hexclusive => ?_
        awaits := fun c' k hd => ?_
        cut := fun hrunning hcut => ?_
        stage := fun hrunning => ?_ }
      · obtain ⟨hwriting, hrequests⟩ := h.ended hended
        have hnot : ¬ s.engine.running = true := by
          rw [show s.engine.running = false from hended]
          exact Bool.false_ne_true
        rw [if_neg hnot]
        exact ⟨hwriting, hrequests⟩
      · obtain rfl : c' = c := by
          rcases hd with hd | ⟨k, hd⟩ <;> cases hd
          rfl
        exact h.called c' (.inl hdoing) hexclusive
      · cases hd
        refine ⟨Nat.lt_succ_self _, fun reply hreply => ?_⟩
        cases h.reply?_nextTicket.symm.trans hreply
      · obtain ⟨hconnected, hslot, hcancel, hwriting⟩ := h.cut hrunning hcut
        rw [if_pos (show s.engine.running = true from hrunning)]
        refine ⟨hconnected, hslot, fun n hn => ?_, hwriting⟩
        rcases List.mem_append.mp hn with hn | hn
        · exact hcancel n hn
        · cases c <;> cases List.mem_singleton.mp hn
      · rw [if_pos (show s.engine.running = true from hrunning)]
        rcases (h.stage hrunning).of_free (.inr ⟨c, hdoing⟩) with
          ha | ⟨f, hd, hf, hrequests, hwriting, hcut, hfate⟩
        · refine .apart s.engine.requests
            (.own c _ rfl rfl h.reply?_nextTicket h.nextTicket_not_mem_abandoned)
            ⟨ha.inFlight_eq, ha.leftover, ha.writing, fun n hn => ?_⟩
          exact (ha.slot n hn).imp_left (head?_append _)
        · -- with a command in flight, only statistics are asked for
          obtain rfl : c = .stats := by
            rcases hd with hd | hd <;> cases hd.symm.trans hdoing
            rfl
          rw [hrequests]
          exact .held f (.asking _ rfl hf rfl h.reply?_nextTicket h.nextTicket_not_mem_abandoned)
            hwriting hcut hfate
  · exact h
  · exact h

theorem setPollStep (h : s.Sound) (step : Nat) : (s.setPollStep step).Sound := by
  unfold Interplay.setPollStep
  split
  · rename_i hdoing hinFlight
    by_cases hroom : (s.engine.running && decide (s.engine.requests.length < requestDepth)) = true
    · obtain ⟨hrunning, -⟩ := Bool.and_eq_true_iff.mp hroom
      simp only [hroom, if_true, Engine.submit, if_pos hrunning]
      refine { h with
        replies_lt := fun k hk => Nat.lt_succ_of_lt (h.replies_lt k hk)
        abandoned_lt := fun k hk => Nat.lt_succ_of_lt (h.abandoned_lt k hk)
        ended := fun hended => absurd (hrunning.symm.trans hended) (by decide)
        awaits := fun c k hd => ?_
        cut := fun _ hcut => ?_
        stage := fun _ => ?_ }
      · cases hdoing.symm.trans hd
      · obtain ⟨hconnected, hslot, hcancel, hwriting⟩ := h.cut hrunning hcut
        refine ⟨hconnected, hslot, fun n hn => ?_, hwriting⟩
        rcases List.mem_append.mp hn with hn | hn
        · exact hcancel n hn
        · cases List.mem_singleton.mp hn
      · rcases (h.stage hrunning).of_free (.inl hdoing) with ha | ⟨f, -, hf, -⟩
        · refine .apart _ (.nothing (.inl hdoing) rfl)
            ⟨ha.inFlight_eq, fun r hr => ?_, ha.writing, fun n hn => ?_⟩
          · rcases List.mem_append.mp hr with hr | hr
            · exact ha.leftover r hr
            · rw [List.mem_singleton.mp hr]
              exact trivial
          · exact (ha.slot n hn).imp_left (head?_append _)
        · cases hinFlight.symm.trans hf
    · rw [if_neg hroom]
      exact h
  · exact h

/-! ## Dropping a send -/

/-- **A send that was dropped** leaves its ticket behind, and its number if that stood there
already. -/
theorem drop_awaiting (h : s.Sound) {command : Text} {k : Nat}
    (hdoing : s.doing = .awaiting (.send command) k) {late : List (Nat × Nat)}
    (hmore : ∀ x ∈ s.late, x ∈ late)
    (hgiven : ∀ n, s.engine.reply? k = some (.transmitted (.ok n)) → (k, n) ∈ late) :
    Sound { s with doing := .nothing, engine := s.engine.abandon k, late := late } := by
  have hexcused (n : Nat) (hn : s.Excused n) :
      Excused { s with doing := .nothing, engine := s.engine.abandon k, late := late } n := by
    rcases hn with hhead | hwriting | ⟨j, hj⟩ | hcut
    · exact .inl hhead
    · exact .inr (.inl hwriting)
    · exact .inr (.inr (.inl ⟨j, hmore _ hj⟩))
    · exact .inr (.inr (.inr hcut))
  refine { h with
    abandoned_lt := fun j hj => ?_
    called := fun _ hd => absurd hd (Doing.not_calling (.inl rfl))
    awaits := fun _ _ hd => nomatch hd
    stage := fun hrunning => ?_
    fair := fun hnone => ?_ }
  · rcases List.mem_cons.mp hj with rfl | hj
    · exact (h.awaits _ _ hdoing).1
    · exact h.abandoned_lt j hj
  · refine .apart _ (.nothing (.inl rfl) rfl) ?_
    cases (h.stage hrunning).of_awaiting hdoing with
    | queued _ _ left hrequests hreply ha =>
      refine ⟨ha.inFlight_eq, fun r hr => ?_,
        fun j o hw => List.mem_cons_of_mem _ (ha.writing j o hw),
        fun n hn => hexcused n (ha.slot n hn)⟩
      rcases List.mem_append.mp (hrequests ▸ hr : r ∈ left ++ [_]) with hr | hr
      · have hleft := ha.leftover r hr
        cases r with
        | transmit j command => exact ⟨List.mem_cons_of_mem _ hleft.1, hleft.2⟩
        | _ => exact hleft
      · -- the send's own request is left over from now on
        rw [List.mem_singleton.mp hr]
        exact ⟨List.mem_cons_self, hreply⟩
    | written _ _ o hw hrequests hreply hinFlight hslot =>
      refine ⟨hinFlight, fun r hr => ?_, fun j o' hw' => ?_, fun n hn => hexcused n (hslot n hn)⟩
      · cases (hrequests ▸ hr : r ∈ [])
      · cases hw.symm.trans hw'
        exact List.mem_cons_self
    | answered _ _ reply hclear hreply hnumber hinFlight hslot =>
      refine ⟨hinFlight, fun r hr => ?_, fun j o' hw' => ?_, fun n hn => hexcused n (hslot n hn)⟩
      · cases (hclear.2 ▸ hr : r ∈ [])
      · cases hclear.1.symm.trans hw'
    | given _ f hclear hreply hinFlight hcut hfate =>
      refine ⟨hinFlight, fun r hr => ?_, fun j o' hw' => ?_, fun n hn => ?_⟩
      · cases (hclear.2 ▸ hr : r ∈ [])
      · cases hclear.1.symm.trans hw'
      · -- the number in the slot is the one that came too late
        obtain ⟨p, hp, rfl⟩ := hn
        rcases hfate with ⟨p', hp', hnumber, -⟩ | ⟨-, hnone⟩
        · cases hp'.symm.trans hp
          rw [hnumber]
          exact .inr (.inr (.inl ⟨_, hgiven _ hreply⟩))
        · cases hnone.symm.trans hp
  · refine h.fair (List.eq_nil_iff_forall_not_mem.mpr fun x hx => ?_)
    have hx' := hmore x hx
    rw [show late = [] from hnone] at hx'
    cases hx'

theorem drop (h : s.Sound) : s.drop.Sound := by
  unfold Interplay.drop
  split
  · rename_i command hdoing
    refine { h with
      called := fun _ hd => absurd hd (Doing.not_calling (.inl rfl))
      awaits := fun _ _ hd => nomatch hd
      stage := fun hrunning => ?_ }
    rcases (h.stage hrunning).of_free (.inr ⟨_, hdoing⟩) with ha | ⟨f, hd, -⟩
    · exact .apart _ (.nothing (.inl rfl) rfl) ⟨ha.inFlight_eq, ha.leftover, ha.writing, ha.slot⟩
    · rcases hd with hd | hd <;> cases hd.symm.trans hdoing
  · rename_i command k hdoing
    apply h.drop_awaiting hdoing
    · intro x hx
      split
      · exact List.mem_cons_of_mem _ hx
      · exact hx
    · intro n hn
      rw [Engine.given?_eq_some.mpr hn]
      exact List.mem_cons_self
  · exact h

/-! ## Taking a reply -/

/-- What a call returns is fair if its reply fits. -/
theorem fair_ret (h : s.Sound) {c : Call} {k : Nat} (hdoing : s.doing = .awaiting c k)
    {outcome : Except Error Unit}
    (hfair : s.late = [] → Returned.Fair ⟨c, false, s.cut, outcome⟩) :
    s.late = [] → ∀ r ∈ (s.ret c outcome).log, r.Fair := by
  intro hlate r hr
  rcases List.mem_cons.mp hr with rfl | hr
  · cases c with
    | stats => trivial
    | _ =>
      rw [(h.called _ (.inr ⟨k, hdoing⟩) rfl).1]
      exact hfair hlate
  · exact h.fair hlate r hr

/-- A reply that fits makes the return fair. -/
theorem fair_of_fits {c : Call} {reply : Reply} (hfits : s.Fits c reply) (hlate : s.late = []) :
    Returned.Fair ⟨c, false, s.cut, reply.outcome⟩ := by
  cases c with
  | stats => trivial
  | send command =>
    cases reply with
    | transmitted outcome =>
      have hbusy := hfits hlate
      cases outcome with
      | ok n => exact ⟨nofun, nofun⟩
      | error err =>
        refine ⟨fun herr => absurd ?_ hbusy, nofun⟩
        cases herr
        rfl
    | _ => cases hfits
  | configure t =>
    cases reply with
    | configured outcome => exact .inr (hfits hlate)
    | _ => cases hfits

/-- While the engine runs, a call that has no reply still expects one. -/
theorem expects (h : s.Sound) {c : Call} {k : Nat} (hdoing : s.doing = .awaiting c k)
    (hrunning : s.engine.running = true) (hreply : s.engine.reply? k = none) :
    s.expects k = true := by
  have hticket : (c.request k).ticket? = some k := by cases c <;> rfl
  unfold Interplay.expects
  rw [Bool.or_eq_true_iff]
  cases (h.stage hrunning).of_awaiting hdoing with
  | queued _ _ left hrequests =>
    rw [hrequests]
    simp [hticket]
  | written command _ o hw =>
    rw [hw]
    simp
  | asking f _ hrequests =>
    rw [hrequests]
    simp [Request.ticket?]
  | answered _ _ reply hclear hsome => cases hreply.symm.trans hsome
  | given command f hclear hsome => cases hreply.symm.trans hsome
  | told f _ stats hclear hsome => cases hreply.symm.trans hsome

/-- A number puts the command in flight. -/
theorem take_number (h : s.Sound) {c : Call} {k n : Nat} (hdoing : s.doing = .awaiting c k)
    (hreply : s.engine.reply? k = some (.transmitted (.ok n))) :
    ({ s with inFlight := some ⟨n, k⟩ }.ret c (.ok ())).Sound := by
  refine { h with
    called := fun _ hd => absurd hd (Doing.not_calling (.inl rfl))
    awaits := fun _ _ hd => nomatch hd
    stage := fun hrunning => ?_
    fair := h.fair_ret hdoing fun hlate => fair_of_fits ((h.awaits c k hdoing).2 _ hreply) hlate }
  cases (h.stage hrunning).of_awaiting hdoing with
  | given command f hclear hsome hinFlight hcut hfate =>
    cases hsome.symm.trans hreply
    exact .held f (.inFlight (.inl rfl) rfl hclear.2) hclear.1 hcut hfate
  | answered _ _ reply hclear hsome hnumber =>
    exact absurd (Option.some.inj (hsome.symm.trans hreply)) (hnumber n)
  | told f _ stats hclear hsome => cases hsome.symm.trans hreply
  | queued _ _ left hrequests hnone => cases hreply.symm.trans hnone
  | written command _ o hw hrequests hnone => cases hreply.symm.trans hnone
  | asking f _ hrequests hnone => cases hreply.symm.trans hnone

/-- Any other reply leaves the two parties as they were. -/
theorem take_other (h : s.Sound) {c : Call} {k : Nat} (hdoing : s.doing = .awaiting c k)
    {reply : Reply} (hreply : s.engine.reply? k = some reply)
    (hother : ∀ n, reply ≠ .transmitted (.ok n)) : (s.ret c reply.outcome).Sound := by
  refine { h with
    called := fun _ hd => absurd hd (Doing.not_calling (.inl rfl))
    awaits := fun _ _ hd => nomatch hd
    stage := fun hrunning => ?_
    fair := h.fair_ret hdoing fun hlate => fair_of_fits ((h.awaits c k hdoing).2 _ hreply) hlate }
  cases (h.stage hrunning).of_awaiting hdoing with
  | answered _ _ reply' hclear hsome hnumber hinFlight hslot =>
    refine .apart [] (.nothing (.inl rfl) hclear.2) ⟨hinFlight, fun _ => nofun, fun j o hw => ?_, hslot⟩
    cases hclear.1.symm.trans hw
  | told f _ stats hclear hsome hinFlight hcut hfate =>
    exact .held f (.inFlight (.inl rfl) hinFlight hclear.2) hclear.1 hcut hfate
  | given command f hclear hsome =>
    exact absurd (Option.some.inj (hreply.symm.trans hsome)) (hother _)
  | queued _ _ left hrequests hnone => cases hreply.symm.trans hnone
  | written command _ o hw hrequests hnone => cases hreply.symm.trans hnone
  | asking f _ hrequests hnone => cases hreply.symm.trans hnone

theorem take (h : s.Sound) : s.take.Sound := by
  unfold Interplay.take
  rcases hdoing : s.doing with - | c | ⟨c, k⟩ | f
  · exact h
  · exact h
  · simp only
    split
    · rename_i n _ hgiven
      exact h.take_number hdoing (Engine.given?_eq_some.mp hgiven)
    · rename_i reply hgiven hreply
      refine h.take_other hdoing hreply fun n hn => ?_
      rw [hn, ← Engine.given?_eq_some, hgiven] at hreply
      cases hreply
    · rename_i hreply
      split
      · exact h
      · -- no reply comes any more, so the engine has ended
        rename_i hexpects
        refine { h with
          called := fun _ hd => absurd hd (Doing.not_calling (.inl rfl))
          awaits := fun _ _ hd => nomatch hd
          stage := fun hrunning => absurd (h.expects hdoing hrunning hreply) hexpects
          fair := h.fair_ret hdoing fun _ => ?_ }
        cases c with
        | send command => exact ⟨nofun, nofun⟩
        | configure t => exact .inl rfl
        | stats => trivial
  · exact h

/-! ## Waiting -/

theorem wait (h : s.Sound) : s.wait.Sound := by
  unfold Interplay.wait
  split
  · rename_i f hdoing hf
    refine { h with
      called := fun _ hd => absurd hd (Doing.not_calling (.inr ⟨f, rfl⟩))
      awaits := fun _ _ hd => nomatch hd
      stage := fun hrunning => ?_ }
    rcases (h.stage hrunning).of_free (.inl hdoing) with
      ha | ⟨g, -, hg, hrequests, hwriting, hcut, hfate⟩
    · cases ha.inFlight_eq.symm.trans hf
    · cases hg.symm.trans hf
      exact .held f (.waiting rfl rfl hrequests) hwriting hcut hfate
  · exact h

/-- Collecting a resolution takes away no other one. -/
theorem lookup_filter {l : List (Nat × Resolved)} {k j : Nat}
    (h : ((l.filter (·.1 != k)).lookup j).isSome = true) : (l.lookup j).isSome = true := by
  rw [List.lookup_isSome_iff] at h ⊢
  obtain ⟨x, hx, hxj⟩ := h
  exact ⟨x, List.mem_of_mem_filter hx, hxj⟩

theorem look (h : s.Sound) : s.look.Sound := by
  unfold Interplay.look
  rcases hdoing : s.doing with - | c | ⟨c, k⟩ | f
  · exact h
  · exact h
  · exact h
  · have hstage (hrunning : s.engine.running = true) := (h.stage hrunning).of_waiting hdoing
    have hresolved (k : Nat)
        (hk : ((s.engine.resolutions.filter (·.1 != f.ticket)).lookup k).isSome = true) :=
      h.resolved_answered k (lookup_filter hk)
    rcases hslot : s.engine.slot f.ticket with r | - | -
    · simp only [Engine.collect, hslot]
      refine { h with
        resolved_answered := hresolved
        called := fun _ hd => absurd hd (Doing.not_calling (.inl rfl))
        awaits := fun _ _ hd => nomatch hd
        stage := fun hrunning => ?_ }
      obtain ⟨hinFlight, ⟨hwriting, hrequests⟩, -, hfate⟩ := hstage hrunning
      have hsome := Engine.lookup_of_delivered hslot
      refine .apart [] (.nothing (.inl rfl) hrequests)
        ⟨hinFlight, fun _ => nofun, fun k o hw => ?_, fun n hn => ?_⟩
      · cases hwriting.symm.trans hw
      · -- the slot was emptied when the resolution was produced
        obtain ⟨p, hp, -⟩ := hn
        rcases hfate with ⟨-, -, -, hnone, -⟩ | ⟨-, hnone⟩
        · cases hnone.symm.trans hsome
        · cases hnone.symm.trans hp
    · simp only [Engine.collect, hslot]
      exact h
    · simp only [Engine.collect, hslot]
      obtain ⟨hnone, hwaiter⟩ := Engine.of_closed hslot
      -- nobody holds the ticket any more, so reading has ended
      have hlost (hrunning : s.engine.running = true) :
          s.engine.connected = false ∧ ∃ n, s.InSlot n := by
        obtain ⟨-, -, -, hfate⟩ := hstage hrunning
        rcases hfate with ⟨p, hp, -, -, hw | ⟨-, hconnected⟩⟩ | ⟨hsome, -⟩
        · exact absurd rfl (hwaiter _ hw)
        · exact ⟨hconnected, _, p, hp, rfl⟩
        · rw [hnone] at hsome
          cases hsome
      refine { h with
        called := fun _ hd => absurd hd (Doing.not_calling (.inl rfl))
        awaits := fun _ _ hd => nomatch hd
        cut := fun hrunning _ => ?_
        stage := fun hrunning => ?_ }
      · obtain ⟨-, ⟨hwriting, hrequests⟩, -⟩ := hstage hrunning
        refine ⟨(hlost hrunning).1, (hlost hrunning).2, fun n hn => ?_, fun k n hw => ?_⟩
        · cases (hrequests ▸ hn : _ ∈ [])
        · cases hwriting.symm.trans hw
      · obtain ⟨hinFlight, ⟨hwriting, hrequests⟩, -⟩ := hstage hrunning
        refine .apart [] (.nothing (.inl rfl) hrequests)
          ⟨hinFlight, fun _ => nofun, fun k o hw => ?_, fun n _ => .inr (.inr (.inr rfl))⟩
        cases hwriting.symm.trans hw

/-- A wait that gives up asks for its number to be given up. There is room for that, since the queue
is empty while a wait lasts. -/
theorem giveUp (h : s.Sound) : s.giveUp.Sound := by
  unfold Interplay.giveUp
  rcases hdoing : s.doing with - | c | ⟨c, k⟩ | f
  · exact h
  · exact h
  · exact h
  · by_cases hrunning : s.engine.running = true
    · obtain ⟨hinFlight, ⟨hwriting, hrequests⟩, hcut, hfate⟩ := (h.stage hrunning).of_waiting hdoing
      have hcancel : s.engine.submitCancel f.number
          = { s.engine with requests := [.cancel f.number] } := by
        have hroom : (s.engine.running && decide (s.engine.requests.length < requestDepth)) = true := by
          rw [hrunning, hrequests]
          rfl
        unfold Engine.submitCancel
        rw [if_pos hroom, hrequests]
        rfl
      simp only [hcancel]
      refine { h with
        ended := fun hended => absurd (hrunning.symm.trans hended) (by decide)
        called := fun _ hd => absurd hd (Doing.not_calling (.inl rfl))
        awaits := fun _ _ hd => nomatch hd
        cut := fun _ hcut' => absurd (hcut.symm.trans hcut') (by decide)
        stage := fun _ => ?_ }
      refine .apart _ (.nothing (.inl rfl) rfl)
        ⟨hinFlight, fun r hr => ?_, fun k o hw => ?_, fun n hn => ?_⟩
      · rw [List.mem_singleton.mp hr]
        exact trivial
      · cases hwriting.symm.trans hw
      · -- what is in the slot is what the engine is asked to give up
        obtain ⟨p, hp, rfl⟩ := hn
        rcases hfate with ⟨p', hp', hnumber, -⟩ | ⟨-, hnone⟩
        · cases hp'.symm.trans hp
          rw [hnumber]
          exact .inl rfl
        · cases hnone.symm.trans hp
    · have hcancel : s.engine.submitCancel f.number = s.engine := by
        unfold Engine.submitCancel
        rw [Bool.eq_false_iff.mpr hrunning]
        rfl
      simp only [hcancel]
      exact { h with
        called := fun _ hd => absurd hd (Doing.not_calling (.inl rfl))
        awaits := fun _ _ hd => nomatch hd
        stage := fun hrunning' => absurd hrunning' hrunning }

end ModemLink.Interplay.Sound
