/-
The books of an engine: who was given which number, who waits, and what was sent to whom.

Two records of one fact stand side by side in an engine. The receive path holds the command in
flight, and the engine holds the waiter. This file keeps only what matters for their agreement and
says in `Move` how the engine changes it. `Sound` is the invariant that every move preserves.
-/
import ModemLink.Engine
import ModemLink.Proofs.Receiver.Requests

set_option autoImplicit false

namespace ModemLink

/-! ## Numbers from a counter -/

/-- **Drawn from a counter.** Each number below the counter occurs once at most, and no other one
occurs. -/
def Drawn (next : Nat) (l : List Nat) : Prop := ∀ n, l.count n ≤ if n < next then 1 else 0

namespace Drawn

theorem nodup {next : Nat} {l : List Nat} (h : Drawn next l) : l.Nodup := by
  rw [List.nodup_iff_count]
  intro n
  have := h n
  split at this <;> omega

theorem of_count_le {next next' : Nat} {l l' : List Nat} (h : Drawn next l) (hle : next ≤ next')
    (hcount : ∀ n, l'.count n ≤ l.count n) : Drawn next' l' := by
  intro n
  have hn := h n
  have hn' := hcount n
  split at hn <;> split <;> omega

theorem draw {next : Nat} {l l' : List Nat} (h : Drawn next l)
    (hcount : ∀ n, l'.count n ≤ [next].count n + l.count n) : Drawn (next + 1) l' := by
  intro n
  have hn := h n
  have hn' := hcount n
  by_cases heq : next = n
  · subst heq
    -- the counter itself did not occur before
    simp only [List.count_singleton_self, Nat.lt_irrefl, if_false] at hn hn'
    simp only [Nat.lt_succ_self, if_true]
    omega
  · rw [List.count_singleton, if_neg (by simpa using heq)] at hn'
    split at hn <;> split <;> omega

end Drawn

/-! ## The books -/

/-- What matters for who waits. -/
structure Books where
  tracker : Tracker
  waiter : Option Waiter
  /-- whether bytes are still read -/
  live : Bool
  /-- the tickets of the commands in the queue -/
  queued : List Nat
  nextTicket : Nat
  /-- the tickets that were answered with a number, and their numbers -/
  given : List (Nat × Nat)
  /-- the resolutions that were posted, under their tickets -/
  sent : List (Nat × Resolved)
  /-- the resolutions that the receive path has produced -/
  produced : List Resolution

namespace Books

/-- A resolution goes to the waiter if the number is the waiter's. -/
def settle (now : Nat) (b : Books) (res : Resolution) : Books :=
  match b.waiter with
  | some w =>
    if w.number = res.number then
      { b with waiter := none, sent := (w.ticket, ⟨res, now⟩) :: b.sent }
    else b
  | none => b

/-- **What an engine does to its books.** -/
inductive Move (b : Books) : Books → Prop where
  /-- nothing that matters: tickets of other requests, commands that are refused -/
  | rest (b' : Books) (htracker : b'.tracker = b.tracker) (hwaiter : b'.waiter = b.waiter)
    (hlive : b'.live = true → b.live = true) (hqueued : b'.queued.Sublist b.queued)
    (hticket : b.nextTicket ≤ b'.nextTicket) (hgiven : b'.given = b.given)
    (hsent : b'.sent.Perm b.sent) (hproduced : b'.produced = b.produced) : Move b b'
  /-- a command is queued under a new ticket -/
  | queue : Move b { b with queued := b.queued ++ [b.nextTicket], nextTicket := b.nextTicket + 1 }
  /-- a command is written, and its ticket is answered with its number -/
  | start (ticket : Nat) (rest : List Nat) (p : Pending) (hidle : b.tracker.current = none)
    (hqueued : b.queued = ticket :: rest) (hp : p.number = b.tracker.next) :
    Move b { b with
      tracker := { b.tracker with current := some p, next := b.tracker.next + 1 }
      waiter := some ⟨p.number, ticket⟩
      queued := rest
      given := (ticket, p.number) :: b.given }
  /-- a command is begun and given up again: it cannot be written, or nobody waits for its number -/
  | drop (ticket : Nat) (rest : List Nat) (waiter : Option Waiter)
    (hidle : b.tracker.current = none) (hqueued : b.queued = ticket :: rest)
    (hwaiter : waiter = none ∨ waiter = b.waiter) :
    Move b { b with
      tracker := { b.tracker with current := none, next := b.tracker.next + 1 }
      waiter := waiter
      queued := rest }
  | cancel (number : Nat) :
    Move b { b with
      tracker := (b.tracker.cancel number).2
      waiter := b.waiter.filter (·.number != number) }
  /-- reading ends, or the engine does -/
  | letGo (queued : List Nat) (hqueued : queued.Sublist b.queued) :
    Move b { b with waiter := none, live := false, queued := queued }
  /-- bytes are read, and their resolutions are passed on -/
  | read (now : Nat) (t : Tracker) (resolutions : List Resolution) (hlive : b.live = true)
    (hfollows : b.tracker.Follows t resolutions) :
    Move b (resolutions.foldl (settle now)
      { b with tracker := t, produced := b.produced ++ resolutions })

theorem Move.refl (b : Books) : Move b b :=
  .rest b rfl rfl id (.refl _) (Nat.le_refl _) rfl (.refl _) rfl

/-- The tickets of the commands, queued or answered. -/
def tickets (b : Books) : List Nat := b.given.map Prod.fst ++ b.queued

/-- **The books are sound.** While bytes are read, the command in flight is the one that the waiter
waits for. Tickets and numbers are not used twice, and what was produced was sent to the holder of
its number. -/
structure Sound (b : Books) : Prop where
  agree : b.live = true → b.tracker.inFlight = (b.waiter.map Waiter.number).toList
  waits (w : Waiter) : b.waiter = some w → (w.ticket, w.number) ∈ b.given
  tickets : Drawn b.nextTicket b.tickets
  numbers : Drawn b.tracker.next (b.given.map Prod.snd)
  once : Drawn b.tracker.next (b.tracker.inFlight ++ b.produced.map Resolution.number)
  addressed (s : Nat × Resolved) : s ∈ b.sent → (s.1, s.2.resolution.number) ∈ b.given
  complete : (b.sent.map fun s => s.2.resolution).Perm b.produced

/-- **A resolution finds its waiter.** -/
theorem Sound.exists_waiter {b : Books} (h : b.Sound) (hlive : b.live = true) {p : Pending}
    (hp : b.tracker.current = some p) : ∃ w, b.waiter = some w ∧ w.number = p.number := by
  have hagree := h.agree hlive
  unfold Tracker.inFlight at hagree
  rw [hp] at hagree
  cases hw : b.waiter with
  | none =>
    rw [hw] at hagree
    cases hagree
  | some w =>
    rw [hw] at hagree
    exact ⟨w, rfl, (List.cons.inj hagree).1.symm⟩

/-- Without a command in flight nobody waits. -/
theorem Sound.waiter_eq_none {b : Books} (h : b.Sound) (hlive : b.live = true)
    (hidle : b.tracker.current = none) : b.waiter = none := by
  have hagree := h.agree hlive
  unfold Tracker.inFlight at hagree
  rw [hidle] at hagree
  cases hw : b.waiter with
  | none => rfl
  | some w =>
    rw [hw] at hagree
    cases hagree

/-! ## Every move is sound -/

namespace Sound

variable {b : Books}

theorem rest (h : b.Sound) {b' : Books} (htracker : b'.tracker = b.tracker)
    (hwaiter : b'.waiter = b.waiter) (hlive : b'.live = true → b.live = true)
    (hqueued : b'.queued.Sublist b.queued) (hticket : b.nextTicket ≤ b'.nextTicket)
    (hgiven : b'.given = b.given) (hsent : b'.sent.Perm b.sent)
    (hproduced : b'.produced = b.produced) : b'.Sound where
  agree hl := by
    rw [htracker, hwaiter]
    exact h.agree (hlive hl)
  waits w hw := by
    rw [hgiven]
    exact h.waits w (hwaiter ▸ hw)
  tickets := by
    refine h.tickets.of_count_le hticket fun n => ?_
    unfold Books.tickets
    rw [hgiven]
    exact (List.Sublist.append_left hqueued _).count_le n
  numbers := by
    rw [htracker, hgiven]
    exact h.numbers
  once := by
    rw [htracker, hproduced]
    exact h.once
  addressed s hs := by
    rw [hgiven]
    exact h.addressed s (hsent.mem_iff.mp hs)
  complete := by
    rw [hproduced]
    exact (hsent.map _).trans h.complete

theorem start (h : b.Sound) (ticket : Nat) (rest : List Nat) (p : Pending)
    (hidle : b.tracker.current = none) (hqueued : b.queued = ticket :: rest)
    (hp : p.number = b.tracker.next) :
    Sound { b with
      tracker := { b.tracker with current := some p, next := b.tracker.next + 1 }
      waiter := some ⟨p.number, ticket⟩
      queued := rest
      given := (ticket, p.number) :: b.given } where
  agree _ := rfl
  waits w hw := by
    cases hw
    exact List.mem_cons_self
  tickets := by
    -- the ticket moves from the queue to the answers
    refine h.tickets.of_count_le (Nat.le_refl _) fun n => ?_
    simp only [Books.tickets, hqueued, List.map_cons, List.cons_append, List.count_append,
      List.count_cons]
    omega
  numbers := by
    refine h.numbers.draw fun n => ?_
    simp only [List.map_cons, hp, List.count_cons, List.count_nil]
    omega
  once := by
    refine h.once.draw fun n => ?_
    unfold Tracker.inFlight
    rw [hidle, List.count_append, List.count_append]
    simp only [Option.map_some, Option.toList_some, Option.map_none, Option.toList_none, hp]
    omega
  addressed s hs := List.mem_cons_of_mem _ (h.addressed s hs)
  complete := h.complete

theorem drop (h : b.Sound) (ticket : Nat) (rest : List Nat) (waiter : Option Waiter)
    (hidle : b.tracker.current = none) (hqueued : b.queued = ticket :: rest)
    (hwaiter : waiter = none ∨ waiter = b.waiter) :
    Sound { b with
      tracker := { b.tracker with current := none, next := b.tracker.next + 1 }
      waiter := waiter
      queued := rest } where
  agree hl := by
    -- whichever of the two it is, nobody waits
    have hnone := h.waiter_eq_none hl hidle
    rcases hwaiter with rfl | rfl
    · rfl
    · rw [hnone]
      rfl
  waits w hw := by
    rcases hwaiter with rfl | rfl
    · cases hw
    · exact h.waits w hw
  tickets := by
    refine h.tickets.of_count_le (Nat.le_refl _) fun n => ?_
    simp only [Books.tickets, hqueued, List.count_append, List.count_cons]
    omega
  numbers := h.numbers.of_count_le (Nat.le_succ _) fun _ => Nat.le_refl _
  once := by
    refine h.once.of_count_le (Nat.le_succ _) fun n => Nat.le_of_eq ?_
    unfold Tracker.inFlight
    rw [hidle]
  addressed := h.addressed
  complete := h.complete

theorem cancel (h : b.Sound) (number : Nat) :
    Sound { b with
      tracker := (b.tracker.cancel number).2
      waiter := b.waiter.filter (·.number != number) } where
  agree hl := by
    -- both records lose the same number
    show (b.tracker.cancel number).2.inFlight = _
    rw [Tracker.cancel_inFlight, h.agree hl]
    cases b.waiter with
    | none => rfl
    | some w => by_cases hw : w.number = number <;> simp [Option.filter, hw]
  waits w hw := by
    rw [Option.filter_eq_some_iff] at hw
    exact h.waits w hw.1
  tickets := h.tickets
  numbers := by
    show Drawn (b.tracker.cancel number).2.next _
    rw [Tracker.cancel_next]
    exact h.numbers
  once := by
    show Drawn (b.tracker.cancel number).2.next _
    rw [Tracker.cancel_next]
    refine h.once.of_count_le (Nat.le_refl _) fun n => ?_
    simp only [Tracker.cancel_inFlight]
    exact (List.filter_sublist.append_right _).count_le n
  addressed := h.addressed
  complete := h.complete

/-- What a reading produces is counted with what was produced before. -/
theorem once_read (h : b.Sound) {t : Tracker} {resolutions : List Resolution}
    (hfollows : b.tracker.Follows t resolutions) :
    Drawn t.next (t.inFlight ++ (b.produced ++ resolutions).map Resolution.number) := by
  refine h.once.of_count_le (Nat.le_of_eq hfollows.next_eq.symm) fun n => ?_
  have hcount := hfollows.count_eq n
  -- a number in flight before is in flight still, or in a resolution
  simp only [List.map_append, List.count_append]
  omega

/-- A reading that resolves nothing keeps the number in flight, and the waiter. -/
theorem read_nothing (h : b.Sound) {t : Tracker} (hfollows : b.tracker.Follows t []) :
    Sound { b with tracker := t, produced := b.produced ++ [] } where
  agree hl := hfollows.inFlight_eq.trans (h.agree hl)
  waits := h.waits
  tickets := h.tickets
  numbers := by
    show Drawn t.next _
    rw [hfollows.next_eq]
    exact h.numbers
  once := h.once_read hfollows
  addressed := h.addressed
  complete := by
    rw [List.append_nil]
    exact h.complete

/-- A resolution goes to the waiter, whose number it carries. -/
theorem read_one (h : b.Sound) (now : Nat) {t : Tracker} {res : Resolution} {w : Waiter}
    (hfollows : b.tracker.Follows t [res]) (hidle : t.current = none) (hw : b.waiter = some w)
    (hnumber : w.number = res.number) :
    Sound { b with
      tracker := t
      waiter := none
      sent := (w.ticket, ⟨res, now⟩) :: b.sent
      produced := b.produced ++ [res] } where
  agree _ := by
    unfold Tracker.inFlight
    rw [hidle]
    rfl
  waits _ := (nomatch ·)
  tickets := h.tickets
  numbers := by
    show Drawn t.next _
    rw [hfollows.next_eq]
    exact h.numbers
  once := h.once_read hfollows
  addressed s hs := by
    rcases List.mem_cons.mp hs with rfl | hs
    · rw [← hnumber]
      exact h.waits w hw
    · exact h.addressed s hs
  complete := (h.complete.cons res).trans (List.perm_append_singleton res b.produced).symm

/-- A reading produces one resolution at most, which finds its waiter. -/
theorem read (h : b.Sound) (now : Nat) (t : Tracker) (resolutions : List Resolution)
    (hlive : b.live = true) (hfollows : b.tracker.Follows t resolutions) :
    Sound (resolutions.foldl (settle now)
      { b with tracker := t, produced := b.produced ++ resolutions }) := by
  cases hfollows with
  | idle hidle hidle' hnext => exact h.read_nothing (.idle hidle hidle' hnext)
  | kept p p' hp hp' hnumber hname hnext =>
    exact h.read_nothing (.kept p p' hp hp' hnumber hname hnext)
  | ended p res hp hp' hnumber hname hstatus hnext =>
    obtain ⟨w, hw, hwp⟩ := h.exists_waiter hlive hp
    have hwres : w.number = res.number := hwp.trans hnumber.symm
    have hone := h.read_one now (.ended p res hp hp' hnumber hname hstatus hnext) hp' hw hwres
    simpa [settle, hw, hwres] using hone

end Sound

/-- **Every move keeps the books sound.** -/
theorem Sound.move {b b' : Books} (h : b.Sound) (hm : Move b b') : b'.Sound := by
  cases hm with
  | rest _ htracker hwaiter hlive hqueued hticket hgiven hsent hproduced =>
    exact h.rest htracker hwaiter hlive hqueued hticket hgiven hsent hproduced
  | queue =>
    refine ⟨h.agree, h.waits, h.tickets.draw fun n => ?_, h.numbers, h.once, h.addressed,
      h.complete⟩
    simp only [Books.tickets, List.count_append]
    omega
  | start ticket rest p hidle hqueued hp => exact h.start ticket rest p hidle hqueued hp
  | drop ticket rest waiter hidle hqueued hwaiter =>
    exact h.drop ticket rest waiter hidle hqueued hwaiter
  | cancel number => exact h.cancel number
  | letGo queued hqueued =>
    refine ⟨(nomatch ·), (fun _ => nomatch ·), ?_, h.numbers, h.once, h.addressed, h.complete⟩
    exact h.tickets.of_count_le (Nat.le_refl _) fun n =>
      (List.Sublist.append_left hqueued _).count_le n
  | read now t resolutions hlive hfollows => exact h.read now t resolutions hlive hfollows

end Books

end ModemLink
