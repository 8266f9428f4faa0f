/-
What becomes of requests.

A receive path is driven by five calls: begin a request, cancel one, feed bytes, switch
terminators, note a lost event. This file follows any sequence of them from a fresh receive path
and keeps every answer. A request is known by its number, so what became of it is read off the
answers: its number was handed out, it came back with a resolution, or a cancellation found it.

`Effect` says what one call can do to the tracker, `Sound` is the invariant over the tracker and the
answers so far, and `request_lifecycle` collects what follows from it.
-/
import ModemLink.Proofs.Receiver.InFlight

set_option autoImplicit false

namespace ModemLink.Receiver

open ModemLink

variable {ε : Type}

/-! ## Calls and answers -/

/-- A call on a receive path. -/
inductive Operation where
  | begin (command : Text)
  | cancel (number : Nat)
  | feed (bytes : Bytes)
  | setTerminators (t : Terminators)
  | noteEventLost
deriving DecidableEq, Repr

/-- Whether the call begins a request. -/
def Operation.isBegin : Operation → Bool
  | .begin _ => true
  | _ => false

/-- What a call answers. -/
inductive Answer (ε : Type) where
  | begin (command : Text) (outcome : Except Error Nat)
  | cancel (number : Nat) (found : Bool)
  | feed (outputs : List (Output ε))
  | setTerminators (outcome : Except Error Unit)
  | noteEventLost

/-- Does what a call asks for. A call that is refused leaves the receive path as it is. -/
def perform (op : Operation) (r : Receiver ε) : Answer ε × Receiver ε :=
  match op with
  | .begin command =>
    match r.begin command with
    | .error err => (.begin command (.error err), r)
    | .ok (number, r') => (.begin command (.ok number), r')
  | .cancel number => (.cancel number (r.cancel number).1, (r.cancel number).2)
  | .feed bytes => (.feed (r.feed bytes).2, (r.feed bytes).1)
  | .setTerminators t =>
    match r.setTerminators t with
    | .error err => (.setTerminators (.error err), r)
    | .ok r' => (.setTerminators (.ok ()), r')
  | .noteEventLost => (.noteEventLost, r.noteEventLost)

/-- The number that an answer hands out. -/
def Answer.issued : Answer ε → List Nat
  | .begin _ (.ok number) => [number]
  | _ => []

/-- The numbers of the resolutions in an answer. -/
def Answer.resolved : Answer ε → List Nat
  | .feed outputs => (Output.resolutions outputs).map Resolution.number
  | _ => []

/-- The number that an answer says was given up. -/
def Answer.cancelled : Answer ε → List Nat
  | .cancel number true => [number]
  | _ => []

/-- The numbers handed out, in their order. -/
def issued (answers : List (Answer ε)) : List Nat := answers.flatMap Answer.issued

/-- The numbers resolved. A number that was resolved twice would stand here twice. -/
def resolved (answers : List (Answer ε)) : List Nat := answers.flatMap Answer.resolved

/-- The numbers given up. -/
def cancelled (answers : List (Answer ε)) : List Nat := answers.flatMap Answer.cancelled

@[simp] theorem issued_append (a b : List (Answer ε)) : issued (a ++ b) = issued a ++ issued b :=
  List.flatMap_append

@[simp] theorem resolved_append (a b : List (Answer ε)) :
    resolved (a ++ b) = resolved a ++ resolved b :=
  List.flatMap_append

@[simp] theorem cancelled_append (a b : List (Answer ε)) :
    cancelled (a ++ b) = cancelled a ++ cancelled b :=
  List.flatMap_append

@[simp] theorem issued_singleton (a : Answer ε) : issued [a] = a.issued := List.append_nil _

@[simp] theorem resolved_singleton (a : Answer ε) : resolved [a] = a.resolved := List.append_nil _

@[simp] theorem cancelled_singleton (a : Answer ε) : cancelled [a] = a.cancelled :=
  List.append_nil _

/-- A receive path and its answers so far. -/
structure Run (ε : Type) where
  receiver : Receiver ε
  answers : List (Answer ε) := []

namespace Run

/-- One more call. -/
def step (run : Run ε) (op : Operation) : Run ε :=
  ⟨(run.receiver.perform op).2, run.answers ++ [(run.receiver.perform op).1]⟩

/-- The calls in a row, on a fresh receive path. -/
def of (config : Config) (table : EventTable ε) (ops : List Operation) : Run ε :=
  ops.foldl step ⟨.new config table, []⟩

/-- How often a number is in flight, was resolved, and was given up. -/
def tally (run : Run ε) (n : Nat) : Nat × Nat × Nat :=
  (run.receiver.tracker.inFlight.count n, (resolved run.answers).count n,
    (cancelled run.answers).count n)

end Run

/-- What can have become of a request. -/
inductive Phase where
  | pending
  | resolved
  | cancelled
deriving DecidableEq, Repr

/-- In each phase a number occurs once in its place, and in neither of the others. -/
def Phase.tally : Phase → Nat × Nat × Nat
  | .pending => (1, 0, 0)
  | .resolved => (0, 1, 0)
  | .cancelled => (0, 0, 1)

/-- The number is in this phase. -/
def Run.InPhase (run : Run ε) (n : Nat) (phase : Phase) : Prop := run.tally n = phase.tally

/-! ## One call -/

/-- **What a call does to the tracker,** by its answer. -/
inductive Effect (separators : List Char) (t : Tracker) : Tracker → Answer ε → Prop where
  | begun (command : Text) (h : t.current = none) :
    Effect separators t
      { t with
        current := some ⟨t.next, Command.name separators command, {}, 0⟩
        next := t.next + 1 }
      (.begin command (.ok t.next))
  | refused (command : Text) (p : Pending) (h : t.current = some p) :
    Effect separators t t (.begin command (.error .busy))
  | gaveUp (p : Pending) (h : t.current = some p) :
    Effect separators t { t with current := none } (.cancel p.number true)
  | notFound (number : Nat) (h : t.current.map Pending.number ≠ some number) :
    Effect separators t t (.cancel number false)
  | fed (t' : Tracker) (outputs : List (Output ε)) (h : t.Follows t' (Output.resolutions outputs)) :
    Effect separators t t' (.feed outputs)
  | switched (outcome : Except Error Unit) : Effect separators t t (.setTerminators outcome)
  | noted : Effect separators t t .noteEventLost

theorem begin_of_none (r : Receiver ε) (command : Text) (h : r.tracker.current = none) :
    r.begin command = .ok (r.tracker.next, { r with tracker := { r.tracker with
      current := some ⟨r.tracker.next, Command.name r.vocabulary.separators command, {}, 0⟩
      next := r.tracker.next + 1 } }) := by
  simp [begin, Tracker.begin, Tracker.isPending, h, Except.map]

theorem begin_of_some (r : Receiver ε) (command : Text) (p : Pending)
    (h : r.tracker.current = some p) : r.begin command = .error .busy := by
  simp [begin, Tracker.begin, Tracker.isPending, h, Except.map]

theorem setTerminators_of_none (r : Receiver ε) (t : Terminators) (h : r.tracker.current = none) :
    r.setTerminators t
      = .ok { r with framer := r.framer.setTerminators t, capture := none } := by
  unfold setTerminators isPending Tracker.isPending
  rw [h]
  exact if_neg Bool.false_ne_true

theorem setTerminators_of_some (r : Receiver ε) (t : Terminators) (p : Pending)
    (h : r.tracker.current = some p) : r.setTerminators t = .error .busy := by
  unfold setTerminators isPending Tracker.isPending
  rw [h]
  exact if_pos rfl

/-- **One call** does nothing else to the tracker. -/
theorem perform_effect (r : Receiver ε) (op : Operation) :
    Effect r.vocabulary.separators r.tracker (r.perform op).2.tracker (r.perform op).1 := by
  cases op with
  | begin command =>
    cases h : r.tracker.current with
    | none =>
      simp only [perform, begin_of_none r command h]
      exact .begun command h
    | some p =>
      simp only [perform, begin_of_some r command p h]
      exact .refused command p h
  | cancel number =>
    simp only [perform, cancel, Tracker.cancel]
    by_cases h : r.tracker.current.map Pending.number = some number
    · rw [if_pos h]
      obtain ⟨p, hp, rfl⟩ := Option.map_eq_some_iff.mp h
      exact .gaveUp p hp
    · rw [if_neg h]
      exact .notFound number h
  | feed bytes => exact .fed _ _ (feed_follows r bytes)
  | setTerminators t =>
    cases h : r.tracker.current with
    | none =>
      simp only [perform, setTerminators_of_none r t h]
      exact .switched _
    | some p =>
      simp only [perform, setTerminators_of_some r t p h]
      exact .switched _
  | noteEventLost => exact .noted

/-- No call changes the vocabulary or the table. -/
theorem perform_fixed (r : Receiver ε) (op : Operation) :
    (r.perform op).2.vocabulary = r.vocabulary ∧ (r.perform op).2.table = r.table := by
  cases op with
  | begin command =>
    cases h : r.tracker.current with
    | none => simp only [perform, begin_of_none r command h, and_self]
    | some p => simp only [perform, begin_of_some r command p h, and_self]
  | cancel number => exact ⟨rfl, rfl⟩
  | feed bytes => exact feed_fixed r bytes
  | setTerminators t =>
    cases h : r.tracker.current with
    | none => simp only [perform, setTerminators_of_none r t h, and_self]
    | some p => simp only [perform, setTerminators_of_some r t p h, and_self]
  | noteEventLost => exact ⟨rfl, rfl⟩

/-- Only a call that begins a request hands out a number, and only one. -/
theorem length_perform_issued_le (r : Receiver ε) (op : Operation) :
    (r.perform op).1.issued.length ≤ [op].countP Operation.isBegin := by
  cases op with
  | begin command =>
    cases h : r.begin command with
    | error err => simp [perform, h, Answer.issued]
    | ok pair => simp [perform, h, Answer.issued, Operation.isBegin]
  | setTerminators t =>
    cases h : r.setTerminators t <;> simp [perform, h, Answer.issued]
  | _ => exact Nat.le_refl 0

/-! ## The invariant -/

/-- **The tracker and the answers agree.** Numbers are handed out in their order and each is
accounted for; the command in flight has the name of the request that was given its number. -/
structure Sound (separators : List Char) (t : Tracker) (answers : List (Answer ε)) : Prop where
  next_eq : t.next = (issued answers).length + 1
  issued_eq : issued answers = List.range' 1 (issued answers).length
  accounted (n : Nat) :
    t.inFlight.count n + (resolved answers).count n + (cancelled answers).count n
      = (issued answers).count n
  named (p : Pending) : t.current = some p →
    ∃ command, .begin command (.ok p.number) ∈ answers ∧ p.name = Command.name separators command

namespace Sound

variable {separators : List Char} {t t' : Tracker} {answers : List (Answer ε)}

/-- An answer that hands out no number only moves the command in flight to where the answer says
it went. -/
theorem settle (h : Sound separators t answers) (answer : Answer ε) (hissued : answer.issued = [])
    (hnext : t'.next = t.next)
    (hcount : ∀ n, t'.inFlight.count n + answer.resolved.count n + answer.cancelled.count n
      = t.inFlight.count n)
    (hkept : ∀ p', t'.current = some p' →
      ∃ p, t.current = some p ∧ p'.number = p.number ∧ p'.name = p.name) :
    Sound separators t' (answers ++ [answer]) where
  next_eq := by simp [hissued, hnext, h.next_eq]
  issued_eq := by simpa [hissued] using h.issued_eq
  accounted n := by
    have htally := h.accounted n
    have hmoved := hcount n
    simp only [issued_append, resolved_append, cancelled_append, issued_singleton,
      resolved_singleton, cancelled_singleton, hissued, List.append_nil, List.count_append]
    omega
  named p' hp' := by
    obtain ⟨p, hp, hnumber, hname⟩ := hkept p' hp'
    obtain ⟨command, hmem, hcommand⟩ := h.named p hp
    rw [hnumber, hname]
    exact ⟨command, List.mem_append_left _ hmem, hcommand⟩

/-- An answer without a number changes nothing. -/
theorem quiet (h : Sound separators t answers) (answer : Answer ε) (hissued : answer.issued = [])
    (hresolved : answer.resolved = []) (hcancelled : answer.cancelled = []) :
    Sound separators t (answers ++ [answer]) := by
  refine h.settle answer hissued rfl (fun n => ?_) fun p hp => ⟨p, hp, rfl, rfl⟩
  rw [hresolved, hcancelled]
  rfl

/-- A new number is the next one. -/
theorem issue (h : Sound separators t answers) (hidle : t.current = none) (command : Text) :
    Sound separators
      { t with
        current := some ⟨t.next, Command.name separators command, {}, 0⟩
        next := t.next + 1 }
      (answers ++ [.begin command (.ok t.next)]) where
  next_eq := by simp [Answer.issued, h.next_eq]
  issued_eq := by
    -- the numbers so far end right before the next one
    simp only [issued_append, issued_singleton, Answer.issued, List.length_append,
      List.length_singleton]
    rw [List.range'_1_concat, ← h.issued_eq, h.next_eq, Nat.add_comm]
  accounted n := by
    have htally := h.accounted n
    simp only [Tracker.inFlight, hidle] at htally
    simp only [issued_append, resolved_append, cancelled_append, issued_singleton,
      resolved_singleton, cancelled_singleton, Answer.issued, Answer.resolved, Answer.cancelled,
      List.append_nil, List.count_append, Tracker.inFlight]
    simp only [Option.map_none, Option.toList_none, List.count_nil] at htally
    simp only [Option.map_some, Option.toList_some]
    omega
  named p hp := by
    cases hp
    exact ⟨command, List.mem_append_right _ (List.mem_singleton_self _), rfl⟩

/-- **One more answer** keeps the invariant. -/
theorem effect (h : Sound separators t answers) {answer : Answer ε}
    (he : Effect separators t t' answer) : Sound separators t' (answers ++ [answer]) := by
  cases he with
  | begun command hidle => exact h.issue hidle command
  | gaveUp p hp =>
    -- the number moves from the slot to the answer
    refine h.settle _ rfl rfl (fun n => ?_) (fun p' hp' => nomatch hp')
    simp [Tracker.inFlight, hp, Answer.resolved, Answer.cancelled]
  | fed t' outputs hfollows =>
    refine h.settle _ rfl hfollows.next_eq (fun n => ?_) fun p' => hfollows.exists_before
    simpa [Answer.resolved, Answer.cancelled] using hfollows.count_eq n
  | refused command p hp => exact h.quiet _ rfl rfl rfl
  | notFound number hp => exact h.quiet _ rfl rfl rfl
  | switched outcome => exact h.quiet _ rfl rfl rfl
  | noted => exact h.quiet _ rfl rfl rfl

end Sound

/-! ## Runs -/

namespace Run

theorem of_append (config : Config) (table : EventTable ε) (ops more : List Operation) :
    of config table (ops ++ more) = more.foldl step (of config table ops) :=
  List.foldl_append

/-- The vocabulary and the table are those of the start. -/
theorem foldl_step_fixed (run : Run ε) (ops : List Operation) :
    (ops.foldl step run).receiver.vocabulary = run.receiver.vocabulary
      ∧ (ops.foldl step run).receiver.table = run.receiver.table := by
  induction ops generalizing run with
  | nil => exact ⟨rfl, rfl⟩
  | cons op ops ih =>
    obtain ⟨hv, ht⟩ := perform_fixed run.receiver op
    obtain ⟨hv', ht'⟩ := ih (run.step op)
    exact ⟨hv'.trans hv, ht'.trans ht⟩

/-- Answers are only added. -/
theorem exists_answers_append (run : Run ε) (ops : List Operation) :
    ∃ added, (ops.foldl step run).answers = run.answers ++ added
      ∧ (issued added).length ≤ ops.countP Operation.isBegin := by
  induction ops generalizing run with
  | nil => exact ⟨[], (List.append_nil _).symm, Nat.zero_le _⟩
  | cons op ops ih =>
    obtain ⟨added, hadded, hlength⟩ := ih (run.step op)
    refine ⟨(run.receiver.perform op).1 :: added, ?_, ?_⟩
    · rw [List.foldl_cons, hadded]
      exact List.append_assoc _ _ _
    · have hone := length_perform_issued_le run.receiver op
      rw [← List.singleton_append, issued_append, List.length_append, issued_singleton]
      rw [← List.singleton_append, List.countP_append]
      omega

/-- The invariant holds of the tracker and the answers of every run. -/
theorem foldl_step_sound (run : Run ε) (ops : List Operation)
    (h : Sound run.receiver.vocabulary.separators run.receiver.tracker run.answers) :
    Sound run.receiver.vocabulary.separators (ops.foldl step run).receiver.tracker
      (ops.foldl step run).answers := by
  induction ops generalizing run with
  | nil => exact h
  | cons op ops ih =>
    have heffect := perform_effect run.receiver op
    have hvocabulary := (perform_fixed run.receiver op).1
    have hstep := h.effect heffect
    rw [← hvocabulary] at hstep ⊢
    exact ih (run.step op) hstep

variable (config : Config) (table : EventTable ε) (ops : List Operation)

/-- **The invariant of runs.** -/
theorem sound : Sound config.vocabulary.separators (of config table ops).receiver.tracker
    (of config table ops).answers := by
  refine foldl_step_sound ⟨.new config table, []⟩ ops ?_
  exact ⟨rfl, rfl, fun _ => rfl, fun _ h => nomatch h⟩

/-- A number that was handed out is in one place. -/
theorem tally_sum {n : Nat} (hn : n ∈ issued (of config table ops).answers) :
    ((of config table ops).tally n).1 + ((of config table ops).tally n).2.1
      + ((of config table ops).tally n).2.2 = 1 := by
  have h := sound config table ops
  have hnodup : (issued (of config table ops).answers).Nodup := by
    rw [h.issued_eq]
    exact List.nodup_range'
  have hcount := hnodup.count (a := n)
  rw [if_pos hn] at hcount
  rw [← hcount]
  exact h.accounted n

theorem mem_issued_of_tally {n : Nat}
    (h : 0 < ((of config table ops).tally n).1 + ((of config table ops).tally n).2.1
      + ((of config table ops).tally n).2.2) : n ∈ issued (of config table ops).answers := by
  have haccounted := (sound config table ops).accounted n
  simp only [tally] at h
  rw [← List.count_pos_iff]
  omega

theorem exists_phase {n : Nat} (hn : n ∈ issued (of config table ops).answers) :
    ∃ phase, (of config table ops).InPhase n phase
      ∧ ∀ other, (of config table ops).InPhase n other → other = phase := by
  have hsum := tally_sum config table ops hn
  unfold InPhase
  -- three counts that sum up to one
  generalize (of config table ops).tally n = counts at hsum ⊢
  obtain ⟨a, b, c⟩ := counts
  have hcases : a = 1 ∧ b = 0 ∧ c = 0 ∨ a = 0 ∧ b = 1 ∧ c = 0 ∨ a = 0 ∧ b = 0 ∧ c = 1 := by
    simp only at hsum
    omega
  rcases hcases with ⟨rfl, rfl, rfl⟩ | ⟨rfl, rfl, rfl⟩ | ⟨rfl, rfl, rfl⟩
  · exact ⟨.pending, rfl, fun other h => by cases other <;> first | rfl | cases h⟩
  · exact ⟨.resolved, rfl, fun other h => by cases other <;> first | rfl | cases h⟩
  · exact ⟨.cancelled, rfl, fun other h => by cases other <;> first | rfl | cases h⟩

/-- What is over stays over: its answer stays, and there is no room for another one. -/
theorem inPhase_append (more : List Operation) {n : Nat} {phase : Phase} (hover : phase ≠ .pending)
    (h : (of config table ops).InPhase n phase) :
    (of config table (ops ++ more)).InPhase n phase := by
  obtain ⟨added, hadded, -⟩ := exists_answers_append (of config table ops) more
  rw [← of_append] at hadded
  have hn : n ∈ issued (of config table ops).answers := by
    apply mem_issued_of_tally
    rw [h]
    cases phase <;> decide
  have hsum : ((of config table (ops ++ more)).tally n).1
      + ((of config table (ops ++ more)).tally n).2.1
      + ((of config table (ops ++ more)).tally n).2.2 = 1 := by
    apply tally_sum
    rw [hadded, issued_append]
    exact List.mem_append_left _ hn
  unfold InPhase at h ⊢
  cases phase with
  | pending => exact absurd rfl hover
  | resolved =>
    simp only [tally, Phase.tally, Prod.mk.injEq, hadded, resolved_append, cancelled_append,
      List.count_append] at h hsum ⊢
    omega
  | cancelled =>
    simp only [tally, Phase.tally, Prod.mk.injEq, hadded, resolved_append, cancelled_append,
      List.count_append] at h hsum ⊢
    omega

/-- A pending number is the one in flight. -/
theorem exists_current_of_inPhase {run : Run ε} {n : Nat} (h : run.InPhase n .pending) :
    ∃ p, run.receiver.tracker.current = some p ∧ p.number = n := by
  have hcount : run.receiver.tracker.inFlight.count n = 1 := congrArg Prod.fst h
  have hmem : n ∈ run.receiver.tracker.inFlight := List.count_pos_iff.mp (by omega)
  unfold Tracker.inFlight at hmem
  rw [Option.mem_toList, Option.map_eq_some_iff] at hmem
  exact hmem

/-- The number in flight is pending, and was handed out. -/
theorem inPhase_of_current {p : Pending}
    (hp : (of config table ops).receiver.tracker.current = some p) :
    p.number ∈ issued (of config table ops).answers
      ∧ (of config table ops).InPhase p.number .pending := by
  have hone : ((of config table ops).tally p.number).1 = 1 := by
    simp [tally, Tracker.inFlight, hp]
  have hn : p.number ∈ issued (of config table ops).answers :=
    mem_issued_of_tally config table ops (by omega)
  refine ⟨hn, ?_⟩
  have hsum := tally_sum config table ops hn
  simp only [InPhase, Phase.tally, Prod.ext_iff]
  omega

theorem begin_eq_busy_iff (command : Text) :
    (of config table ops).receiver.begin command = .error .busy ↔
      ∃ n ∈ issued (of config table ops).answers, (of config table ops).InPhase n .pending := by
  constructor
  · intro h
    cases hp : (of config table ops).receiver.tracker.current with
    | none =>
      rw [begin_of_none _ _ hp] at h
      cases h
    | some p => exact ⟨p.number, inPhase_of_current config table ops hp⟩
  · rintro ⟨n, -, hn⟩
    obtain ⟨p, hp, -⟩ := exists_current_of_inPhase hn
    exact begin_of_some _ command p hp

/-- **The life of a request.** In every run from a fresh receive path:

* the numbers handed out go up, and stay below the number of calls that begin a request;
* each of them is in one phase, pending, resolved or cancelled, and the last two are final;
* at most one is pending, which is exactly when a request is refused as busy, and then nothing
  changes;
* a resolution belongs to the request in flight when its line is dealt with: it has its number, the
  name of its command, and a terminal status. -/
theorem request_lifecycle :
    let run := of config table ops
    (issued run.answers).Pairwise (· < ·)
    ∧ (∀ n ∈ issued run.answers, n ≤ ops.countP Operation.isBegin)
    ∧ (∀ n ∈ issued run.answers,
        ∃ phase, run.InPhase n phase ∧ ∀ other, run.InPhase n other → other = phase)
    ∧ (∀ n phase more, phase ≠ .pending → run.InPhase n phase →
        (of config table (ops ++ more)).InPhase n phase)
    ∧ (∀ m n, run.InPhase m .pending → run.InPhase n .pending → m = n)
    ∧ (∀ command,
        (run.receiver.begin command = .error .busy ↔
          ∃ n ∈ issued run.answers, run.InPhase n .pending)
        ∧ ∀ err, run.receiver.begin command = .error err →
          err = .busy ∧ (run.step (.begin command)).receiver = run.receiver)
    ∧ (∀ bytes res, .resolved res ∈ (run.receiver.feed bytes).2 →
        ∃ before b after raw p command, bytes = before ++ b :: after
          ∧ ((run.receiver.feed before).1.framer.push b).2 = some (.line raw)
          ∧ (run.receiver.feed before).1.tracker.current = some p
          ∧ res.number = p.number ∧ res.name = p.name
          ∧ .begin command (.ok p.number) ∈ run.answers
          ∧ p.name = Command.name config.vocabulary.separators command
          ∧ res.status.isTerminal = true) := by
  intro run
  have hsound := sound config table ops
  refine ⟨?_, ?_, fun n hn => exists_phase config table ops hn,
    fun n phase more hover h => inPhase_append config table ops more hover h, ?_, ?_, ?_⟩
  · rw [hsound.issued_eq]
    exact List.pairwise_lt_range'
  · intro n hn
    -- numbers are counted from one, so the last one is how many there are
    obtain ⟨added, hadded, hlength⟩ := exists_answers_append (⟨.new config table, []⟩ : Run ε) ops
    have hissued : issued (of config table ops).answers = issued added := congrArg issued hadded
    rw [hsound.issued_eq, List.mem_range'_1, hissued] at hn
    omega
  · intro m n hm hn
    obtain ⟨p, hp, rfl⟩ := exists_current_of_inPhase hm
    obtain ⟨q, hq, rfl⟩ := exists_current_of_inPhase hn
    cases hp.symm.trans hq
    rfl
  · intro command
    refine ⟨begin_eq_busy_iff config table ops command, fun err h => ?_⟩
    cases hp : run.receiver.tracker.current with
    | none =>
      rw [begin_of_none _ command hp] at h
      cases h
    | some p =>
      rw [begin_of_some _ command p hp] at h
      cases h
      refine ⟨rfl, ?_⟩
      show (run.receiver.perform (.begin command)).2 = run.receiver
      simp only [perform, begin_of_some _ command p hp]
  · intro bytes res hres
    obtain ⟨before, b, after, hbytes, hpush⟩ := exists_push_of_mem_feed _ hres
    obtain ⟨raw, p, hline, hp, hresolve, hterminal⟩ := push_resolved hpush
    -- the command in flight is the one that was so before the bytes
    obtain ⟨q, hq, hnumber, hname⟩ := (feed_follows run.receiver before).exists_before hp
    obtain ⟨command, hmem, hcommand⟩ := hsound.named q hq
    refine ⟨before, b, after, raw, p, command, hbytes, hline, hp, ?_, ?_, ?_, ?_, hterminal⟩
    · rw [hresolve]
      rfl
    · rw [hresolve]
      rfl
    · rw [hnumber]
      exact hmem
    · rw [hname]
      exact hcommand

end Run

end ModemLink.Receiver
