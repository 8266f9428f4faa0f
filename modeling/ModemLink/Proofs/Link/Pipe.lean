/-
A scripted link is a pipe.

What is done to a link is a series of acts, in any order: the script is extended, bytes arrive, the limit of a read
changes, the link goes up and down, commands are sent, and readers look for bytes. A read that waits looks when it
is called, and again whenever it is woken, until it has found something or its time is over; other acts come
between its looks.

The state of the link can be told from its past. Each act keeps this up with a few equations that speak about
the link just before and after it: no byte is lost, repeated or moved, neither between what arrived and what was
read nor in the script.
-/
import Mathlib
import ModemLink.Bench

set_option autoImplicit false

namespace ModemLink

namespace Link

/-! ## Acts -/

/-- What is done to a link. -/
inductive Act where
  | expect (request response : Bytes)
  | inject (bytes : Bytes)
  | setChunk (n : Nat)
  | setConnected (up : Bool)
  | send (now : Nat) (bytes : Bytes)
  /-- a reader looks for bytes -/
  | look (room : Nat)

/-- What comes back. -/
inductive Answer where
  | done
  | sent (outcome : Except Error Unit)
  | looked (found : Option (Except Error Bytes))

/-- An act on a link. -/
def perform : Act → Link → Answer × Link
  | .expect request response, l => (.done, l.expect request response)
  | .inject bytes, l => (.done, l.inject bytes)
  | .setChunk n, l => (.done, l.setChunk n)
  | .setConnected up, l => (.done, l.setConnected up)
  | .send now bytes, l => (.sent (l.send now bytes).1, (l.send now bytes).2)
  | .look room, l => (.looked (l.receive room).1, (l.receive room).2)

/-- An act, with what came back, and the link before and after it. -/
structure Step where
  act : Act
  before : Link
  answer : Answer
  after : Link

/-- The step of an act. -/
def step (l : Link) (act : Act) : Step := ⟨act, l, (perform act l).1, (perform act l).2⟩

/-- One act after the other. -/
def run (l : Link) : List Act → List Step × Link
  | [] => ([], l)
  | act :: acts => (l.step act :: (run (l.step act).after acts).1, (run (l.step act).after acts).2)

/-! ## The past -/

/-- The response to a command that takes a pair off the script: that of the pair, if the command is its request. -/
def response (bytes : Bytes) : Option Exchange → Bytes
  | some e => if bytes = e.request then e.response else []
  | none => []

namespace Step

/-- The pair that an act adds to the script. -/
def expected? (s : Step) : Option Exchange :=
  match s.act with
  | .expect request response => some ⟨request, response⟩
  | _ => none

/-- The limit that an act sets for a read. -/
def limit? (s : Step) : Option Nat :=
  match s.act with
  | .setChunk n => some (max n 1)
  | _ => none

/-- Whether an act takes the link up or down. -/
def switch? (s : Step) : Option Bool :=
  match s.act with
  | .setConnected up => some up
  | _ => none

/-- The pair that a command takes off the script. -/
def pair? (s : Step) : Option Exchange :=
  match s.act with
  | .send _ _ => if s.before.connected then s.before.script.head? else none
  | _ => none

/-- The record of a command that the link takes. -/
def logged? (s : Step) : Option Sent :=
  match s.act with
  | .send now bytes => if s.before.connected then some ⟨bytes, now⟩ else none
  | _ => none

/-- What a look finds. -/
def found? (s : Step) : Option (Except Error Bytes) :=
  match s.answer with
  | .looked found => found
  | _ => none

/-- The bytes that arrive with an act, unprompted or in response to a command. -/
def arrived (s : Step) : Bytes :=
  match s.act with
  | .inject bytes => bytes
  | .send _ bytes => response bytes s.pair?
  | _ => []

/-- The bytes that a reader gets. -/
def received (s : Step) : Bytes :=
  match s.found? with
  | some (.ok bytes) => bytes
  | _ => []

end Step

/-- Whether the link is up after these steps. -/
def upAfter (past : List Step) : Bool := (past.filterMap Step.switch?).getLast?.getD true

/-- The most that one read yields after these steps. -/
def limitAfter? (past : List Step) : Option Nat := (past.filterMap Step.limit?).getLast?

/-- The pairs that were added to the script, and not used up since. -/
def unusedAfter (past : List Step) : List Exchange :=
  (past.filterMap Step.expected?).drop (past.filterMap Step.pair?).length

/-- **The past tells the link.** -/
structure Follows (past : List Step) (l : Link) : Prop where
  connected_eq : l.connected = upAfter past
  chunk_eq : l.chunk = limitAfter? past
  script_eq : past.filterMap Step.pair? ++ l.script = past.filterMap Step.expected?
  inbound_eq : past.flatMap Step.received ++ l.inbound = past.flatMap Step.arrived
  sent_eq : l.sent = past.filterMap Step.logged?

theorem follows_nil : Follows [] {} := ⟨rfl, rfl, rfl, rfl, rfl⟩

theorem Follows.unusedAfter_eq {past : List Step} {l : Link} (h : Follows past l) :
    unusedAfter past = l.script := by
  rw [unusedAfter, ← h.script_eq, List.drop_left]

/-! ## One act -/

/-- **What one act does to a link.** Whatever comes in goes behind what is there, and whatever goes out comes from
the front. -/
structure Step.Balanced (s : Step) : Prop where
  connected_eq : s.after.connected = s.switch?.getD s.before.connected
  chunk_eq : s.after.chunk = s.limit?.or s.before.chunk
  script_eq : s.pair?.toList ++ s.after.script = s.before.script ++ s.expected?.toList
  inbound_eq : s.received ++ s.after.inbound = s.before.inbound ++ s.arrived
  sent_eq : s.after.sent = s.before.sent ++ s.logged?.toList

/-! ### Commands -/

section Send

variable {l : Link} {now : Nat} {bytes : Bytes}

theorem send_of_down (hdown : l.connected = false) :
    l.send now bytes = (.error .notConnected, l) := by
  unfold send
  rw [hdown]
  rfl

/-- A command that the link takes is recorded, and takes the oldest pair off the script. -/
theorem send_of_up (hup : l.connected = true) :
    (l.send now bytes).2 = { l with
      script := l.script.tail
      inbound := l.inbound ++ response bytes l.script.head?
      sent := l.sent ++ [⟨bytes, now⟩] } := by
  unfold send
  rcases hscript : l.script with - | ⟨e, script⟩
  · simp [hup, response]
  · by_cases hrequest : bytes = e.request
    · simp [hup, response, hrequest]
    · simp [hup, response, hrequest]

theorem send_of_ne_request (hup : l.connected = true) {e : Exchange} (he : l.script.head? = some e)
    (hrequest : bytes ≠ e.request) :
    (l.send now bytes).1 = .error (unexpected e.request bytes) := by
  obtain ⟨script, hscript⟩ := List.head?_eq_some_iff.mp he
  unfold send
  simp [hup, hscript, hrequest]

theorem send_of_eq_request (hup : l.connected = true)
    (hrequest : ∀ e, l.script.head? = some e → bytes = e.request) :
    (l.send now bytes).1 = .ok () := by
  unfold send
  rcases hscript : l.script with - | ⟨e, script⟩
  · simp [hup]
  · rw [hscript] at hrequest
    simp [hup, hrequest e rfl]

end Send

theorem step_send_balanced (l : Link) (now : Nat) (bytes : Bytes) :
    (l.step (.send now bytes)).Balanced := by
  -- a link that is down is left alone, and then no pair and no record is told of the step either
  by_cases hup : l.connected = true
  · have hpair : (l.step (.send now bytes)).pair? = l.script.head? := if_pos hup
    have hlogged : (l.step (.send now bytes)).logged? = some ⟨bytes, now⟩ := if_pos hup
    have hafter : (l.send now bytes).2 = _ := send_of_up hup
    constructor
    · show (l.send now bytes).2.connected = l.connected
      rw [hafter]
    · show (l.send now bytes).2.chunk = l.chunk
      rw [hafter]
    · show _ ++ (l.send now bytes).2.script = l.script ++ []
      rw [hpair, hafter, List.append_nil]
      cases l.script <;> rfl
    · show (l.send now bytes).2.inbound = l.inbound ++ response bytes (l.step (.send now bytes)).pair?
      rw [hpair, hafter]
    · show (l.send now bytes).2.sent = l.sent ++ _
      rw [hlogged, hafter]
      rfl
  · have hdown := Bool.eq_false_iff.mpr hup
    have hpair : (l.step (.send now bytes)).pair? = none := if_neg hup
    have hlogged : (l.step (.send now bytes)).logged? = none := if_neg hup
    have hafter : (l.step (.send now bytes)).after = l := congrArg Prod.snd (send_of_down hdown)
    constructor
    · rw [hafter]
      rfl
    · rw [hafter]
      rfl
    · rw [hpair, hafter]
      exact (List.append_nil _).symm
    · show _ ++ _ = l.inbound ++ response bytes (l.step (.send now bytes)).pair?
      rw [hpair, hafter]
      exact (List.append_nil _).symm
    · rw [hlogged, hafter]
      exact (List.append_nil _).symm

/-! ### Looks -/

/-- **What a look finds:** that the link is down, or nothing, or bytes from the front of those that have arrived. -/
inductive Finds (l : Link) (room : Nat) : Option (Except Error Bytes) → Link → Prop where
  | down (hdown : l.connected = false) : Finds l room (some (.error .notConnected)) l
  | nothing (hup : l.connected = true) (hempty : l.inbound = []) : Finds l room none l
  | bytes (hup : l.connected = true) (hsome : l.inbound ≠ []) :
    Finds l room (some (.ok (l.inbound.take (l.readable room))))
      { l with inbound := l.inbound.drop (l.readable room) }

theorem receive_of_down {l : Link} {room : Nat} (hdown : l.connected = false) :
    l.receive room = (some (.error .notConnected), l) := by
  unfold receive
  simp [hdown]

theorem finds_receive (l : Link) (room : Nat) :
    l.Finds room (l.receive room).1 (l.receive room).2 := by
  by_cases hup : l.connected = true
  · by_cases hempty : l.inbound = []
    · have hreceive : l.receive room = (none, l) := by
        unfold receive
        simp [hup, hempty]
      rw [hreceive]
      exact .nothing hup hempty
    · have hreceive : l.receive room = (some (.ok (l.inbound.take (l.readable room))),
          { l with inbound := l.inbound.drop (l.readable room) }) := by
        unfold receive
        simp [hup, hempty]
      rw [hreceive]
      exact .bytes hup hempty
  · have hdown : l.connected = false := Bool.eq_false_iff.mpr hup
    rw [receive_of_down hdown]
    exact .down hdown

/-- A look that finds nothing leaves the link as it is. -/
theorem receive_of_none {l : Link} {room : Nat} (h : (l.receive room).1 = none) :
    (l.receive room).2 = l := by
  have hfinds := l.finds_receive room
  generalize (l.receive room).2 = after at hfinds ⊢
  rw [h] at hfinds
  cases hfinds with
  | nothing => rfl

/-- **Every act** keeps the balance. -/
theorem step_balanced (l : Link) (act : Act) : (l.step act).Balanced := by
  have hsame {α : Type} (xs : List α) : xs = xs ++ [] := (List.append_nil xs).symm
  cases act with
  | expect request response => exact ⟨rfl, rfl, rfl, hsame _, hsame _⟩
  | inject bytes => exact ⟨rfl, rfl, hsame _, rfl, hsame _⟩
  | setChunk n => exact ⟨rfl, rfl, hsame _, hsame _, hsame _⟩
  | setConnected up => exact ⟨rfl, rfl, hsame _, hsame _, hsame _⟩
  | send now bytes => exact l.step_send_balanced now bytes
  | look room =>
    have hbalanced {found : Option (Except Error Bytes)} {after : Link}
        (hfinds : l.Finds room found after) :
        Step.Balanced ⟨.look room, l, .looked found, after⟩ := by
      cases hfinds with
      | down | nothing => exact ⟨rfl, rfl, hsame _, hsame _, hsame _⟩
      | bytes =>
        have htaken := List.take_append_drop (l.readable room) l.inbound
        exact ⟨rfl, rfl, hsame _, htaken.trans (hsame _), hsame _⟩
    exact hbalanced (l.finds_receive room)

/-! ## Many acts -/

section Past

variable {β : Type} (f : Step → Option β) (past : List Step) (s : Step)

theorem filterMap_concat : (past ++ [s]).filterMap f = past.filterMap f ++ (f s).toList := by
  rw [List.filterMap_append]
  cases hs : f s <;> simp [hs]

theorem getLast?_filterMap_concat :
    ((past ++ [s]).filterMap f).getLast? = (f s).or (past.filterMap f).getLast? := by
  rw [filterMap_concat, List.getLast?_append]
  cases f s <;> rfl

end Past

variable {past : List Step}

/-- **A further step:** the past tells the link after it, if it told the link before. -/
theorem Follows.concat {s : Step} (h : Follows past s.before) (hs : s.Balanced) :
    Follows (past ++ [s]) s.after where
  connected_eq := by
    rw [upAfter, getLast?_filterMap_concat, hs.connected_eq, h.connected_eq, upAfter]
    cases s.switch? <;> rfl
  chunk_eq := by rw [limitAfter?, getLast?_filterMap_concat, hs.chunk_eq, h.chunk_eq, limitAfter?]
  script_eq := by
    rw [filterMap_concat, filterMap_concat, ← h.script_eq, List.append_assoc, hs.script_eq,
      List.append_assoc]
  inbound_eq := by
    rw [List.flatMap_append, List.flatMap_append, ← h.inbound_eq, List.flatMap_singleton,
      List.flatMap_singleton, List.append_assoc, hs.inbound_eq, List.append_assoc]
  sent_eq := by rw [filterMap_concat, hs.sent_eq, h.sent_eq]

/-- **A run:** its past tells the link at the end, and before each of its steps. -/
theorem Follows.run {l : Link} (h : Follows past l) (acts : List Act) :
    Follows (past ++ (l.run acts).1) (l.run acts).2
      ∧ ∀ earlier s later, (l.run acts).1 = earlier ++ s :: later →
        Follows (past ++ earlier) s.before ∧ s = s.before.step s.act := by
  induction acts generalizing past l with
  | nil =>
    rw [run, List.append_nil]
    refine ⟨h, fun earlier s later hsplit => ?_⟩
    exact absurd hsplit (List.append_ne_nil_of_right_ne_nil earlier (List.cons_ne_nil s later)).symm
  | cons act acts ih =>
    obtain ⟨hend, hbetween⟩ := ih (h.concat (l.step_balanced act))
    rw [List.append_assoc] at hend
    refine ⟨hend, fun earlier s later hsplit => ?_⟩
    cases earlier with
    | nil =>
      obtain ⟨rfl, -⟩ := List.cons.inj hsplit
      rw [List.append_nil]
      exact ⟨h, rfl⟩
    | cons first earlier =>
      obtain ⟨rfl, hlater⟩ := List.cons.inj hsplit
      have hhere := hbetween earlier s later hlater
      rw [List.append_assoc] at hhere
      exact hhere

/-! ## What each act does -/

/-- **What a step does,** given what was done before. -/
structure Step.Faithful (past : List Step) (s : Step) : Prop where
  /-- a reader with room for a byte gets one at least, and no more than the room and the limit allow -/
  read (room : Nat) (bytes : Bytes) (hact : s.act = .look room) (hroom : 0 < room)
    (hfound : s.found? = some (.ok bytes)) :
    1 ≤ bytes.length ∧ bytes.length ≤ room ∧ ∀ n, limitAfter? past = some n → bytes.length ≤ n
  /-- while the link is up a command is recorded, and uses up the oldest pair that is left -/
  taken (now : Nat) (bytes : Bytes) (hact : s.act = .send now bytes) (hup : upAfter past = true) :
    s.after.sent = s.before.sent ++ [⟨bytes, now⟩] ∧ s.pair? = (unusedAfter past).head?
      ∧ s.after.script = (unusedAfter past).tail
  /-- sending fails if the command is not the request of this pair, and no response arrives -/
  refused (now : Nat) (bytes : Bytes) (hact : s.act = .send now bytes) (hup : upAfter past = true)
    (e : Exchange) (he : s.pair? = some e) (hrequest : bytes ≠ e.request) :
    (∃ text, s.answer = .sent (.error (.protocol text))) ∧ s.after.inbound = s.before.inbound
  /-- otherwise it succeeds, and the response of the pair arrives -/
  accepted (now : Nat) (bytes : Bytes) (hact : s.act = .send now bytes) (hup : upAfter past = true)
    (hrequest : ∀ e, s.pair? = some e → bytes = e.request) :
    s.answer = .sent (.ok ())
      ∧ s.after.inbound = s.before.inbound ++ (s.pair?.elim [] Exchange.response)
  /-- while the link is down nothing is sent -/
  send_down (now : Nat) (bytes : Bytes) (hact : s.act = .send now bytes) (hdown : upAfter past = false) :
    s.answer = .sent (.error .notConnected) ∧ s.after = s.before
  /-- and nothing is read -/
  look_down (room : Nat) (hact : s.act = .look room) (hdown : upAfter past = false) :
    s.answer = .looked (some (.error .notConnected)) ∧ s.after = s.before

theorem one_le_of_limitAfter? {n : Nat} (h : limitAfter? past = some n) : 1 ≤ n := by
  obtain ⟨s, -, hs⟩ := List.mem_filterMap.mp (List.mem_of_getLast? h)
  unfold Step.limit? at hs
  split at hs
  · cases hs
    exact Nat.le_max_right _ _
  · cases hs

/-- How much one look yields. -/
theorem length_of_finds {l after : Link} {room : Nat} {bytes : Bytes}
    (h : l.Finds room (some (.ok bytes)) after) :
    bytes.length = min (min l.inbound.length room) (l.chunk.getD l.inbound.length)
      ∧ 1 ≤ l.inbound.length := by
  cases h with
  | bytes hup hsome =>
    refine ⟨?_, List.length_pos_iff.mpr hsome⟩
    rw [List.length_take, readable]
    omega

theorem Follows.faithful {l : Link} (h : Follows past l) (act : Act) :
    (l.step act).Faithful past where
  read room bytes hact hroom hfound := by
    cases hact
    have hfinds := l.finds_receive room
    change (l.receive room).1 = some (.ok bytes) at hfound
    rw [hfound] at hfinds
    obtain ⟨hlength, hsome⟩ := length_of_finds hfinds
    rw [h.chunk_eq] at hlength
    -- the limit is never zero, whatever was asked for
    cases hlimit : limitAfter? past with
    | none =>
      rw [hlimit, Option.getD_none] at hlength
      exact ⟨by omega, by omega, fun n hn => by cases hn⟩
    | some n =>
      have hn := one_le_of_limitAfter? hlimit
      rw [hlimit, Option.getD_some] at hlength
      refine ⟨by omega, by omega, ?_⟩
      rintro _ ⟨⟩
      omega
  taken now bytes hact hup := by
    cases hact
    rw [← h.connected_eq] at hup
    have hafter : (l.send now bytes).2 = _ := send_of_up hup
    rw [h.unusedAfter_eq]
    exact ⟨congrArg sent hafter, if_pos hup, congrArg script hafter⟩
  refused now bytes hact hup e he hrequest := by
    cases hact
    rw [← h.connected_eq] at hup
    change (if l.connected then l.script.head? else none) = some e at he
    rw [if_pos hup] at he
    refine ⟨⟨_, congrArg Answer.sent (send_of_ne_request hup he hrequest)⟩, ?_⟩
    show (l.send now bytes).2.inbound = l.inbound
    rw [send_of_up hup, he, response, if_neg hrequest]
    exact List.append_nil _
  accepted now bytes hact hup hrequest := by
    cases hact
    rw [← h.connected_eq] at hup
    have hpair : (l.step (.send now bytes)).pair? = l.script.head? := if_pos hup
    rw [hpair] at hrequest ⊢
    refine ⟨congrArg Answer.sent (send_of_eq_request hup hrequest), ?_⟩
    show (l.send now bytes).2.inbound = l.inbound ++ _
    rw [send_of_up hup]
    cases he : l.script.head? with
    | none => rfl
    | some e => simp only [response, if_pos (hrequest e he), Option.elim_some]
  send_down now bytes hact hdown := by
    cases hact
    rw [← h.connected_eq] at hdown
    have hsend : l.send now bytes = (.error .notConnected, l) := send_of_down hdown
    exact ⟨congrArg Answer.sent (congrArg Prod.fst hsend), congrArg Prod.snd hsend⟩
  look_down room hact hdown := by
    cases hact
    rw [← h.connected_eq] at hdown
    have hlook : l.receive room = (some (.error .notConnected), l) := receive_of_down hdown
    exact ⟨congrArg Answer.looked (congrArg Prod.fst hlook), congrArg Prod.snd hlook⟩

/-! ## Reads that wait -/

/-- **A reader waits** through these acts: none of its looks before the last act finds anything, and if that does
not either, the time is over. -/
def Waits (l : Link) (acts : List Act) (outcome : Except Error Bytes) (l' : Link) : Prop :=
  ∃ steps, l.run acts = (steps, l') ∧ (∀ s ∈ steps.dropLast, s.found? = none)
    ∧ outcome = (steps.getLast?.bind Step.found?).getD (.error .timeout)

namespace Waits

variable {l l' : Link} {acts : List Act} {outcome : Except Error Bytes} {room : Nat}

theorem ended (l : Link) : Waits l [] (.error .timeout) l :=
  ⟨[], rfl, fun _ hs => absurd hs List.not_mem_nil, rfl⟩

theorem found (hlook : l.receive room = (some outcome, l')) : Waits l [.look room] outcome l' := by
  have hfound : (l.step (.look room)).found? = some outcome := congrArg Prod.fst hlook
  have hafter : (l.step (.look room)).after = l' := congrArg Prod.snd hlook
  refine ⟨[l.step (.look room)], ?_, fun _ hs => absurd hs List.not_mem_nil, ?_⟩
  · rw [run, hafter, run]
  · rw [List.getLast?_singleton, Option.bind_some, hfound, Option.getD_some]

/-- The wait goes on after an act that finds nothing. -/
theorem cons {act : Act} (hsilent : (l.step act).found? = none)
    (hmore : Waits (l.step act).after acts outcome l') : Waits l (act :: acts) outcome l' := by
  obtain ⟨steps, hrun, hnothing, houtcome⟩ := hmore
  refine ⟨l.step act :: steps, ?_, ?_, ?_⟩
  · rw [run, hrun]
  · intro s hs
    cases steps with
    | nil => cases hs
    | cons next later =>
      rw [List.dropLast_cons_cons] at hs
      rcases List.mem_cons.mp hs with rfl | hs
      · exact hsilent
      · exact hnothing s hs
  · rw [houtcome, List.getLast?_cons]
    cases steps.getLast? with
    | none => rw [Option.getD_none, Option.bind_some, hsilent, Option.bind_none]
    | some s => rw [Option.getD_some]

theorem nothing (hlook : (l.receive room).1 = none) (hmore : Waits l acts outcome l') :
    Waits l (.look room :: acts) outcome l' := by
  have hsilent : (l.step (.look room)).found? = none := hlook
  have hsame : (l.step (.look room)).after = l := receive_of_none hlook
  apply cons hsilent
  rw [hsame]
  exact hmore

theorem arrival (bytes : Bytes) (hmore : Waits (l.inject bytes) acts outcome l') :
    Waits l (.inject bytes :: acts) outcome l' := cons rfl hmore

end Waits

/-- A reader that waits looks again whenever bytes have arrived. -/
def Act.waking (room : Nat) (arrivals : List Moment) : List Act :=
  arrivals.flatMap fun m => [.inject m.bytes, .look room]

/-- **A wait on the clock.** Whatever arrives while it lasts is taken off the schedule. -/
theorem waits_awaitRead (room deadline : Nat) (b : Bench) :
    ∃ n, Waits b.link (Act.waking room (b.ahead.take n))
        (Bench.awaitRead room deadline b.ahead b).1 (Bench.awaitRead room deadline b.ahead b).2.link
      ∧ (Bench.awaitRead room deadline b.ahead b).2.ahead = b.ahead.drop n := by
  generalize hahead : b.ahead = ahead
  induction ahead generalizing b with
  | nil => exact ⟨0, .ended b.link, hahead⟩
  | cons m rest ih =>
    unfold Bench.awaitRead
    by_cases hdue : m.time ≤ deadline
    · rw [if_pos hdue]
      simp only
      -- either the look behind the arrival is the last one, or the wait goes on as if it began there
      rcases hlook : (b.link.inject m.bytes).receive room with ⟨- | outcome, link⟩
      · obtain ⟨n, hmore, hrest⟩ := ih ⟨max b.now m.time, rest, b.link.inject m.bytes⟩ rfl
        exact ⟨n + 1, .arrival m.bytes (.nothing (congrArg Prod.fst hlook) hmore), hrest⟩
      · exact ⟨1, .arrival m.bytes (.found hlook), rfl⟩
    · rw [if_neg hdue]
      exact ⟨0, .ended b.link, hahead⟩

/-- **A read on the clock** looks at once, and waits if there is nothing yet. -/
theorem waits_receive (room timeout : Nat) (b : Bench) :
    ∃ n, Waits b.link (.look room :: Act.waking room (b.ahead.take n)) (b.receive room timeout).1
        (b.receive room timeout).2.link
      ∧ (b.receive room timeout).2.ahead = b.ahead.drop n := by
  unfold Bench.receive
  rcases hlook : b.link.receive room with ⟨- | outcome, link⟩
  · obtain ⟨n, hmore, hrest⟩ := waits_awaitRead room (b.now + timeout) b
    exact ⟨n, .nothing (congrArg Prod.fst hlook) hmore, hrest⟩
  · exact ⟨0, .found hlook, rfl⟩

/-! ## The pipe -/

/-- **A scripted link is a faithful pipe,** whatever is done to it and in whatever order. The bytes that were read,
followed by those that were not read yet, are those that arrived; the commands that the link took are on record;
each step does what it should, given the steps before it; and a read on the clock, however long it may wait, is
a series of looks between arrivals. -/
theorem faithful_pipe (acts : List Act) :
    ((run {} acts).1.flatMap Step.received ++ (run {} acts).2.inbound
        = (run {} acts).1.flatMap Step.arrived)
      ∧ (run {} acts).2.sent = (run {} acts).1.filterMap Step.logged?
      ∧ (run {} acts).2.script = unusedAfter (run {} acts).1
      ∧ (∀ past s later, (run {} acts).1 = past ++ s :: later →
          s.before.connected = upAfter past ∧ s.Faithful past)
      ∧ ∀ (b : Bench) (room timeout : Nat),
          ∃ n, Waits b.link (.look room :: Act.waking room (b.ahead.take n)) (b.receive room timeout).1
              (b.receive room timeout).2.link
            ∧ (b.receive room timeout).2.ahead = b.ahead.drop n := by
  obtain ⟨hend, hbetween⟩ := follows_nil.run acts
  refine ⟨hend.inbound_eq, hend.sent_eq, hend.unusedAfter_eq.symm, ?_, fun b room timeout =>
    waits_receive room timeout b⟩
  intro past s later hsplit
  obtain ⟨hfollows, hs⟩ := hbetween past s later hsplit
  rw [hs]
  exact ⟨hfollows.connected_eq, hfollows.faithful s.act⟩

/-- Unprompted bytes and a response are read in the order in which they came, two bytes at a time; the second pair
is used up by a command that is not its request, and the third one waits until the link is up again. -/
example :
    let acts : List Act := [.setChunk 2, .inject [1, 2, 3], .expect [65] [4], .expect [66] [5],
      .send 0 [65], .look 8, .send 1 [67], .expect [68] [6], .setConnected false, .send 2 [68], .look 8,
      .setConnected true, .send 3 [68], .look 8]
    (run {} acts).1.flatMap Step.received = [1, 2, 3, 4] ∧ (run {} acts).2.inbound = [6]
      ∧ (run {} acts).2.sent = [⟨[65], 0⟩, ⟨[67], 1⟩, ⟨[68], 3⟩] := by
  decide

end Link

end ModemLink
