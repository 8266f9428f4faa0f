/-
A reply, and what comes in between.

While a command is in flight its reply comes line by line, and the module goes on announcing events
that nobody asked for, some of them with lines of their own. Both travel over one line, but they
meet nowhere: a reply changes the command in flight and nothing that an event looks at, and an event
with all of its lines changes nothing but the counters.

So the reply and the events can be mixed in any way that does not tear an event from its lines. The
resolution is that of the reply alone, and the announcements are those of the events alone.
-/
import ModemLink.Proofs.Line
import ModemLink.Proofs.Receiver.Continued

set_option autoImplicit false

namespace ModemLink

/-! ## Events among outputs -/

/-- The event that an output is, if it is one. -/
def Output.event? {ε : Type} : Output ε → Option (Notification ε)
  | .event n => some n
  | .resolved _ => none

/-- The events among some outputs. -/
def Output.events {ε : Type} (outs : List (Output ε)) : List (Notification ε) :=
  outs.filterMap Output.event?

@[simp] theorem Output.events_append {ε : Type} (a b : List (Output ε)) :
    events (a ++ b) = events a ++ events b :=
  List.filterMap_append

theorem Output.events_map_event {ε : Type} (ns : List (Notification ε)) :
    events (ns.map .event) = ns := by
  rw [events, List.filterMap_map]
  exact List.filterMap_some

theorem Output.resolutions_map_event {ε : Type} (ns : List (Notification ε)) :
    resolutions (ns.map .event) = [] := by
  rw [resolutions, List.filterMap_eq_nil_iff]
  intro out hout
  obtain ⟨n, -, rfl⟩ := List.mem_map.mp hout
  rfl

/-! ## Mixing -/

/-- **Mixed.** The third list is made of the other two, each of which keeps its order. -/
inductive Mixed {α : Type} : List α → List α → List α → Prop where
  | nil : Mixed [] [] []
  | left (a : α) {as bs cs : List α} (h : Mixed as bs cs) : Mixed (a :: as) bs (a :: cs)
  | right (b : α) {as bs cs : List α} (h : Mixed as bs cs) : Mixed as (b :: bs) (b :: cs)

/-! ## Blocks -/

theorem eq_ok_of_toOption {α : Type} {x : Except Error α} {a : α} (h : x.toOption = some a) :
    x = .ok a := by
  cases x with
  | ok b =>
    cases h
    rfl
  | error err => cases h

theorem exists_error_of_toOption {α : Type} {x : Except Error α} (h : x.toOption = none) :
    ∃ err, x = .error err := by
  cases x with
  | ok b => cases h
  | error err => exact ⟨err, rfl⟩

/-- What the table knows a line as. -/
def EventTable.lookup? {ε : Type} (t : EventTable ε) : Line → Option (EventMatch ε)
  | .event text => (t.resolve text).toOption
  | .plain text => (t.resolveBare text).toOption
  | _ => none

/-- A line, and the lines that belong to it. -/
structure Block where
  head : Bytes
  rest : List Bytes := []
deriving DecidableEq, Repr

namespace Block

variable {ε : Type}

def lines (b : Block) : List Bytes := b.head :: b.rest

/-- The entry of the table that the head of a block stands for. Blank lines are not looked up. -/
def entry? (v : Vocabulary) (t : EventTable ε) (b : Block) : Option (EventMatch ε) :=
  if Text.trim (Utf8.decode b.head) = [] then none
  else t.lookup? (v.classify (Utf8.decode b.head) none)

/-- What a block announces. -/
def notification? (v : Vocabulary) (t : EventTable ε) (b : Block) : Option (Notification ε) :=
  (b.entry? v t).map fun m =>
    ⟨m.event, m.args ++ Receiver.continuationText v.continuation b.rest⟩

/-- **Unsolicited.** The head of the block is an event or a plain line, with the command in flight
and without it, and behind it come the lines that its entry asks for. -/
structure Unsolicited (v : Vocabulary) (t : EventTable ε) (pending : Option Text) (b : Block) :
    Prop where
  while_pending : (v.classify (Utf8.decode b.head) pending).isUnsolicited = true
  while_idle : (v.classify (Utf8.decode b.head) none).isUnsolicited = true
  length_rest : b.rest.length = (b.entry? v t).elim 0 EventMatch.trailing

end Block

namespace Receiver

variable {ε : Type}

/-! ## One block -/

theorem dispatch_of_lookup? (r : Receiver ε) {line : Line} {m : EventMatch ε}
    (hm : r.table.lookup? line = some m) : r.dispatch line = r.matched m := by
  cases line with
  | confirmation status failure => cases hm
  | body text => cases hm
  | event text =>
    have hr : r.table.resolve text = .ok m := eq_ok_of_toOption hm
    simp only [dispatch, hr]
  | plain text =>
    have hr : r.table.resolveBare text = .ok m := eq_ok_of_toOption hm
    simp only [dispatch, hr]

/-- Of a line that nobody asked for and that the table does not know, nothing is left but a
count. -/
theorem dispatch_of_lookup?_eq_none (r : Receiver ε) {line : Line}
    (hline : line.isUnsolicited = true) (hm : r.table.lookup? line = none) :
    ∃ s, r.dispatch line = (r.withStats s, none) := by
  cases line with
  | confirmation status failure => cases hline
  | body text => cases hline
  | event text =>
    obtain ⟨err, hr⟩ := exists_error_of_toOption hm
    simp only [dispatch, hr]
    exact ⟨_, rfl⟩
  | plain text =>
    obtain ⟨err, hr⟩ := exists_error_of_toOption hm
    simp only [dispatch, hr]
    exact ⟨_, rfl⟩

/-- **A block** announces its event and changes nothing but the counters. -/
theorem handleAll_block (r : Receiver ε) (hc : r.capture = none) (b : Block)
    (hb : b.Unsolicited r.vocabulary r.table r.tracker.pendingName?) :
    ∃ s, r.handleAll (b.lines.map .line)
      = (r.withStats s, (b.notification? r.vocabulary r.table).toList.map .event) := by
  have hkind : r.kind b.head = r.vocabulary.classify (Utf8.decode b.head) none :=
    Vocabulary.classify_eq_of_isUnsolicited hb.while_pending
  have hlength := hb.length_rest
  rw [Block.lines, List.map_cons, handleAll_cons]
  by_cases hblank : Text.trim (Utf8.decode b.head) = []
  · -- a blank line has no entry, so no line belongs to it
    have hentry : b.entry? r.vocabulary r.table = none := if_pos hblank
    rw [hentry, Option.elim_none, List.length_eq_zero_iff] at hlength
    rw [handle_of_blank r b.head hc hblank, hlength, Block.notification?, hentry]
    exact ⟨_, rfl⟩
  have hentry : b.entry? r.vocabulary r.table
      = r.table.lookup? (r.vocabulary.classify (Utf8.decode b.head) none) := if_neg hblank
  rw [handle_of_isLookedAt r b.head ⟨hc, hblank⟩, hkind, Block.notification?]
  cases hm : r.table.lookup? (r.vocabulary.classify (Utf8.decode b.head) none) with
  | none =>
    rw [hentry, hm, Option.elim_none, List.length_eq_zero_iff] at hlength
    obtain ⟨s, hs⟩ := dispatch_of_lookup?_eq_none r.counted hb.while_idle hm
    rw [hs, hlength, hentry, hm]
    exact ⟨s, rfl⟩
  | some m =>
    rw [hentry, hm, Option.elim_some] at hlength
    rw [dispatch_of_lookup? r.counted hm, hentry, hm]
    unfold matched
    by_cases hz : m.trailing = 0
    · rw [hz, List.length_eq_zero_iff] at hlength
      rw [if_pos hz, hlength]
      refine ⟨r.stats + { lines := 1, events := 1 }, ?_⟩
      simp only [continuationText, List.flatMap_nil, List.append_nil, Option.map_some]
      rfl
    · rw [if_neg hz]
      have hne : b.rest ≠ [] := by
        intro h
        rw [h] at hlength
        exact hz hlength.symm
      have hdone := handleAll_completes b.rest hne
        { r.counted with capture := some ⟨m.event, m.args, m.trailing⟩ } m.event m.args
        (by rw [hlength])
      simp only [hdone]
      refine ⟨r.stats + { lines := 1 } + { lines := b.rest.length, events := 1 }, ?_⟩
      rw [withStats, ← hc]
      rfl

/-- Blocks in a row announce their events. -/
theorem events_handleAll_blocks (r : Receiver ε) (hc : r.capture = none) (blocks : List Block)
    (hblocks : ∀ b ∈ blocks, b.Unsolicited r.vocabulary r.table r.tracker.pendingName?) :
    Output.events (r.handleAll ((blocks.flatMap Block.lines).map .line)).2
      = blocks.filterMap (Block.notification? r.vocabulary r.table) := by
  induction blocks generalizing r with
  | nil => rfl
  | cons b blocks ih =>
    obtain ⟨s, hs⟩ := handleAll_block r hc b (hblocks b List.mem_cons_self)
    have hmore := ih (r.withStats s) hc fun b' hb' => hblocks b' (List.mem_cons_of_mem b hb')
    rw [List.flatMap_cons, List.map_append, handleAll_append, hs, Output.events_append,
      Output.events_map_event, hmore, List.filterMap_cons]
    cases b.notification? r.vocabulary r.table <;> rfl

/-! ## One line of a reply -/

theorem handle_body (r : Receiver ε) (hc : r.capture = none) {raw : Bytes} {text : Text}
    (hk : r.kind raw = .body text) :
    r.handle (.line raw)
      = ({ r.counted with tracker := r.tracker.append text }.count
          fun s => { s with bodyLines := s.bodyLines + 1 }, none) := by
  have hl : r.IsLookedAt raw := ⟨hc, Vocabulary.trim_ne_nil_of_classify_body hk⟩
  rw [handle_of_isLookedAt r raw hl, hk]
  rfl

theorem handle_confirmation (r : Receiver ε) (hv : r.vocabulary.Usable) (hc : r.capture = none)
    {p : Pending} (hp : r.tracker.current = some p) {raw : Bytes} {status : Status}
    {failure : Option Failure} (hk : r.kind raw = .confirmation status failure) :
    r.handle (.line raw)
      = ({ r.counted with tracker := { r.tracker with current := none } }.count
          fun s => { s with confirmations := s.confirmations + 1 },
        some (.resolved (p.resolve status failure))) := by
  obtain ⟨hterminal, hblank⟩ := Vocabulary.classify_confirmation hv hk
  exact handle_of_confirmation r raw ⟨hc, hblank⟩ hp hk hterminal

/-- A line of the reply leaves the name that the next line is compared with. -/
theorem pendingName?_append (t : Tracker) (text : Text) :
    (t.append text).pendingName? = t.pendingName? := by
  unfold Tracker.pendingName? Tracker.append
  cases t.current with
  | none => rfl
  | some p => rfl

/-! ## Many lines -/

/-- A reply as it is read under a name: pieces of it, and a confirmation. -/
structure IsReply (v : Vocabulary) (pending : Option Text) (bodies : List Bytes) (last : Bytes) :
    Prop where
  isBody (raw : Bytes) : raw ∈ bodies →
    ∃ text, v.classify (Utf8.decode raw) pending = .body text
  isConfirmation :
    ∃ status failure, v.classify (Utf8.decode last) pending = .confirmation status failure

/-- **What is left of a reply:** it is still awaited, from some line on, or it is over. -/
inductive Awaits (r : Receiver ε) (name : Option Text) : List Bytes → Prop where
  | reply (bodies : List Bytes) (last : Bytes) (p : Pending) (hp : r.tracker.current = some p)
    (hname : r.tracker.pendingName? = name) (h : IsReply r.vocabulary name bodies last) :
    Awaits r name (bodies ++ [last])
  | ended (h : r.tracker.current = none) : Awaits r name []

/-- The next line of the reply leaves what is left of it, and says nothing unless it is the last
one. -/
theorem Awaits.step {r : Receiver ε} {name : Option Text} {raw : Bytes} {rest : List Bytes}
    (h : Awaits r name (raw :: rest)) (hv : r.vocabulary.Usable) (hc : r.capture = none) :
    Awaits (r.handle (.line raw)).1 name rest ∧ (r.handle (.line raw)).1.capture = none
      ∧ (rest ≠ [] ∧ (r.handle (.line raw)).2 = none
        ∨ rest = [] ∧ ∃ res, (r.handle (.line raw)).2 = some (.resolved res)) := by
  generalize hall : raw :: rest = all at h
  cases h with
  | ended h => cases hall
  | reply bodies last p hp hname h =>
    cases bodies with
    | nil =>
      -- the confirmation
      rw [List.nil_append, List.cons.injEq] at hall
      obtain ⟨rfl, rfl⟩ := hall
      obtain ⟨status, failure, hk⟩ := h.isConfirmation
      rw [← hname] at hk
      rw [handle_confirmation r hv hc hp hk]
      exact ⟨.ended rfl, hc, .inr ⟨rfl, _, rfl⟩⟩
    | cons first bodies =>
      rw [List.cons_append, List.cons.injEq] at hall
      obtain ⟨rfl, rfl⟩ := hall
      obtain ⟨text, hk⟩ := h.isBody raw List.mem_cons_self
      rw [← hname] at hk
      have hcurrent : (r.tracker.append text).current = some (p.append r.tracker.capacity text) := by
        rw [Tracker.append, hp, Option.map_some]
      rw [handle_body r hc hk]
      refine ⟨?_, hc, .inl ⟨List.append_ne_nil_of_right_ne_nil _ (List.cons_ne_nil last []), rfl⟩⟩
      exact .reply bodies last _ hcurrent ((pendingName?_append r.tracker text).trans hname)
        ⟨fun raw' h' => h.isBody raw' (List.mem_cons_of_mem raw h'), h.isConfirmation⟩

/-- With the reply awaited or over, a block is unsolicited for the receive path as it is. -/
theorem Awaits.unsolicited {r : Receiver ε} {name : Option Text} {left : List Bytes}
    (h : Awaits r name left) {b : Block} (hb : b.Unsolicited r.vocabulary r.table name) :
    b.Unsolicited r.vocabulary r.table r.tracker.pendingName? := by
  cases h with
  | reply bodies last p hp hname h =>
    rw [hname]
    exact hb
  | ended h =>
    have hnone : r.tracker.pendingName? = none := by
      rw [Tracker.pendingName?, h]
      rfl
    rw [hnone]
    exact ⟨hb.while_idle, hb.while_idle, hb.length_rest⟩

theorem Awaits.withStats {r : Receiver ε} {name : Option Text} {left : List Bytes}
    (h : Awaits r name left) (s : Stats) : Awaits (r.withStats s) name left := by
  cases h with
  | reply bodies last p hp hname h => exact .reply bodies last p hp hname h
  | ended h => exact .ended h

/-- **Mixed lines.** What is resolved is what the reply alone resolves, and what is announced is
what the blocks announce. The induction is on the mixture; a line of the reply is the first step of
both runs that are compared, and a block leaves them apart by their counters only. -/
theorem handleAll_mixed {name : Option Text} {replies : List (List Bytes)} {blocks : List Block}
    {chunks : List (List Bytes)} (hmixed : Mixed replies (blocks.map Block.lines) chunks)
    {left : List Bytes} (hleft : replies = left.map fun raw => [raw]) (r : Receiver ε)
    (h : Awaits r name left) (hv : r.vocabulary.Usable) (hc : r.capture = none)
    (hblocks : ∀ b ∈ blocks, b.Unsolicited r.vocabulary r.table name) :
    Output.resolutions (r.handleAll (chunks.flatten.map .line)).2
        = Output.resolutions (r.handleAll (left.map .line)).2
      ∧ Output.events (r.handleAll (chunks.flatten.map .line)).2
        = blocks.filterMap (Block.notification? r.vocabulary r.table) := by
  generalize hlines : blocks.map Block.lines = bs at hmixed
  induction hmixed generalizing left blocks r with
  | nil =>
    rw [List.map_eq_nil_iff] at hlines
    rw [eq_comm, List.map_eq_nil_iff] at hleft
    rw [hlines, hleft]
    exact ⟨rfl, rfl⟩
  | left a hrest ih =>
    obtain ⟨raw, rest, rfl, rfl, hrestleft⟩ := List.map_eq_cons_iff.mp hleft.symm
    obtain ⟨hnext, hc', hout⟩ := h.step hv hc
    have hquiet : Output.events (r.handle (.line raw)).2.toList = [] := by
      rcases hout with ⟨-, hout⟩ | ⟨-, res, hout⟩
      · rw [hout]
        rfl
      · rw [hout]
        rfl
    obtain ⟨hvocabulary, htable, -⟩ := (handle_handled r (.line raw)).fixed
    obtain ⟨hres, hev⟩ := ih hrestleft.symm (r.handle (.line raw)).1 hnext
      (by rw [hvocabulary]; exact hv) hc' (by rw [hvocabulary, htable]; exact hblocks) hlines
    rw [hvocabulary, htable] at hev
    rw [List.flatten_cons, List.singleton_append, List.map_cons, List.map_cons, handleAll_cons,
      handleAll_cons, Output.resolutions_append, Output.resolutions_append, Output.events_append,
      hres, hev, hquiet]
    exact ⟨rfl, rfl⟩
  | right b hrest ih =>
    obtain ⟨block, more, rfl, rfl, hmore⟩ := List.map_eq_cons_iff.mp hlines
    obtain ⟨s, hs⟩ := handleAll_block r hc block (h.unsolicited (hblocks block List.mem_cons_self))
    obtain ⟨hres, hev⟩ := ih hleft (r.withStats s) (h.withStats s) hv hc
      (fun b hb => hblocks b (List.mem_cons_of_mem block hb)) hmore
    -- the reply alone is compared on counters that have not seen the block
    obtain ⟨s', hs'⟩ := handleAll_withStats s r (left.map .line)
    rw [hs'] at hres
    rw [List.flatten_cons, List.map_append, handleAll_append, hs, Output.resolutions_append,
      Output.events_append, Output.resolutions_map_event, Output.events_map_event, hres, hev,
      List.filterMap_cons]
    refine ⟨rfl, ?_⟩
    cases block.notification? r.vocabulary r.table <;> rfl

/-- **The reply by itself** produces its resolution and nothing else. -/
theorem Awaits.exists_resolution {name : Option Text} {left : List Bytes} (hne : left ≠ [])
    {r : Receiver ε} (h : Awaits r name left) (hv : r.vocabulary.Usable) (hc : r.capture = none) :
    ∃ res, (r.handleAll (left.map .line)).2 = [.resolved res] := by
  induction left generalizing r with
  | nil => exact absurd rfl hne
  | cons raw rest ih =>
    obtain ⟨hnext, hc', hout⟩ := h.step hv hc
    rw [List.map_cons, handleAll_cons]
    rcases hout with ⟨hmore, hout⟩ | ⟨hlast, res, hout⟩
    · have hvocabulary := (handle_handled r (.line raw)).fixed.1
      rw [hout]
      exact ih hmore hnext (by rw [hvocabulary]; exact hv) hc'
    · rw [hout, hlast]
      exact ⟨res, rfl⟩

/-- **A reply and what comes in between.** A command is in flight, and no event goes on. Its reply,
pieces and then a confirmation, comes mixed with blocks that nobody asked for, each of them in one
piece. The resolution is the one that the reply alone produces, and the events are those that the
blocks alone announce, in their order. -/
theorem reply_and_events_apart {config : Config} (hvalid : config.validate = .ok ())
    (r : Receiver ε) (hvocabulary : r.vocabulary = config.vocabulary) (hc : r.capture = none)
    (hpending : r.isPending = true) (bodies : List Bytes) (last : Bytes)
    (hreply : IsReply r.vocabulary r.tracker.pendingName? bodies last) (blocks : List Block)
    (hblocks : ∀ b ∈ blocks, b.Unsolicited r.vocabulary r.table r.tracker.pendingName?)
    (chunks : List (List Bytes))
    (hmixed : Mixed ((bodies ++ [last]).map fun raw => [raw]) (blocks.map Block.lines) chunks) :
    let outputs (lines : List Bytes) := (r.handleAll (lines.map .line)).2
    (∃ res, Output.resolutions (outputs (bodies ++ [last])) = [res]
        ∧ Output.resolutions (outputs chunks.flatten) = [res])
      ∧ Output.events (outputs chunks.flatten)
        = Output.events (outputs (blocks.flatMap Block.lines)) := by
  intro outputs
  have hv : r.vocabulary.Usable := by
    rw [hvocabulary]
    exact Config.usable_of_validate hvalid
  obtain ⟨p, hp⟩ := Option.isSome_iff_exists.mp hpending
  have hawaits : Awaits r r.tracker.pendingName? (bodies ++ [last]) :=
    .reply bodies last p hp rfl hreply
  obtain ⟨hres, hev⟩ := handleAll_mixed hmixed rfl r hawaits hv hc hblocks
  constructor
  · obtain ⟨res, hout⟩ := hawaits.exists_resolution
      (List.append_ne_nil_of_right_ne_nil _ (List.cons_ne_nil last [])) hv hc
    have halone : Output.resolutions (outputs (bodies ++ [last])) = [res] := by
      show Output.resolutions (r.handleAll _).2 = _
      rw [hout]
      rfl
    exact ⟨res, halone, hres.trans halone⟩
  · rw [hev]
    exact (events_handleAll_blocks r hc blocks hblocks).symm

/-- A message comes between two pieces of a reply, and its line reads like a confirmation; an event
that the table does not know comes behind the reply. -/
theorem reply_and_message_apart :
    let bodies := [Utf8.encode "+X:1", Utf8.encode "+X:2"]
    let message : Block := ⟨Utf8.encode "+CMT: a", [Utf8.encode "OK"]⟩
    let unknown : Block := ⟨Utf8.encode "+Y", []⟩
    let outputs (lines : List Bytes) := (shortLines.handleAll (lines.map .line)).2
    let mixture := [[Utf8.encode "+X:1"], message.lines, [Utf8.encode "+X:2"], [Utf8.encode "OK"],
      unknown.lines]
    shortLines.isPending = true ∧ IsReply shortLines.vocabulary "X".toList bodies (Utf8.encode "OK")
      ∧ Mixed ((bodies ++ [Utf8.encode "OK"]).map fun raw => [raw])
        ([message, unknown].map Block.lines) mixture
      ∧ Output.resolutions (outputs mixture.flatten)
        = [⟨1, "X", .success, "1\nX:2", false, none⟩]
      ∧ Output.events (outputs mixture.flatten) = [⟨(), "a\nOK"⟩] := by
  intro bodies message unknown outputs mixture
  have hreply : IsReply shortLines.vocabulary "X".toList bodies (Utf8.encode "OK") := by
    refine ⟨?_, .success, none, rfl⟩
    intro raw hraw
    rcases List.mem_cons.mp hraw with rfl | hraw
    · exact ⟨"X:1", rfl⟩
    · rw [List.mem_singleton.mp hraw]
      exact ⟨"X:2", rfl⟩
  have hmixed : Mixed ((bodies ++ [Utf8.encode "OK"]).map fun raw => [raw])
      ([message, unknown].map Block.lines) mixture :=
    .left _ (.right _ (.left _ (.left _ (.right _ .nil))))
  have hvalid : ({ framing := { lineLimit := 8 } } : Config).validate = .ok () := rfl
  have hblocks : ∀ b ∈ [message, unknown],
      b.Unsolicited shortLines.vocabulary shortLines.table shortLines.tracker.pendingName? := by
    intro b hb
    rcases List.mem_cons.mp hb with rfl | hb
    · exact ⟨rfl, rfl, rfl⟩
    · rw [List.mem_singleton.mp hb]
      exact ⟨rfl, rfl, rfl⟩
  obtain ⟨⟨res, halone, hres⟩, hev⟩ := reply_and_events_apart hvalid shortLines rfl rfl rfl bodies
    (Utf8.encode "OK") hreply [message, unknown] hblocks mixture hmixed
  exact ⟨rfl, hreply, hmixed, hres.trans halone.symm, hev⟩

end Receiver

end ModemLink
