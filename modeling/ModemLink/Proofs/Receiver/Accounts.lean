/-
What becomes of every line.

A receive path counts what it does, each counter on a branch of its own, and nothing in it says that the
counters add up. Here a run takes notes beside the counters: `Receiver.note` says what becomes of an item
from the state that the item meets, and a switch of terminators is noted if it discards an event that
goes on. Each item has one note, so the notes add up, and what is left to show is that a note adds to
the counters what `Note.tally` says and nothing else.

One thing does not balance line by line. The header of an event with trailing lines is counted as a line
at once, but as an event only with its last line, which may be many calls later or never. Until then the
event goes on, or it has been discarded.
-/
import ModemLink.Proofs.Line
import ModemLink.Proofs.Receiver.Traffic

set_option autoImplicit false

namespace ModemLink.Receiver

open ModemLink

/-! ## Notes -/

/-- What a run notes down. -/
inductive Note where
  /-- the framer gave up a line -/
  | overlong
  /-- an event that goes on takes in a line, and goes on -/
  | taken
  /-- an event that goes on takes in its last line -/
  | completed
  /-- a blank line, outside of events that go on -/
  | blank
  /-- a confirmation, with a command in flight -/
  | confirmed
  /-- a confirmation, with nothing in flight -/
  | stray
  /-- a piece of the reply -/
  | body
  /-- an event of one line -/
  | announced
  /-- the header of an event that goes on -/
  | opened
  /-- a line with a sentinel that the table does not know -/
  | unknown
  /-- a plain line that the table does not know -/
  | dropped
  /-- an event that goes on is discarded by a switch of terminators -/
  | discarded
deriving DecidableEq, Repr

namespace Note

/-- Whether a line was handed out for it. -/
def isLine : Note → Bool
  | .overlong => false
  | .discarded => false
  | _ => true

/-- What it adds to the counters. -/
def tally : Note → Stats
  | .overlong => { overflows := 1 }
  | .taken => { lines := 1 }
  | .completed => { lines := 1, events := 1 }
  | .blank => { lines := 1 }
  | .confirmed => { lines := 1, confirmations := 1 }
  | .stray => { lines := 1, strayConfirmations := 1 }
  | .body => { lines := 1, bodyLines := 1 }
  | .announced => { lines := 1, events := 1 }
  | .opened => { lines := 1 }
  | .unknown => { lines := 1, unknownEvents := 1 }
  | .dropped => { lines := 1, droppedLines := 1 }
  | .discarded => {}

/-- What some notes add to the counters. -/
def total : List Note → Stats
  | [] => {}
  | n :: notes => n.tally + total notes

/-- **The counters count notes.** -/
theorem total_eq (notes : List Note) :
    total notes =
      { lines := notes.countP isLine
        confirmations := notes.count .confirmed
        strayConfirmations := notes.count .stray
        bodyLines := notes.count .body
        events := notes.count .announced + notes.count .completed
        unknownEvents := notes.count .unknown
        overflows := notes.count .overlong
        droppedLines := notes.count .dropped } := by
  induction notes with
  | nil => rfl
  | cons n notes ih =>
    rw [total, ih, Stats.add_def]
    cases n <;> simp [tally, isLine, List.countP_cons, Nat.add_comm, Nat.add_left_comm,
      Nat.add_assoc]

/-- **A line has one note.** -/
theorem countP_isLine (notes : List Note) :
    notes.countP isLine
      = notes.count .confirmed + notes.count .stray + notes.count .body + notes.count .unknown
        + notes.count .dropped + notes.count .announced + notes.count .opened
        + notes.count .blank + notes.count .taken + notes.count .completed := by
  induction notes with
  | nil => rfl
  | cons n notes ih =>
    rw [List.countP_cons, ih]
    cases n <;> simp [isLine] <;> omega

theorem total_append (a b : List Note) : total (a ++ b) = total a + total b := by
  induction a with
  | nil => simp [total, Stats.add_def]
  | cons n a ih => rw [List.cons_append, total, total, ih, Stats.add_assoc]

/-- What is noted of a line that was looked up. -/
def ofAnswer {ε : Type} (otherwise : Note) : Except Error (EventMatch ε) → Note
  | .ok m => if m.trailing = 0 then .announced else .opened
  | .error _ => otherwise

end Note

variable {ε : Type}

/-- What becomes of a line that is looked at, by what it is. -/
def noteKind (r : Receiver ε) : Line → Note
  | .confirmation _ _ => if r.isPending then .confirmed else .stray
  | .body _ => .body
  | .event text => .ofAnswer .unknown (r.table.resolve text)
  | .plain text => .ofAnswer .dropped (r.table.resolveBare text)

/-- **What becomes of an item** in the state that it meets. -/
def note (r : Receiver ε) : Framed → Note
  | .overlong _ => .overlong
  | .line raw =>
    match r.capture with
    | some c => if c.remaining ≤ 1 then .completed else .taken
    | none => if Text.trim (Utf8.decode raw) = [] then .blank else r.noteKind (r.kind raw)

/-- What becomes of items one after the other. -/
def notesAll : Receiver ε → List Framed → List Note
  | _, [] => []
  | r, item :: items => r.note item :: notesAll (r.handle item).1 items

/-- What a call adds to the notes. -/
def notesOf (r : Receiver ε) : Operation → List Note
  | .feed bytes => r.notesAll (r.framer.feed bytes).2
  | .setTerminators _ => if !r.isPending && r.capture.isSome then [.discarded] else []
  | _ => []

/-- The notes of calls in a row. -/
def notes : Receiver ε → List Operation → List Note
  | _, [] => []
  | r, op :: ops => r.notesOf op ++ notes (r.perform op).2 ops

/-- What the framer hands out in a call. -/
def framedIn (r : Receiver ε) : Operation → List Framed
  | .feed bytes => (r.framer.feed bytes).2
  | _ => []

/-- What the framer hands out in calls in a row. -/
def framed : Receiver ε → List Operation → List Framed
  | _, [] => []
  | r, op :: ops => r.framedIn op ++ framed (r.perform op).2 ops

/-- What an answer hands out. -/
def Answer.outputs : Answer ε → List (Output ε)
  | .feed outputs => outputs
  | _ => []

/-- How many events go on, none or one. -/
def goingOn (r : Receiver ε) : Nat := r.capture.toList.length

theorem goingOn_of_some {r : Receiver ε} {c : Capture ε} (hc : r.capture = some c) : r.goingOn = 1 := by
  unfold goingOn
  rw [hc]
  rfl

theorem goingOn_of_none {r : Receiver ε} (hc : r.capture = none) : r.goingOn = 0 := by
  unfold goingOn
  rw [hc]
  rfl

/-! ## A note for every item -/

theorem isLine_noteKind (r : Receiver ε) (line : Line) : (r.noteKind line).isLine = true := by
  have hanswer (otherwise : Note) (h : otherwise.isLine = true)
      (answer : Except Error (EventMatch ε)) : (Note.ofAnswer otherwise answer).isLine = true := by
    cases answer with
    | error err => exact h
    | ok m =>
      unfold Note.ofAnswer
      by_cases hz : m.trailing = 0
      · simp only [if_pos hz, Note.isLine]
      · simp only [if_neg hz, Note.isLine]
  cases line with
  | confirmation status failure =>
    unfold noteKind
    by_cases hp : r.isPending = true
    · simp only [if_pos hp, Note.isLine]
    · simp only [if_neg hp, Note.isLine]
  | body text => rfl
  | event text => exact hanswer .unknown rfl _
  | plain text => exact hanswer .dropped rfl _

/-- Lines have the notes of lines, and no others. -/
theorem isLine_note (r : Receiver ε) (item : Framed) : (r.note item).isLine = item.isLine := by
  cases item with
  | overlong limit => rfl
  | line raw =>
    unfold note
    cases r.capture with
    | some c =>
      by_cases hlast : c.remaining ≤ 1
      · simp only [if_pos hlast, Note.isLine, Framed.isLine]
      · simp only [if_neg hlast, Note.isLine, Framed.isLine]
    | none =>
      by_cases hb : Text.trim (Utf8.decode raw) = []
      · simp only [if_pos hb, Note.isLine, Framed.isLine]
      · simp only [if_neg hb, isLine_noteKind, Framed.isLine]

theorem note_eq_overlong_iff (r : Receiver ε) (item : Framed) :
    r.note item = .overlong ↔ item.isLine = false := by
  constructor
  · intro h
    rw [← isLine_note r item, h]
    rfl
  · intro h
    cases item with
    | overlong limit => rfl
    | line raw => cases h

/-- **A note for every item,** and the others are of events that were discarded. -/
theorem notes_of_framed (r : Receiver ε) (ops : List Operation) :
    (r.notes ops).countP Note.isLine = (r.framed ops).countP Framed.isLine
      ∧ (r.notes ops).count .overlong = (r.framed ops).countP fun item => !item.isLine := by
  have hitems (r : Receiver ε) (items : List Framed) :
      (r.notesAll items).countP Note.isLine = items.countP Framed.isLine
        ∧ (r.notesAll items).count .overlong = items.countP fun item => !item.isLine := by
    induction items generalizing r with
    | nil => exact ⟨rfl, rfl⟩
    | cons item items ih =>
      obtain ⟨hlines, hoverlong⟩ := ih (r.handle item).1
      have hnote : (r.note item == .overlong) = !item.isLine := by
        rw [Bool.eq_iff_iff, beq_iff_eq, note_eq_overlong_iff, Bool.not_eq_true']
      constructor
      · rw [notesAll, List.countP_cons, List.countP_cons, hlines, isLine_note]
      · rw [notesAll, List.count_cons, List.countP_cons, hoverlong, hnote]
  have hcall (r : Receiver ε) (op : Operation) :
      (r.notesOf op).countP Note.isLine = (r.framedIn op).countP Framed.isLine
        ∧ (r.notesOf op).count .overlong = (r.framedIn op).countP fun item => !item.isLine := by
    cases op with
    | feed bytes => exact hitems r (r.framer.feed bytes).2
    | setTerminators t =>
      simp only [notesOf, framedIn]
      split <;> exact ⟨rfl, rfl⟩
    | _ => exact ⟨rfl, rfl⟩
  induction ops generalizing r with
  | nil => exact ⟨rfl, rfl⟩
  | cons op ops ih =>
    obtain ⟨hlines, hoverlong⟩ := hcall r op
    obtain ⟨hlines', hoverlong'⟩ := ih (r.perform op).2
    constructor
    · rw [notes, framed, List.countP_append, List.countP_append, hlines, hlines']
    · rw [notes, framed, List.count_append, List.countP_append, hoverlong, hoverlong']

/-! ## One item -/

/-- **Notes are kept.** The counters, lost events apart, have grown by what the notes say and by nothing
else, and so have the events and the resolutions that were handed out. An event that was opened goes on
until it is completed or discarded. -/
structure Keeps (notes : List Note) (r r' : Receiver ε) (outputs : List (Output ε)) : Prop where
  stats_eq : r'.stats = { r.stats + Note.total notes with eventsLost := r'.stats.eventsLost }
  events_eq : (Output.events outputs).length = (Note.total notes).events
  resolutions_eq : (Output.resolutions outputs).length = (Note.total notes).confirmations
  goingOn_eq : r'.goingOn + notes.count .completed + notes.count .discarded
    = r.goingOn + notes.count .opened

namespace Keeps

theorem refl (r : Receiver ε) : Keeps [] r r [] := ⟨rfl, rfl, rfl, rfl⟩

theorem trans {a b : List Note} {r r' r'' : Receiver ε} {outs outs' : List (Output ε)}
    (h : Keeps a r r' outs) (h' : Keeps b r' r'' outs') : Keeps (a ++ b) r r'' (outs ++ outs') where
  stats_eq := by
    rw [h'.stats_eq, h.stats_eq, Note.total_append]
    simp only [Stats.add_def, Nat.add_assoc]
  events_eq := by
    rw [Output.events_append, List.length_append, h.events_eq, h'.events_eq, Note.total_append]
    rfl
  resolutions_eq := by
    rw [Output.resolutions_append, List.length_append, h.resolutions_eq, h'.resolutions_eq,
      Note.total_append]
    rfl
  goingOn_eq := by
    have hfirst := h.goingOn_eq
    have hsecond := h'.goingOn_eq
    simp only [List.count_append]
    omega

end Keeps

theorem note_of_isLookedAt {r : Receiver ε} {raw : Bytes} (hl : r.IsLookedAt raw) :
    r.note (.line raw) = r.noteKind (r.kind raw) := by
  simp only [note, hl.capture_eq_none, if_neg hl.not_blank]

/-- What is noted of a line that the table knows. -/
theorem noteKind_of_knows {r : Receiver ε} {raw : Bytes} {m : EventMatch ε} (hm : r.Knows raw m) :
    r.noteKind (r.kind raw) = if m.trailing = 0 then .announced else .opened := by
  rcases hm with ⟨text, hk, hm⟩ | ⟨text, hk, hm⟩
  · simp only [hk, noteKind, hm, Note.ofAnswer]
  · simp only [hk, noteKind, hm, Note.ofAnswer]

theorem isPending_eq (r : Receiver ε) : r.isPending = r.tracker.current.isSome := rfl

/-- **An item keeps its note.** Only confirmations need a look at the vocabulary: one that ends nothing
would be counted as stray although a command is in flight. -/
theorem Handled.keeps {r r' : Receiver ε} {item : Framed} {out : Option (Output ε)}
    (h : Handled r item r' out) (husable : r.vocabulary.Usable) :
    Keeps [r.note item] r r' out.toList := by
  cases h with
  | overlong limit => exact ⟨rfl, rfl, rfl, rfl⟩
  | taken raw c hc hmore =>
    have hnote : r.note (.line raw) = .taken := by
      simp only [note, hc]
      exact if_neg (by omega)
    rw [hnote]
    exact ⟨rfl, rfl, rfl, (goingOn_of_some hc).symm⟩
  | completed raw c hc hlast =>
    have hnote : r.note (.line raw) = .completed := by
      simp only [note, hc]
      exact if_pos (by omega)
    rw [hnote]
    exact ⟨rfl, rfl, rfl, (goingOn_of_some hc).symm⟩
  | blank raw hc hb =>
    have hnote : r.note (.line raw) = .blank := by
      simp only [note, hc]
      exact if_pos hb
    rw [hnote]
    exact ⟨rfl, rfl, rfl, rfl⟩
  | confirmed raw p status failure hl hk hp ht =>
    have hnote : r.note (.line raw) = .confirmed := by
      rw [note_of_isLookedAt hl, hk, noteKind, isPending_eq, hp]
      rfl
    rw [hnote]
    exact ⟨rfl, rfl, rfl, rfl⟩
  | stray raw status failure hl hk hp =>
    have hterminal : status.isTerminal = true := (Vocabulary.classify_confirmation husable hk).1
    have hnote : r.note (.line raw) = .stray := by
      rw [note_of_isLookedAt hl, hk, noteKind, isPending_eq, hp hterminal]
      rfl
    rw [hnote]
    exact ⟨rfl, rfl, rfl, rfl⟩
  | body raw text hl hk =>
    have hnote : r.note (.line raw) = .body := by
      rw [note_of_isLookedAt hl, hk]
      rfl
    rw [hnote]
    exact ⟨rfl, rfl, rfl, rfl⟩
  | announced raw m hl hm hz =>
    have hnote : r.note (.line raw) = .announced := by
      rw [note_of_isLookedAt hl, noteKind_of_knows hm, if_pos hz]
    rw [hnote]
    exact ⟨rfl, rfl, rfl, rfl⟩
  | opened raw m hl hm hz =>
    have hnote : r.note (.line raw) = .opened := by
      rw [note_of_isLookedAt hl, noteKind_of_knows hm, if_neg hz]
    rw [hnote]
    refine ⟨rfl, rfl, rfl, ?_⟩
    rw [goingOn_of_none hl.capture_eq_none]
    rfl
  | unknown raw text err hl hk hm =>
    have hnote : r.note (.line raw) = .unknown := by
      rw [note_of_isLookedAt hl, hk, noteKind, hm]
      rfl
    rw [hnote]
    exact ⟨rfl, rfl, rfl, rfl⟩
  | dropped raw text err hl hk hm =>
    have hnote : r.note (.line raw) = .dropped := by
      rw [note_of_isLookedAt hl, hk, noteKind, hm]
      rfl
    rw [hnote]
    exact ⟨rfl, rfl, rfl, rfl⟩

/-! ## Items and calls in a row -/

theorem handleAll_keeps {r : Receiver ε} (husable : r.vocabulary.Usable) (items : List Framed) :
    Keeps (r.notesAll items) r (r.handleAll items).1 (r.handleAll items).2 := by
  induction items generalizing r with
  | nil => exact .refl r
  | cons item items ih =>
    have hone := handle_handled r item
    have husable' : (r.handle item).1.vocabulary.Usable := by
      rw [hone.fixed.1]
      exact husable
    exact (hone.keeps husable).trans (ih husable')

/-- Bytes keep the notes of the items that the framer makes of them. -/
theorem feed_keeps {r : Receiver ε} (husable : r.vocabulary.Usable) (bytes : Bytes) :
    Keeps (r.notesOf (.feed bytes)) r (r.feed bytes).1 (r.feed bytes).2 := by
  obtain ⟨hstats, hevents, hresolutions, hgoing⟩ :=
    handleAll_keeps husable (r.framer.feed bytes).2
  rw [feed_eq_handleAll]
  exact ⟨hstats, hevents, hresolutions, hgoing⟩

/-- A switch of terminators ends an event that goes on, and notes it. -/
theorem setTerminators_keeps (r : Receiver ε) (t : Terminators) :
    Keeps (r.notesOf (.setTerminators t)) r (r.perform (.setTerminators t)).2
      (r.perform (.setTerminators t)).1.outputs := by
  cases hp : r.tracker.current with
  | some p =>
    have hnotes : r.notesOf (.setTerminators t) = [] := by
      simp only [notesOf, isPending_eq, hp, Option.isSome_some, Bool.not_true, Bool.false_and,
        Bool.false_eq_true, if_false]
    simp only [perform, setTerminators_of_some r t p hp, hnotes]
    exact .refl r
  | none =>
    have hpending : r.isPending = false := by
      rw [isPending_eq, hp]
      rfl
    simp only [perform, setTerminators_of_none r t hp]
    cases hc : r.capture with
    | none =>
      have hnotes : r.notesOf (.setTerminators t) = [] := by
        simp only [notesOf, hpending, hc, Option.isSome_none, Bool.and_false, Bool.false_eq_true,
          if_false]
      rw [hnotes]
      exact ⟨rfl, rfl, rfl, (goingOn_of_none hc).symm⟩
    | some c =>
      have hnotes : r.notesOf (.setTerminators t) = [.discarded] := by
        simp only [notesOf, hpending, hc, Option.isSome_some, Bool.not_false, Bool.and_true,
          if_true]
      rw [hnotes]
      exact ⟨rfl, rfl, rfl, (goingOn_of_some hc).symm⟩

/-- **A call keeps its notes.** -/
theorem perform_keeps {r : Receiver ε} (husable : r.vocabulary.Usable) (op : Operation) :
    Keeps (r.notesOf op) r (r.perform op).2 (r.perform op).1.outputs := by
  cases op with
  | begin command =>
    cases hp : r.tracker.current with
    | none =>
      simp only [perform, begin_of_none r command hp]
      exact ⟨rfl, rfl, rfl, rfl⟩
    | some p =>
      simp only [perform, begin_of_some r command p hp]
      exact .refl r
  | cancel number => exact ⟨rfl, rfl, rfl, rfl⟩
  | feed bytes => exact feed_keeps husable bytes
  | setTerminators t => exact setTerminators_keeps r t
  | noteEventLost => exact ⟨rfl, rfl, rfl, rfl⟩

namespace Run

/-- What a run has handed out so far. -/
def outputs (run : Run ε) : List (Output ε) := run.answers.flatMap Answer.outputs

/-- More calls keep their notes. -/
theorem foldl_step_keeps (run : Run ε) (husable : run.receiver.vocabulary.Usable)
    (ops : List Operation) :
    ∃ added, (ops.foldl step run).outputs = run.outputs ++ added
      ∧ Keeps (run.receiver.notes ops) run.receiver (ops.foldl step run).receiver added := by
  induction ops generalizing run with
  | nil => exact ⟨[], (List.append_nil _).symm, .refl _⟩
  | cons op ops ih =>
    have husable' : (run.step op).receiver.vocabulary.Usable := by
      show (run.receiver.perform op).2.vocabulary.Usable
      rw [(perform_fixed run.receiver op).1]
      exact husable
    obtain ⟨added, hadded, hkeeps⟩ := ih (run.step op) husable'
    refine ⟨(run.receiver.perform op).1.outputs ++ added, ?_, ?_⟩
    · rw [List.foldl_cons, hadded]
      unfold outputs step
      rw [List.flatMap_append, List.flatMap_singleton, List.append_assoc]
    · exact (perform_keeps husable op).trans hkeeps

/-- **Every line is accounted for, once.** In every run from a fresh receive path:

* events and confirmations are counted as they are handed out;
* each line that the framer gives up is counted as such, and as nothing else;
* a stray confirmation is one that was dealt with while nothing was in flight;
* each line that the framer hands out was counted, taken in by an event that goes on, blank, or the
  header of an event. Such an event has been announced and counted, goes on, or was discarded. -/
theorem lines_accounted (config : Config) (hvalid : config.validate = .ok ())
    (table : EventTable ε) (ops : List Operation) :
    let run := of config table ops
    let notes := (Receiver.new config table).notes ops
    let framed := (Receiver.new config table).framed ops
    let stats := run.receiver.stats
    stats.events = (Output.events run.outputs).length
    ∧ stats.confirmations = (Output.resolutions run.outputs).length
    ∧ stats.overflows = framed.countP (fun item => !item.isLine)
    ∧ stats.strayConfirmations = notes.count .stray
    ∧ stats.lines = framed.countP Framed.isLine
    ∧ stats.lines = stats.confirmations + stats.strayConfirmations + stats.bodyLines
        + stats.unknownEvents + stats.droppedLines + stats.events
        + notes.count .blank
        + (notes.count .taken + notes.count .completed)
        + run.receiver.goingOn
        + notes.count .discarded := by
  intro run notes framed stats
  obtain ⟨added, hadded, hkeeps⟩ := foldl_step_keeps (⟨.new config table, []⟩ : Run ε)
    (Config.usable_of_validate hvalid) ops
  obtain ⟨hlines, hoverlong⟩ := notes_of_framed (Receiver.new config table) ops
  have houtputs : run.outputs = added := hadded.trans (List.nil_append _)
  -- the counters of a fresh receive path are at zero
  have hstats : stats = { Note.total notes with eventsLost := stats.eventsLost } := by
    refine hkeeps.stats_eq.trans ?_
    simp only [Receiver.new, Stats.add_def, Nat.zero_add]
    rfl
  rw [Note.total_eq] at hstats
  have hevents := hkeeps.events_eq
  have hresolutions := hkeeps.resolutions_eq
  have hgoing : run.receiver.goingOn + notes.count .completed + notes.count .discarded
      = notes.count .opened := hkeeps.goingOn_eq.trans (Nat.zero_add _)
  rw [← houtputs, Note.total_eq] at hevents hresolutions
  rw [hstats]
  refine ⟨hevents.symm, hresolutions.symm, hoverlong, rfl, hlines, ?_⟩
  -- a header was announced later, or its event goes on, or was discarded
  have hcount := Note.countP_isLine notes
  show notes.countP Note.isLine = notes.count .confirmed + notes.count .stray + notes.count .body
    + notes.count .unknown + notes.count .dropped
    + (notes.count .announced + notes.count .completed) + notes.count .blank
    + (notes.count .taken + notes.count .completed) + run.receiver.goingOn + notes.count .discarded
  omega

/-- Lines of eight bytes at most. -/
def shortFrames : Config := { framing := { lineLimit := 8 } }

/-- Messages that begin with a header, and a plain word. -/
def messageTable : EventTable Unit :=
  { root := { entries := .event "CMT" ⟨(), 1⟩ .nil }
    bare := { entries := .event "RDY" ⟨(), 0⟩ .nil } }

/-- Calls in which each kind of line occurs. Of the three messages the first is complete, the second
is discarded, and the third goes on. -/
def mixedCalls : List Operation :=
  [.begin "AT+X",
    .feed (onWire .crlf (["+X:1", "+CMT", "", "RDY", "OK", "ERROR", "+Y", "noise"].map
      fun line => Utf8.encode line.toList)),
    .feed (onWire .crlf (["", "too long to be read", "+CMT"].map
      fun line => Utf8.encode line.toList)),
    .setTerminators .cr, .setTerminators .crlf,
    .feed (onWire .crlf [Utf8.encode "+CMT"])]

/-- Twelve lines, of which one was too long and is not counted among the others. -/
theorem mixed_calls_accounted :
    shortFrames.validate = .ok ()
      ∧ let stats := (of shortFrames messageTable mixedCalls).receiver.stats
        stats.events = 2 ∧ stats.confirmations = 1 ∧ stats.overflows = 1
          ∧ stats.strayConfirmations = 1
          ∧ stats.lines = 1 + 1 + 1 + 1 + 1 + 2 + 1 + (0 + 1) + 1 + 1 := by
  have hvalid : shortFrames.validate = .ok () := rfl
  obtain ⟨hevents, hconfirmations, hoverflows, hstray, -, hlines⟩ :=
    lines_accounted shortFrames hvalid messageTable mixedCalls
  exact ⟨hvalid, hevents.trans rfl, hconfirmations.trans rfl, hoverflows.trans rfl,
    hstray.trans rfl, hlines.trans rfl⟩

end Run

end ModemLink.Receiver
