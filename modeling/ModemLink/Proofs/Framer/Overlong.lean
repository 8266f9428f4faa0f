/-
Lines that are too long.

A framer keeps four things of a line that has not ended: its bytes, whether the first byte of a terminator is
held back, whether the line is being thrown away, and the terminators it is waiting for. Whatever is done with
a framer, they stay within bounds (`Bounded`), and no line that is handed out is longer than the limit.

What is handed out is told by a record: each byte with what was handed out with it, and each place where the
framer is made to start afresh. The bytes since the line began, and whether one of them was reported, say all
that matters of where the framer is (`Midway`). One step lemma keeps this in step with the record, and the
record is then one of lines: each is handed out with its last byte and made of its own bytes, or it is
reported once and its bytes are handed out by nothing.
-/
import ModemLink.Proofs.Framer.Splitting

set_option autoImplicit false

namespace ModemLink

namespace Framer

/-! ## What is done with a framer -/

inductive Operation where
  | push (b : UInt8)
  | feed (bytes : Bytes)
  | setTerminators (t : Terminators)
  | reset
deriving DecidableEq, Repr

/-- One operation, and what is handed out. -/
def perform (f : Framer) : Operation → Framer × List Framed
  | .push b => ((f.push b).1, (f.push b).2.toList)
  | .feed bytes => f.feed bytes
  | .setTerminators t => (f.setTerminators t, [])
  | .reset => (f.reset, [])

/-- Operations one after the other. -/
def performAll : Framer → List Operation → Framer × List Framed
  | f, [] => (f, [])
  | f, op :: ops =>
    let (f', out) := f.perform op
    let (f'', outs) := f'.performAll ops
    (f'', out ++ outs)

/-! ## What happens to it -/

/-- An entry of the record. -/
inductive Happening where
  /-- a byte, and what was handed out with it -/
  | byte (b : UInt8) (out : Option Framed)
  /-- a line that has been begun is forgotten, and these terminators are in force -/
  | afresh (t : Terminators)
deriving DecidableEq, Repr

namespace Happening

def out? : Happening → Option Framed
  | .byte _ out => out
  | .afresh _ => none

def byte? : Happening → Option UInt8
  | .byte b _ => some b
  | .afresh _ => none

/-- Whether a line is reported as too long. -/
def isReport : Happening → Bool
  | .byte _ (some (.overlong _)) => true
  | _ => false

/-- Bytes that nothing is handed out with. -/
def quiet (bytes : Bytes) : List Happening := bytes.map (.byte · none)

/-- The bytes on a record. -/
def bytes (log : List Happening) : Bytes := log.filterMap byte?

/-- A record of bytes only: the framer is not made to start afresh. -/
def Unbroken (log : List Happening) : Prop := ∀ t, .afresh t ∉ log

/-- The terminators in force at the end of a record. -/
def inForce : Terminators → List Happening → Terminators
  | t, [] => t
  | t, .byte _ _ :: log => inForce t log
  | _, .afresh t :: log => inForce t log

theorem inForce_of_unbroken {t : Terminators} {log : List Happening} (h : Unbroken log) :
    inForce t log = t := by
  induction log with
  | nil => rfl
  | cons e log ih =>
    cases e with
    | byte b out => exact ih fun t' ht' => h t' (List.mem_cons_of_mem _ ht')
    | afresh t' => exact absurd List.mem_cons_self (h t')

theorem filterMap_quiet (bytes : Bytes) : (quiet bytes).filterMap out? = [] := by
  unfold quiet
  rw [List.filterMap_map]
  exact List.filterMap_eq_nil_iff.mpr fun _ _ => rfl

theorem filterMap_reported (front : Bytes) (b : UInt8) (limit : Nat) (more : Bytes) :
    (quiet front ++ .byte b (some (.overlong limit)) :: quiet more).filterMap out?
      = [.overlong limit] := by
  rw [List.filterMap_append, filterMap_quiet, List.nil_append, List.filterMap_cons, filterMap_quiet]
  rfl

theorem quiet_concat (bytes : Bytes) (b : UInt8) : quiet (bytes ++ [b]) = quiet bytes ++ [.byte b none] :=
  List.map_append

end Happening

open Happening

/-- The record of bytes. -/
def recordBytes : Framer → Bytes → List Happening
  | _, [] => []
  | f, b :: bs => .byte b (f.push b).2 :: (f.push b).1.recordBytes bs

/-- The record of one operation. -/
def recordOne (f : Framer) : Operation → List Happening
  | .push b => f.recordBytes [b]
  | .feed bytes => f.recordBytes bytes
  | .setTerminators t => [.afresh t]
  | .reset => [.afresh f.terminators]

/-- **The record of operations.** -/
def record : Framer → List Operation → List Happening
  | _, [] => []
  | f, op :: ops => f.recordOne op ++ (f.perform op).1.record ops

/-- **A framer and its record:** it goes from one state to another while this happens. -/
inductive Run : Framer → List Happening → Framer → Prop where
  | nil (f : Framer) : Run f [] f
  | byte {f f' : Framer} {log : List Happening} (b : UInt8) (h : Run (f.push b).1 log f') :
    Run f (.byte b (f.push b).2 :: log) f'
  | afresh {f f' : Framer} {log : List Happening} (t : Terminators)
    (h : Run (f.setTerminators t) log f') : Run f (.afresh t :: log) f'

theorem Run.append {f f' f'' : Framer} {log more : List Happening} (h : Run f log f')
    (h' : Run f' more f'') : Run f (log ++ more) f'' := by
  induction h with
  | nil f => exact h'
  | byte b _ ih => exact .byte b (ih h')
  | afresh t _ ih => exact .afresh t (ih h')

/-- A run can be stopped anywhere in its record. -/
theorem Run.of_append {f f'' : Framer} {log more : List Happening} (h : Run f (log ++ more) f'') :
    ∃ f', Run f log f' ∧ Run f' more f'' := by
  induction log generalizing f with
  | nil => exact ⟨f, .nil f, h⟩
  | cons e log ih =>
    cases h with
    | byte b h =>
      obtain ⟨f', hlog, hmore⟩ := ih h
      exact ⟨f', .byte b hlog, hmore⟩
    | afresh t h =>
      obtain ⟨f', hlog, hmore⟩ := ih h
      exact ⟨f', .afresh t hlog, hmore⟩

theorem run_recordBytes (f : Framer) (bytes : Bytes) : Run f (f.recordBytes bytes) (f.feed bytes).1 := by
  induction bytes generalizing f with
  | nil => exact .nil f
  | cons b bytes ih => exact .byte b (ih _)

theorem run_recordOne (f : Framer) (op : Operation) : Run f (f.recordOne op) (f.perform op).1 := by
  cases op with
  | push b => exact f.run_recordBytes [b]
  | feed bytes => exact f.run_recordBytes bytes
  | setTerminators t => exact .afresh t (.nil _)
  | reset => exact .afresh f.terminators (.nil _)

/-- **The record is true.** -/
theorem run_record (f : Framer) (ops : List Operation) : Run f (f.record ops) (f.performAll ops).1 := by
  induction ops generalizing f with
  | nil => exact .nil f
  | cons op ops ih => exact (f.run_recordOne op).append (ih _)

theorem out_recordBytes (f : Framer) (bytes : Bytes) :
    (f.recordBytes bytes).filterMap out? = (f.feed bytes).2 := by
  induction bytes generalizing f with
  | nil => rfl
  | cons b bytes ih =>
    rw [recordBytes, List.filterMap_cons, ih, feed]
    cases hout : (f.push b).2 with
    | none => simp only [out?, hout, Option.toList_none, List.nil_append]
    | some out => simp only [out?, hout, Option.toList_some, List.singleton_append]

/-- **The record is complete:** it has what is handed out, in order. -/
theorem out_record (f : Framer) (ops : List Operation) :
    (f.record ops).filterMap out? = (f.performAll ops).2 := by
  induction ops generalizing f with
  | nil => rfl
  | cons op ops ih =>
    rw [record, List.filterMap_append, ih, performAll]
    congr 1
    cases op with
    | push b =>
      rw [recordOne, out_recordBytes]
      exact List.append_nil _
    | feed bytes => exact out_recordBytes f bytes
    | setTerminators t => rfl
    | reset => rfl

/-! ## Bounds -/

/-- **Within bounds.** -/
structure Bounded (f : Framer) : Prop where
  fits : f.buffer.length ≤ f.limit
  /-- nothing is kept of a line that is thrown away -/
  discarded : f.discarding = true → f.buffer = []
  /-- only the first byte of a pair is held back -/
  held_pair : f.held = true → ∃ first second, f.terminators = .pair first second

/-- **What a byte comes to,** whatever the framer is in the middle of: it stays within bounds and keeps its
configuration, a line that it hands out is within the limit, and after a report it throws away what comes. -/
structure Keeps (g : Framing) (r : Framer × Option Framed) : Prop where
  bounded : r.1.Bounded
  framing_eq : r.1.framing = g
  line_fits (line : Bytes) : r.2 = some (.line line) → line.length ≤ g.lineLimit
  report (limit : Nat) : r.2 = some (.overlong limit) →
    limit = g.lineLimit ∧ r.1 = { new g with discarding := true }

theorem bounded_new (g : Framing) : (new g).Bounded := ⟨Nat.zero_le _, fun _ => rfl, nofun⟩

theorem Keeps.silent {g : Framing} {f : Framer} (hbounded : f.Bounded) (hg : f.framing = g) :
    Keeps g (f, none) := ⟨hbounded, hg, nofun, nofun⟩

section Step

variable {f : Framer}

theorem Bounded.store_keeps (h : f.Bounded) (hheld : f.held = false) (b : UInt8) :
    Keeps f.framing (f.store b) := by
  obtain ⟨t, limit, prompt, buffer, held, discarding⟩ := f
  obtain rfl : held = false := hheld
  unfold store
  by_cases hd : discarding = true
  · rw [if_pos hd]
    exact .silent h rfl
  rw [if_neg hd]
  by_cases hfull : limit ≤ buffer.length
  · rw [if_pos hfull]
    refine ⟨⟨Nat.zero_le _, fun _ => rfl, nofun⟩, rfl, nofun, fun l hl => ?_⟩
    cases hl
    exact ⟨rfl, rfl⟩
  · rw [if_neg hfull]
    refine .silent ⟨?_, fun hdiscarding => absurd hdiscarding hd, nofun⟩ rfl
    show (buffer ++ [b]).length ≤ limit
    rw [List.length_append, List.length_singleton]
    omega

theorem store_held (f : Framer) (b : UInt8) : (f.store b).1.held = f.held := by
  unfold store
  split
  · rfl
  · split <;> rfl

theorem Bounded.finish_keeps (h : f.Bounded) : Keeps f.framing f.finish := by
  unfold finish
  split
  · exact .silent ⟨Nat.zero_le _, fun _ => rfl, h.held_pair⟩ rfl
  · refine ⟨⟨Nat.zero_le _, fun _ => rfl, h.held_pair⟩, rfl, fun line hline => ?_, nofun⟩
    cases hline
    exact h.fits

variable (hlimit : 1 ≤ f.limit)
include hlimit

/-- A prompt is a line of one byte. -/
theorem Bounded.accept_keeps (h : f.Bounded) (hheld : f.held = false) (b : UInt8) :
    Keeps f.framing (f.accept b) := by
  unfold accept
  split
  · refine ⟨h, rfl, fun line hline => ?_, nofun⟩
    cases hline
    exact hlimit
  · exact h.store_keeps hheld b

theorem Bounded.acceptOrHold_keeps (h : f.Bounded) (hheld : f.held = false) {first second : UInt8}
    (hpair : f.terminators = .pair first second) (b : UInt8) :
    Keeps f.framing (f.acceptOrHold first b) := by
  unfold acceptOrHold
  split
  · exact .silent ⟨h.fits, h.discarded, fun _ => ⟨first, second, hpair⟩⟩ rfl
  · exact h.accept_keeps hlimit hheld b

/-- **Every byte keeps the bounds.** -/
theorem Bounded.push_keeps (h : f.Bounded) (b : UInt8) : Keeps f.framing (f.push b) := by
  obtain ⟨t, limit, prompt, buffer, held, discarding⟩ := f
  cases t with
  | single last =>
    have hheld : held = false := by
      cases held with
      | false => rfl
      | true => obtain ⟨_, _, hpair⟩ := h.held_pair rfl; cases hpair
    simp only [push]
    split
    · exact h.finish_keeps
    · exact h.accept_keeps hlimit hheld b
  | pair first second =>
    cases held with
    | false => exact h.acceptOrHold_keeps hlimit rfl rfl b
    | true =>
      have hfree : Bounded ⟨.pair first second, limit, prompt, buffer, false, discarding⟩ :=
        ⟨h.fits, h.discarded, fun hheld => absurd hheld Bool.false_ne_true⟩
      simp only [push, if_true]
      split
      · exact hfree.finish_keeps
      · -- the byte held back was data: it is stored first, and a report of it ends the step
        have hstore := hfree.store_keeps rfl first
        have hfree' := store_held ⟨.pair first second, limit, prompt, buffer, false, discarding⟩ first
        cases hresult : store ⟨.pair first second, limit, prompt, buffer, false, discarding⟩ first with
        | mk f' out =>
          rw [hresult] at hstore hfree'
          cases out with
          | some report => exact hstore
          | none =>
            have hg : f'.framing = ⟨.pair first second, limit, prompt⟩ := hstore.framing_eq
            have hpair : f'.terminators = .pair first second := congrArg Framing.terminators hg
            have hsame : f'.limit = limit := congrArg Framing.lineLimit hg
            have hkeeps := hstore.bounded.acceptOrHold_keeps (hsame ▸ hlimit) hfree' hpair b
            rw [hg] at hkeeps
            exact hkeeps

end Step

/-- **Bounds along a run.** The limit stays what it is. -/
theorem Run.bounded {f f' : Framer} {log : List Happening} (h : Run f log f') (hbounded : f.Bounded)
    (hlimit : 1 ≤ f.limit) : f'.Bounded ∧ f'.limit = f.limit := by
  induction h with
  | nil f => exact ⟨hbounded, rfl⟩
  | @byte f f' log b h ih =>
    have hkeeps := hbounded.push_keeps hlimit b
    have hsame : (f.push b).1.limit = f.limit := congrArg Framing.lineLimit hkeeps.framing_eq
    obtain ⟨hbounded', hlimit'⟩ := ih hkeeps.bounded (hsame ▸ hlimit)
    exact ⟨hbounded', hlimit'.trans hsame⟩
  | afresh t h ih => exact ih (bounded_new ⟨t, _, _⟩) hlimit

/-! ## Throwing a line away -/

/-- **A framer that throws a line away** and has seen these bytes of it since the report. -/
structure Skipping (f : Framer) (seen : Bytes) : Prop where
  discarding_eq : f.discarding = true
  /-- no terminator has gone by -/
  seen_open : ¬ f.terminators.bytes <:+: seen
  /-- the first byte of a pair is held back exactly if it is the last one that came -/
  held_iff : f.held = true ↔ ∃ first second, f.terminators = .pair first second
    ∧ seen.getLast? = some first

theorem skipping_new (g : Framing) : Skipping { new g with discarding := true } [] :=
  ⟨rfl, g.terminators.not_infix_nil, iff_of_false nofun (fun ⟨_, _, _, hlast⟩ => nomatch hlast)⟩

/-- **What one byte of a line that is thrown away comes to:** nothing is handed out. -/
inductive Skips (g : Framing) (seen : Bytes) (b : UInt8) : Framer → Option Framed → Prop where
  /-- the line goes on -/
  | on (f : Framer) (hskip : f.Skipping (seen ++ [b])) (hg : f.framing = g) : Skips g seen b f none
  /-- the line has ended at the first terminator behind the report -/
  | ended (more : Bytes) (hmore : g.terminators.IsWireLine more)
    (hwhole : seen ++ [b] = more ++ g.terminators.bytes) : Skips g seen b (new g) none

theorem Skips.out_eq_none {g : Framing} {seen : Bytes} {b : UInt8} {f : Framer} {out : Option Framed}
    (h : Skips g seen b f out) : out = none := by
  cases h <;> rfl

theorem accept_of_discarding {f : Framer} (h : f.discarding = true) (b : UInt8) :
    f.accept b = (f, none) := by
  unfold accept store
  rw [h]
  rfl

section Skip

variable {limit : Nat} {prompt : Option UInt8} {buffer seen : Bytes} {held : Bool}

theorem Skipping.push_single {last : UInt8}
    (h : Skipping ⟨.single last, limit, prompt, buffer, held, true⟩ seen) (b : UInt8) :
    Skips ⟨.single last, limit, prompt⟩ seen b
      (push ⟨.single last, limit, prompt, buffer, held, true⟩ b).1
      (push ⟨.single last, limit, prompt, buffer, held, true⟩ b).2 := by
  have hopen : ¬ (Terminators.single last).bytes <:+: seen := h.seen_open
  obtain rfl : held = false := by
    rw [Bool.eq_false_iff]
    intro hheld
    obtain ⟨_, _, hpair, -⟩ := h.held_iff.mp hheld
    cases hpair
  by_cases hb : b = last
  · simp only [Framer.push, if_pos hb, finish, if_true]
    refine .ended seen (Terminators.isWireLine_of_unended ?_) (congrArg (seen ++ [·]) hb)
    rw [show (Terminators.single last).bytes.dropLast = [] from rfl, List.append_nil]
    exact hopen
  · simp only [Framer.push, if_neg hb, accept_of_discarding]
    refine .on _ ⟨rfl, Terminators.not_infix_concat_single hopen hb, ?_⟩ rfl
    constructor
    · intro hheld
      cases hheld
    · rintro ⟨_, _, hpair, -⟩
      cases hpair

/-- A byte that completes no pair. A byte held back before is lost with the line. -/
theorem push_of_discarding {first second b : UInt8} (hb : held = true → b ≠ second) :
    push ⟨.pair first second, limit, prompt, buffer, held, true⟩ b
      = (⟨.pair first second, limit, prompt, buffer, decide (b = first), true⟩, none) := by
  have hhold : acceptOrHold ⟨.pair first second, limit, prompt, buffer, false, true⟩ first b
      = (⟨.pair first second, limit, prompt, buffer, decide (b = first), true⟩, none) := by
    by_cases hfirst : b = first
    · simp only [acceptOrHold, hfirst, if_true, decide_true]
    · simp only [acceptOrHold, hfirst, if_false, accept_of_discarding, decide_false]
  cases held with
  | false => exact hhold
  | true => simp only [Framer.push, if_true, if_neg (hb rfl), store, hhold]

theorem Skipping.push_pair {first second : UInt8}
    (h : Skipping ⟨.pair first second, limit, prompt, buffer, held, true⟩ seen) (b : UInt8) :
    Skips ⟨.pair first second, limit, prompt⟩ seen b
      (push ⟨.pair first second, limit, prompt, buffer, held, true⟩ b).1
      (push ⟨.pair first second, limit, prompt, buffer, held, true⟩ b).2 := by
  have hopen : ¬ (Terminators.pair first second).bytes <:+: seen := h.seen_open
  have hlast : held = true ↔ seen.getLast? = some first := by
    refine h.held_iff.trans ⟨?_, fun hlast => ⟨first, second, rfl, hlast⟩⟩
    rintro ⟨_, _, hpair, hlast⟩
    cases hpair
    exact hlast
  by_cases hend : held = true ∧ b = second
  · obtain ⟨rfl, rfl⟩ := hend
    -- the byte held back is the first one of the pair, so the line has ended before it
    obtain ⟨more, rfl⟩ : ∃ more, seen = more ++ [first] := List.getLast?_eq_some_iff.mp (hlast.mp rfl)
    simp only [Framer.push, if_true, finish]
    exact .ended more (Terminators.isWireLine_of_unended hopen) (List.append_assoc _ _ _)
  · rw [push_of_discarding fun hheld hb => hend ⟨hheld, hb⟩]
    refine .on _ ⟨rfl, ?_, ?_⟩ rfl
    · exact Terminators.not_infix_concat_pair hopen fun h hb => hend ⟨hlast.mpr h, hb⟩
    · rw [List.getLast?_concat]
      constructor
      · exact fun hb => ⟨first, second, rfl, congrArg some (of_decide_eq_true hb)⟩
      · rintro ⟨_, _, hpair, hb⟩
        cases hpair
        exact decide_eq_true (Option.some.inj hb)

end Skip

theorem Skipping.push_skips {f : Framer} {seen : Bytes} (h : f.Skipping seen) (b : UInt8) :
    Skips f.framing seen b (f.push b).1 (f.push b).2 := by
  obtain ⟨t, limit, prompt, buffer, held, discarding⟩ := f
  obtain rfl : discarding = true := h.discarding_eq
  cases t with
  | single last => exact h.push_single b
  | pair first second => exact h.push_pair b

/-- **Until a terminator has gone by** nothing is handed out, and the line is still thrown away. -/
theorem Skipping.run {f f' : Framer} {seen : Bytes} {log : List Happening} (h : f.Skipping seen)
    (hrun : Run f log f') (hunbroken : Unbroken log)
    (hopen : ¬ f.terminators.bytes <:+: seen ++ bytes log) : f'.Skipping (seen ++ bytes log) := by
  induction hrun generalizing seen with
  | nil f =>
    rw [show bytes [] = [] from rfl, List.append_nil]
    exact h
  | @byte f f' log b hrun ih =>
    have hbytes : seen ++ bytes (.byte b (f.push b).2 :: log) = seen ++ [b] ++ bytes log :=
      List.append_cons seen b (bytes log)
    rw [hbytes] at hopen ⊢
    have hmoves := h.push_skips b
    generalize (f.push b).1 = next at hmoves hrun ih
    generalize (f.push b).2 = out at hmoves hunbroken
    cases hmoves with
    | on _ hskip hg =>
      have hsame : next.terminators = f.terminators := congrArg Framing.terminators hg
      exact ih hskip (fun t ht => hunbroken t (List.mem_cons_of_mem _ ht)) (hsame ▸ hopen)
    | ended more hmore hwhole =>
      -- the terminator that has ended the line is among the bytes
      rw [hwhole] at hopen
      exact absurd (List.infix_append more _ (bytes log)) hopen
  | afresh t hrun ih => exact absurd List.mem_cons_self (hunbroken t)

/-! ## Records of lines -/

/-- **The record of a line** that has ended. -/
inductive LineRecord (g : Framing) : List Happening → Prop where
  /-- a line that is handed out with its last byte: it is the bytes before its end -/
  | delivered {front line : Bytes} {last : UInt8} (hline : g.terminators.IsWireLine line)
    (hfits : line.length ≤ g.lineLimit) (hwhole : front ++ [last] = line ++ g.ending line) :
    LineRecord g (quiet front ++ [.byte last (some (.line line))])
  /-- a line that is too long: it is reported once, and ends at the first terminator behind that -/
  | thrown {front more : Bytes} {b : UInt8} (hlong : g.lineLimit ≤ front.length)
    (hopen : ¬ g.terminators.bytes <:+: front ++ [b]) (hmore : g.terminators.IsWireLine more) :
    LineRecord g (quiet front ++ .byte b (some (.overlong g.lineLimit))
      :: quiet (more ++ g.terminators.bytes))

/-- **The record of a line that has not ended.** -/
inductive OpenRecord (g : Framing) : List Happening → Prop where
  | begun {front : Bytes} (hopen : ¬ g.terminators.bytes <:+: front) : OpenRecord g (quiet front)
  /-- it has been reported already -/
  | thrown {front more : Bytes} {b : UInt8} (hlong : g.lineLimit ≤ front.length)
    (hopen : ¬ g.terminators.bytes <:+: front ++ [b]) (hmore : ¬ g.terminators.bytes <:+: more) :
    OpenRecord g (quiet front ++ .byte b (some (.overlong g.lineLimit)) :: quiet more)

/-- **A record of lines.** The last one may not have ended, nor has one where the framer starts afresh. -/
inductive Lined : Framing → List Happening → Prop where
  | rest {g : Framing} {log : List Happening} (h : OpenRecord g log) : Lined g log
  | line {g : Framing} {log more : List Happening} (h : LineRecord g log) (hmore : Lined g more) :
    Lined g (log ++ more)
  | afresh {g : Framing} {log more : List Happening} (t : Terminators) (h : OpenRecord g log)
    (hmore : Lined { g with terminators := t } more) : Lined g (log ++ .afresh t :: more)

/-- **Where a framer is,** by the record of the line that it is in the middle of. -/
inductive Midway (g : Framing) : Framer → List Happening → Prop where
  | collecting {f : Framer} (hg : f.framing = g) (hclean : f.Clean) : Midway g f (quiet f.unended)
  | skipping {f : Framer} {front more : Bytes} {b : UInt8} (hg : f.framing = g)
    (hlong : g.lineLimit ≤ front.length) (hopen : ¬ g.terminators.bytes <:+: front ++ [b])
    (hskip : f.Skipping more) :
    Midway g f (quiet front ++ .byte b (some (.overlong g.lineLimit)) :: quiet more)

theorem Midway.openRecord {g : Framing} {f : Framer} {log : List Happening} (h : Midway g f log) :
    OpenRecord g log := by
  cases h with
  | collecting hg hclean =>
    subst hg
    exact .begun hclean.unended_open
  | skipping hg hlong hopen hskip =>
    subst hg
    exact .thrown hlong hopen hskip.seen_open

theorem midway_new (g : Framing) : Midway g (new g) [] :=
  .collecting rfl (clean_of_empty (new g) rfl rfl rfl).1

/-! ## One byte on the record -/

theorem limit_le_of_store {f : Framer} {b : UInt8} {limit : Nat}
    (h : (f.store b).2 = some (.overlong limit)) : f.limit ≤ f.buffer.length := by
  unfold store at h
  split at h
  · cases h
  · split at h
    · assumption
    · cases h

theorem limit_le_of_accept {f : Framer} {b : UInt8} {limit : Nat}
    (h : (f.accept b).2 = some (.overlong limit)) : f.limit ≤ f.buffer.length := by
  unfold accept at h
  split at h
  · cases h
  · exact limit_le_of_store h

theorem limit_le_of_acceptOrHold {f : Framer} {first b : UInt8} {limit : Nat}
    (h : (f.acceptOrHold first b).2 = some (.overlong limit)) : f.limit ≤ f.buffer.length := by
  unfold acceptOrHold at h
  split at h
  · cases h
  · exact limit_le_of_accept h

/-- **A report is no mistake:** the line is longer than the limit, and has not ended. -/
theorem Clean.of_overlong {f : Framer} (h : f.Clean) {b : UInt8} {limit : Nat}
    (hout : (f.push b).2 = some (.overlong limit)) :
    f.limit ≤ f.unended.length ∧ ¬ f.terminators.bytes <:+: f.unended ++ [b] := by
  obtain ⟨t, size, prompt, buffer, held, discarding⟩ := f
  obtain rfl : discarding = false := h.discarding_eq
  have hopen := h.unended_open
  cases t with
  | single last =>
    obtain rfl : held = false := h.not_held rfl
    rw [unended_of_free rfl] at hopen ⊢
    by_cases hb : b = last
    · simp only [push, if_pos hb] at hout
      cases hout
    · simp only [push, if_neg hb] at hout
      exact ⟨limit_le_of_accept hout, Terminators.not_infix_concat_single hopen hb⟩
  | pair first second =>
    cases held with
    | false =>
      rw [unended_of_free rfl] at hopen ⊢
      refine ⟨limit_le_of_acceptOrHold hout, Terminators.not_infix_concat_pair hopen fun hlast => ?_⟩
      exact absurd hlast (h.last_held first second rfl rfl)
    | true =>
      by_cases hb : b = second
      · simp only [push, if_true, if_pos hb] at hout
        cases hout
      · refine ⟨?_, Terminators.not_infix_concat_pair hopen fun _ => hb⟩
        show size ≤ (buffer ++ [first]).length
        -- it may be the byte held back that is too much, or the one behind it
        by_cases hfull : size ≤ buffer.length
        · rw [List.length_append]
          omega
        · simp only [push, if_true, if_neg hb, store, Bool.false_eq_true, if_false, if_neg hfull] at hout
          exact limit_le_of_acceptOrHold hout

/-- **One byte on the record.** Either the line goes on, or it has ended and the framer is at the start of the
next one. -/
theorem Midway.push {g : Framing} {f : Framer} {log : List Happening} (h : Midway g f log)
    (hbounded : f.Bounded) (hlimit : 1 ≤ g.lineLimit) (b : UInt8) :
    Midway g (f.push b).1 (log ++ [.byte b (f.push b).2])
      ∨ LineRecord g (log ++ [.byte b (f.push b).2]) ∧ Midway g (f.push b).1 [] := by
  cases h with
  | collecting hg hclean =>
    subst hg
    have hmoves := hclean.push_moves b
    have hkeeps := hbounded.push_keeps hlimit b
    have hreport (limit : Nat) (hout : (f.push b).2 = some (.overlong limit)) :=
      hclean.of_overlong hout
    generalize f.push b = r at hmoves hkeeps hreport
    obtain ⟨f', out⟩ := r
    cases hmoves with
    | on hclean' hg' hu =>
      left
      rw [← quiet_concat, ← hu]
      exact .collecting hg' hclean'
    | ended line hclean' hg' hu hline hprompt hwhole =>
      refine .inr ⟨.delivered hline (hkeeps.line_fits line rfl) hwhole, ?_⟩
      have hmid := Midway.collecting hg' hclean'
      rw [hu] at hmid
      exact hmid
    | overlong limit =>
      -- nothing of the line is kept, and nothing of what comes has been seen
      left
      obtain ⟨rfl, rfl⟩ := hkeeps.report limit rfl
      obtain ⟨hlong, hopen⟩ := hreport _ rfl
      refine .skipping ?_ hlong hopen (skipping_new f.framing)
      rfl
  | @skipping front more b' hg hlong hopen hskip =>
    subst hg
    have hskips := hskip.push_skips b
    have hlog (out : Option Framed) :
        quiet front ++ .byte b' (some (.overlong f.framing.lineLimit)) :: quiet more ++ [.byte b out]
          = quiet front ++ .byte b' (some (.overlong f.framing.lineLimit))
            :: (quiet more ++ [.byte b out]) := List.append_assoc _ _ _
    rw [hlog]
    -- the report stays the only one: what comes is added behind it
    generalize f.push b = r at hskips
    obtain ⟨f', out⟩ := r
    cases hskips with
    | on _ hskip' hg' =>
      left
      rw [← quiet_concat]
      exact .skipping hg' hlong hopen hskip'
    | ended rest hrest hwhole =>
      right
      rw [← quiet_concat, hwhole]
      exact ⟨.thrown hlong hopen hrest, midway_new f.framing⟩

/-! ## Between two entries -/

theorem Run.of_byte {f f' : Framer} {log : List Happening} {b : UInt8} {out : Option Framed}
    (h : Run f (.byte b out :: log) f') : out = (f.push b).2 ∧ Run (f.push b).1 log f' := by
  generalize hlog : Happening.byte b out :: log = whole at h
  cases h with
  | nil => cases hlog
  | byte b' h =>
    cases hlog
    exact ⟨rfl, h⟩
  | afresh => cases hlog

/-- The terminators are those of the last fresh start. -/
theorem Run.terminators_eq {f f' : Framer} {log : List Happening} (h : Run f log f')
    (hbounded : f.Bounded) (hlimit : 1 ≤ f.limit) : f'.terminators = inForce f.terminators log := by
  induction h with
  | nil f => rfl
  | @byte f f' log b h ih =>
    have hkeeps := hbounded.push_keeps hlimit b
    have hsame : (f.push b).1.limit = f.limit := congrArg Framing.lineLimit hkeeps.framing_eq
    have hterminators : (f.push b).1.terminators = f.terminators :=
      congrArg Framing.terminators hkeeps.framing_eq
    rw [ih hkeeps.bounded (hsame ▸ hlimit), hterminators, inForce]
  | afresh t h ih => exact ih (bounded_new ⟨t, _, _⟩) hlimit

/-- **Behind a report** nothing is handed out before a terminator has gone by. -/
theorem Run.terminator_between {f f' : Framer} {b c : UInt8} {limit : Nat} {out : Framed}
    {between after : List Happening}
    (h : Run f (.byte b (some (.overlong limit)) :: (between ++ .byte c (some out) :: after)) f')
    (hbounded : f.Bounded) (hlimit : 1 ≤ f.limit) (hunbroken : Unbroken between) :
    f.terminators.bytes <:+: bytes between := by
  obtain ⟨hreport, hmore⟩ := h.of_byte
  obtain ⟨f₂, hbetween, hafter⟩ := hmore.of_append
  obtain ⟨hout, -⟩ := hafter.of_byte
  obtain ⟨-, hskipping⟩ := (hbounded.push_keeps hlimit b).report limit hreport.symm
  apply Classical.byContradiction
  intro hopen
  -- otherwise the line would still be thrown away, and nothing would have been handed out
  have hskip : (f.push b).1.Skipping [] := hskipping ▸ skipping_new f.framing
  have hskip' := hskip.run hbetween hunbroken (by rw [hskipping]; exact hopen)
  have hnone := (hskip'.push_skips c).out_eq_none
  rw [← hout] at hnone
  cases hnone

/-! ## The whole record -/

theorem LineRecord.line_fits {g : Framing} {log : List Happening} (h : LineRecord g log) {line : Bytes}
    (hline : .line line ∈ log.filterMap out?) : line.length ≤ g.lineLimit := by
  cases h with
  | @delivered _ _ last _ hfits _ =>
    rw [List.filterMap_append, filterMap_quiet, List.nil_append] at hline
    rw [Framed.line.inj (List.mem_singleton.mp hline)]
    exact hfits
  | thrown hlong hopen hmore =>
    rw [filterMap_reported] at hline
    cases List.mem_singleton.mp hline

theorem OpenRecord.no_line {g : Framing} {log : List Happening} (h : OpenRecord g log) (line : Bytes) :
    .line line ∉ log.filterMap out? := by
  intro hline
  cases h with
  | begun hopen =>
    rw [filterMap_quiet] at hline
    cases hline
  | thrown hlong hopen hmore =>
    rw [filterMap_reported] at hline
    cases List.mem_singleton.mp hline

/-- On a record of lines each line that is handed out is within the limit. -/
theorem Lined.line_fits {g : Framing} {log : List Happening} (h : Lined g log) {line : Bytes}
    (hline : .line line ∈ log.filterMap out?) : line.length ≤ g.lineLimit := by
  induction h with
  | rest hopen => exact absurd hline (hopen.no_line line)
  | line hrecord _ ih =>
    rw [List.filterMap_append] at hline
    rcases List.mem_append.mp hline with hhere | hlater
    · exact hrecord.line_fits hhere
    · exact ih hlater
  | afresh t hopen _ ih =>
    rw [List.filterMap_append] at hline
    rcases List.mem_append.mp hline with hhere | hlater
    · exact absurd hhere (hopen.no_line line)
    · exact ih hlater

/-- **A run leaves a record of lines.** The induction is on the run; the bytes since the line began are
carried along. -/
theorem Run.lined {g : Framing} {f f' : Framer} {before log : List Happening} (h : Run f log f')
    (hmid : Midway g f before) (hbounded : f.Bounded) (hg : f.framing = g) (hlimit : 1 ≤ g.lineLimit) :
    Lined g (before ++ log) := by
  induction h generalizing g before with
  | nil f =>
    rw [List.append_nil]
    exact .rest hmid.openRecord
  | @byte f f' log b h ih =>
    have hlimit' : 1 ≤ f.limit := Nat.le_trans hlimit (Nat.le_of_eq (congrArg Framing.lineLimit hg).symm)
    have hkeeps := hbounded.push_keeps hlimit' b
    have hg' := hkeeps.framing_eq.trans hg
    rw [List.append_cons]
    rcases hmid.push hbounded hlimit b with hmid' | ⟨hline, hmid'⟩
    · exact ih hmid' hkeeps.bounded hg' hlimit
    · exact .line hline (ih hmid' hkeeps.bounded hg' hlimit)
  | @afresh f f' log t h ih =>
    subst hg
    exact .afresh t hmid.openRecord
      (ih (midway_new ⟨t, f.limit, f.prompt⟩) (bounded_new ⟨t, f.limit, f.prompt⟩) rfl hlimit)

/-! ## One wire line

A wire line is all that stands before a terminator, whatever the framer makes of it. -/

/-- No terminator in the bytes of a wire line and its end has more of them behind it. -/
theorem not_infix_before_end {t : Terminators} {line front middle back : Bytes} (hline : t.IsWireLine line)
    (hwhole : line ++ t.bytes = front ++ (middle ++ back)) (hback : back ≠ []) :
    ¬ t.bytes <:+: middle := by
  rintro ⟨early, late, hmiddle⟩
  have hsame : front ++ early ++ (t.bytes ++ (late ++ back)) = line ++ (t.bytes ++ []) := by
    rw [List.append_nil, hwhole, ← hmiddle]
    simp only [List.append_assoc]
  have hle := hline.length_le hsame
  have hlength := congrArg List.length hsame
  have hpos := List.length_pos_iff.mpr hback
  simp only [List.length_append, List.length_nil] at hle hlength
  omega

/-- Two reports stand one behind the other. -/
theorem exists_two_reports {log : List Happening} (h : 1 < log.countP isReport) :
    ∃ before b limit between c limit' after, log = before ++ .byte b (some (.overlong limit))
      :: (between ++ .byte c (some (.overlong limit')) :: after) := by
  have hreport {e : Happening} (he : isReport e = true) :
      ∃ b limit, e = .byte b (some (.overlong limit)) := by
    unfold isReport at he
    split at he
    · exact ⟨_, _, rfl⟩
    · cases he
  obtain ⟨e, hfind⟩ : ∃ e, log.find? isReport = some e := by
    rw [← Option.isSome_iff_exists, List.find?_isSome, ← List.countP_pos_iff]
    omega
  obtain ⟨he, before, more, rfl, hnone⟩ := List.find?_eq_some_iff_append.mp hfind
  rw [List.countP_append, List.countP_cons_of_pos he,
    List.countP_eq_zero.mpr fun e he => by simpa using hnone e he] at h
  obtain ⟨e', hmem, he'⟩ := List.countP_pos_iff.mp (show 0 < more.countP isReport by omega)
  obtain ⟨between, after, rfl⟩ := List.append_of_mem hmem
  obtain ⟨b, limit, rfl⟩ := hreport he
  obtain ⟨c, limit', rfl⟩ := hreport he'
  exact ⟨before, b, limit, between, c, limit', after, rfl⟩

theorem Run.reports_le_one {f f' : Framer} {part : List Happening} {line : Bytes} (h : Run f part f')
    (hbounded : f.Bounded) (hlimit : 1 ≤ f.limit) (hunbroken : Unbroken part)
    (hline : f.terminators.IsWireLine line) (hbytes : bytes part = line ++ f.terminators.bytes) :
    part.countP isReport ≤ 1 := by
  apply Nat.le_of_not_lt
  intro htwo
  -- a terminator between two reports would be one before the end of the line
  obtain ⟨before, b, limit, between, c, limit', after, rfl⟩ := exists_two_reports htwo
  obtain ⟨f₁, hbefore, hbehind⟩ := h.of_append
  have hunbroken₁ : Unbroken before := fun t ht => hunbroken t (List.mem_append_left _ ht)
  have hunbroken₂ : Unbroken between := fun t ht => hunbroken t (by simp [ht])
  obtain ⟨hbounded₁, hlimit₁⟩ := hbefore.bounded hbounded hlimit
  have hterminators : f₁.terminators = f.terminators := by
    rw [hbefore.terminators_eq hbounded hlimit, inForce_of_unbroken hunbroken₁]
  have hbetween := hbehind.terminator_between hbounded₁ (hlimit₁ ▸ hlimit) hunbroken₂
  rw [hterminators] at hbetween
  have hwhole : line ++ f.terminators.bytes
      = bytes before ++ [b] ++ (bytes between ++ c :: bytes after) := by
    rw [← hbytes]
    simp [bytes, byte?]
  exact not_infix_before_end hline hwhole (List.cons_ne_nil _ _) hbetween

/-! ## Every operation -/

/-- **Overlong lines are kept apart.** Whatever is done with a framer:

* the buffer is never longer than the limit and is empty while a line is thrown away, and only the first byte
  of a pair is held back;
* the record tells all that is handed out, and no line that is handed out is longer than the limit;
* between a report and whatever is handed out next, which may be another report, there is a terminator, unless
  the framer is made to start afresh;
* a wire line is reported at most once, wherever it stands;
* the record is one of lines. -/
theorem overlong_kept_apart (g : Framing) (hlimit : 1 ≤ g.lineLimit) (ops : List Operation) :
    let f := ((new g).performAll ops).1
    let outs := ((new g).performAll ops).2
    let log := (new g).record ops
    (f.buffer.length ≤ g.lineLimit ∧ (f.discarding = true → f.buffer = [])
        ∧ (f.held = true → ∃ first second, f.terminators = .pair first second))
      ∧ (log.filterMap out? = outs ∧ ∀ line, .line line ∈ outs → line.length ≤ g.lineLimit)
      ∧ (∀ before b limit between c out after,
        log = before ++ .byte b (some (.overlong limit)) :: (between ++ .byte c (some out) :: after) →
          Unbroken between → (inForce g.terminators before).bytes <:+: bytes between)
      ∧ (∀ before part after line, log = before ++ (part ++ after) → Unbroken part →
        (inForce g.terminators before).IsWireLine line →
          bytes part = line ++ (inForce g.terminators before).bytes → part.countP isReport ≤ 1)
      ∧ Lined g log := by
  intro f outs log
  have hrun : Run (new g) log f := run_record (new g) ops
  have hout : log.filterMap out? = outs := out_record (new g) ops
  have hbounded := bounded_new g
  obtain ⟨hbounded', hlimit'⟩ := hrun.bounded hbounded hlimit
  have hlined : Lined g log := hrun.lined (midway_new g) hbounded rfl hlimit
  refine ⟨⟨Nat.le_trans hbounded'.fits (Nat.le_of_eq hlimit'), hbounded'.discarded, hbounded'.held_pair⟩,
    ⟨hout, fun line hline => hlined.line_fits (hout ▸ hline)⟩, ?_, ?_, hlined⟩
  · intro before b limit between c out after hlog hunbroken
    rw [hlog] at hrun
    obtain ⟨f₁, hbefore, hbehind⟩ := hrun.of_append
    obtain ⟨hbounded₁, hlimit₁⟩ := hbefore.bounded hbounded hlimit
    have hbetween := hbehind.terminator_between hbounded₁ (hlimit₁ ▸ hlimit) hunbroken
    rw [hbefore.terminators_eq hbounded hlimit] at hbetween
    exact hbetween
  · intro before part after line hlog hunbroken hline hbytes
    rw [hlog] at hrun
    obtain ⟨f₁, hbefore, hbehind⟩ := hrun.of_append
    obtain ⟨f₂, hpart, -⟩ := hbehind.of_append
    obtain ⟨hbounded₁, hlimit₁⟩ := hbefore.bounded hbounded hlimit
    have hterminators := hbefore.terminators_eq hbounded hlimit
    rw [show (new g).terminators = g.terminators from rfl] at hterminators
    rw [← hterminators] at hline hbytes
    exact hpart.reports_le_one hbounded₁ (hlimit₁ ▸ hlimit) hunbroken hline hbytes

/-- Two lines of three bytes are too long for two. The second one has come in two pieces, and between the
reports there is the end of the first one. -/
theorem overlong_kept_apart_crlf :
    ((new ⟨.crlf, 2, none⟩).performAll [.feed [97, 98, 99, 13, 10, 100], .feed [101], .push 102]).2
        = [.overlong 2, .overlong 2]
      ∧ Terminators.crlf.bytes <:+: [13, 10, 100, 101] := by
  refine ⟨by decide, ?_⟩
  exact (overlong_kept_apart ⟨.crlf, 2, none⟩ (by decide)
    [.feed [97, 98, 99, 13, 10, 100], .feed [101], .push 102]).2.2.1 (quiet [97, 98]) 99 2
      (quiet [13, 10, 100, 101]) 102 (.overlong 2) [] (by decide) (fun t ht => by simp [quiet] at ht)

end Framer

end ModemLink
