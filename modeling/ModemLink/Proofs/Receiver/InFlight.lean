/-
What bytes do to the command in flight.

A line can end the command in flight or add to its reply, and nothing else that a receive path does
touches the tracker. `Tracker.Follows` says so for one item, and because it can be composed, for any
number of bytes: there is one resolution at most, and it carries the number and the name of the
command that was in flight.
-/
import ModemLink.Proofs.Receiver.Handled

set_option autoImplicit false

namespace ModemLink

/-! ## Resolutions among outputs -/

/-- The resolution that an output is, if it is one. -/
def Output.resolution? {ε : Type} : Output ε → Option Resolution
  | .resolved r => some r
  | .event _ => none

/-- The resolutions among some outputs. -/
def Output.resolutions {ε : Type} (outs : List (Output ε)) : List Resolution :=
  outs.filterMap Output.resolution?

@[simp] theorem Output.resolutions_append {ε : Type} (a b : List (Output ε)) :
    resolutions (a ++ b) = resolutions a ++ resolutions b :=
  List.filterMap_append

/-! ## The tracker -/

/-- The number of the command in flight, if there is one. -/
def Tracker.inFlight (t : Tracker) : List Nat := (t.current.map Pending.number).toList

theorem Tracker.cancel_inFlight (t : Tracker) (number : Nat) :
    (t.cancel number).2.inFlight = t.inFlight.filter (· != number) := by
  unfold Tracker.cancel Tracker.inFlight
  cases h : t.current with
  | none => simp [h]
  | some p => by_cases hp : p.number = number <;> simp [h, hp]

theorem Tracker.cancel_next (t : Tracker) (number : Nat) :
    (t.cancel number).2.next = t.next := by
  unfold Tracker.cancel
  by_cases h : t.current.map Pending.number = some number
  · rw [if_pos h]
  · rw [if_neg h]

/-- **What bytes do to the tracker.** Without a command in flight they do nothing. The command in
flight keeps its number and its name, or it ends, with one resolution that carries both. -/
inductive Tracker.Follows (t t' : Tracker) : List Resolution → Prop where
  | idle (h : t.current = none) (h' : t'.current = none) (hnext : t'.next = t.next) :
    Follows t t' []
  | kept (p p' : Pending) (h : t.current = some p) (h' : t'.current = some p')
    (hnumber : p'.number = p.number) (hname : p'.name = p.name) (hnext : t'.next = t.next) :
    Follows t t' []
  | ended (p : Pending) (res : Resolution) (h : t.current = some p) (h' : t'.current = none)
    (hnumber : res.number = p.number) (hname : res.name = p.name)
    (hstatus : res.status.isTerminal = true) (hnext : t'.next = t.next) :
    Follows t t' [res]

namespace Tracker.Follows

theorem refl (t : Tracker) : t.Follows t [] := by
  cases h : t.current with
  | none => exact .idle h h rfl
  | some p => exact .kept p p h h rfl rfl rfl

/-- A command that has ended stays so. -/
theorem trans {t t' t'' : Tracker} {a b : List Resolution} (h : t.Follows t' a)
    (h' : t'.Follows t'' b) : t.Follows t'' (a ++ b) := by
  cases h with
  | idle h1 h2 hn =>
    cases h' with
    | idle h3 h4 hn' => exact .idle h1 h4 (hn'.trans hn)
    | kept p p' h3 => rw [h2] at h3; cases h3
    | ended p res h3 => rw [h2] at h3; cases h3
  | kept p p' h1 h2 hnum hname hn =>
    cases h' with
    | idle h3 => rw [h2] at h3; cases h3
    | kept q q' h3 h4 hnum' hname' hn' =>
      cases h2.symm.trans h3
      exact .kept p q' h1 h4 (hnum'.trans hnum) (hname'.trans hname) (hn'.trans hn)
    | ended q res h3 h4 hnum' hname' hs hn' =>
      cases h2.symm.trans h3
      exact .ended p res h1 h4 (hnum'.trans hnum) (hname'.trans hname) hs (hn'.trans hn)
  | ended p res h1 h2 hnum hname hs hn =>
    cases h' with
    | idle h3 h4 hn' => exact .ended p res h1 h4 hnum hname hs (hn'.trans hn)
    | kept q q' h3 => rw [h2] at h3; cases h3
    | ended q res' h3 => rw [h2] at h3; cases h3

/-- Numbers are not given to requests by bytes. -/
theorem next_eq {t t' : Tracker} {a : List Resolution} (h : t.Follows t' a) : t'.next = t.next := by
  cases h <;> assumption

/-- **One place for a number.** The number in flight stays there or moves to a resolution. -/
theorem count_eq {t t' : Tracker} {a : List Resolution} (h : t.Follows t' a) (n : Nat) :
    t'.inFlight.count n + (a.map Resolution.number).count n = t.inFlight.count n := by
  unfold Tracker.inFlight
  cases h with
  | idle h h' => rw [h, h']; rfl
  | kept p p' h h' hnumber => rw [h, h', Option.map_some, Option.map_some, hnumber]; rfl
  | ended p res h h' hnumber =>
    rw [h, h', Option.map_some, ← hnumber]
    exact Nat.zero_add _

/-- Without a resolution the number in flight is the same. -/
theorem inFlight_eq {t t' : Tracker} (h : t.Follows t' []) : t'.inFlight = t.inFlight := by
  unfold Tracker.inFlight
  cases h with
  | idle h h' => rw [h, h']
  | kept p p' h h' hnumber => rw [h, h', Option.map_some, Option.map_some, hnumber]

/-- One resolution at most, and it carries the number in flight. -/
theorem of_append_cons {t t' : Tracker} {a b : List Resolution} {res : Resolution}
    (h : t.Follows t' (a ++ res :: b)) :
    a = [] ∧ ∃ p, t.current = some p ∧ res.number = p.number := by
  generalize hall : a ++ res :: b = all at h
  cases h with
  | idle => simp at hall
  | kept => simp at hall
  | ended p only h h' hnumber =>
    cases a with
    | nil =>
      cases hall
      exact ⟨rfl, p, h, hnumber⟩
    | cons x xs => simp at hall

/-- A command in flight was there before, under its number and its name. -/
theorem exists_before {t t' : Tracker} {a : List Resolution} (h : t.Follows t' a) {p' : Pending}
    (hp' : t'.current = some p') :
    ∃ p, t.current = some p ∧ p'.number = p.number ∧ p'.name = p.name := by
  cases h with
  | idle h h' => rw [h'] at hp'; cases hp'
  | kept p q h h' hnumber hname =>
    cases h'.symm.trans hp'
    exact ⟨p, h, hnumber, hname⟩
  | ended p res h h' => rw [h'] at hp'; cases hp'

end Tracker.Follows

/-! ## Items and bytes -/

namespace Receiver

variable {ε : Type}

/-- A line of the reply keeps the command. -/
theorem append_follows (t : Tracker) (text : Text) : t.Follows (t.append text) [] := by
  unfold Tracker.append
  cases h : t.current with
  | none => exact .idle h rfl rfl
  | some p => exact .kept p (p.append t.capacity text) h rfl rfl rfl rfl

theorem Handled.follows {r r' : Receiver ε} {item : Framed} {out : Option (Output ε)}
    (h : Handled r item r' out) :
    r.tracker.Follows r'.tracker (Output.resolutions out.toList) := by
  cases h with
  | confirmed raw p status failure hl hk hp ht => exact .ended p _ hp rfl rfl rfl ht rfl
  | body raw text hl hk => exact append_follows r.tracker text
  | _ => exact .refl r.tracker

theorem push_follows (r : Receiver ε) (b : UInt8) :
    r.tracker.Follows (r.push b).1.tracker (Output.resolutions (r.push b).2.toList) := by
  cases h : (r.framer.push b).2 with
  | none =>
    rw [push_of_none h]
    exact .refl r.tracker
  | some item =>
    rw [push_of_some h]
    exact (handle_handled { r with framer := (r.framer.push b).1 } item).follows

/-- **What bytes do to the command in flight.** -/
theorem feed_follows (r : Receiver ε) (bytes : Bytes) :
    r.tracker.Follows (r.feed bytes).1.tracker (Output.resolutions (r.feed bytes).2) := by
  induction bytes generalizing r with
  | nil => exact .refl r.tracker
  | cons b bytes ih =>
    have h := (push_follows r b).trans (ih (r.push b).1)
    rw [← Output.resolutions_append] at h
    exact h

/-- What bytes produce, one of them produces. -/
theorem exists_push_of_mem_feed (r : Receiver ε) {bytes : Bytes} {out : Output ε}
    (h : out ∈ (r.feed bytes).2) :
    ∃ before b after, bytes = before ++ b :: after ∧ ((r.feed before).1.push b).2 = some out := by
  induction bytes generalizing r with
  | nil => cases h
  | cons b bytes ih =>
    rw [feed_cons, List.mem_append, Option.mem_toList] at h
    rcases h with h | h
    · exact ⟨[], b, bytes, rfl, h⟩
    · obtain ⟨before, c, after, rfl, hout⟩ := ih (r.push b).1 h
      exact ⟨b :: before, c, after, rfl, hout⟩

/-- **Where resolutions come from.** A byte that produces one completes a line, and the command in
flight at that moment is what is resolved. -/
theorem push_resolved {r : Receiver ε} {b : UInt8} {res : Resolution}
    (h : (r.push b).2 = some (.resolved res)) :
    ∃ raw p, (r.framer.push b).2 = some (.line raw) ∧ r.tracker.current = some p
      ∧ res = p.resolve res.status res.failure ∧ res.status.isTerminal = true := by
  cases hitem : (r.framer.push b).2 with
  | none =>
    rw [push_of_none hitem] at h
    cases h
  | some item =>
    rw [push_of_some hitem] at h
    have hcases := handle_handled { r with framer := (r.framer.push b).1 } item
    rw [h] at hcases
    generalize (handle item { r with framer := (r.framer.push b).1 }).1 = r' at hcases
    cases hcases with
    | confirmed raw p status failure hl hk hp ht => exact ⟨raw, p, rfl, hp, rfl, ht⟩

end Receiver

end ModemLink
