/-
Replies that do not fit.

A reply has a capacity, and what does not fit is left out. One expects the reply to be cut at one place:
the longest beginning of everything that was said, and nothing behind it. But each piece is cut by
itself. A character of several bytes can be too long for the room that is left, and then there is still
room, which the line break of the next line takes, and perhaps some of that line.

So the reply is the longest beginning that fits exactly if no line but the last one is cut with room to
spare, which is what `CutAtOnce` says. Otherwise it is `Torn`, and stays so.
-/
import Mathlib.Data.List.Induction
import ModemLink.Pending
import ModemLink.Proofs.Text.Fitting

set_option autoImplicit false

namespace ModemLink

/-! ## One piece -/

/-- A piece is added as far as there is room for it. -/
theorem Body.push_text (capacity : Nat) (more : Text) (b : Body) :
    (b.push capacity more).text
      = b.text ++ Text.fitting (capacity - b.text.byteLength) more := by
  unfold Body.push
  by_cases h : more.byteLength ≤ capacity - b.text.byteLength
  · rw [if_pos h, Text.fitting_of_le h]
  · rw [if_neg h]

/-! ## The whole reply -/

/-- **Everything that was said:** the first line without the repeated name and the separators behind it,
and each later line behind a line break. -/
def fullReply (name : Text) : List Text → Text
  | [] => []
  | first :: more => Body.firstLine name first ++ more.flatMap ('\n' :: ·)

theorem fullReply_append {texts : List Text} (h : texts ≠ []) (name : Text) (more : List Text) :
    fullReply name (texts ++ more) = fullReply name texts ++ more.flatMap ('\n' :: ·) := by
  cases texts with
  | nil => exact absurd rfl h
  | cons first texts =>
    simp only [fullReply, List.cons_append, List.flatMap_append, List.append_assoc]

theorem fullReply_concat {texts : List Text} (h : texts ≠ []) (name text : Text) :
    fullReply name (texts ++ [text]) = fullReply name texts ++ '\n' :: text := by
  rw [fullReply_append h, List.flatMap_singleton]

/-- Adds lines of a reply one after the other. -/
def Pending.gather (capacity : Nat) (texts : List Text) (p : Pending) : Pending :=
  texts.foldl (fun p text => p.append capacity text) p

namespace Pending

theorem gather_concat (capacity : Nat) (texts : List Text) (text : Text) (p : Pending) :
    p.gather capacity (texts ++ [text]) = (p.gather capacity texts).append capacity text := by
  unfold gather
  rw [List.foldl_append]
  rfl

theorem gather_lines (capacity : Nat) (texts : List Text) (p : Pending) :
    (p.gather capacity texts).lines = p.lines + texts.length := by
  induction texts using List.reverseRecOn with
  | nil => rfl
  | append_singleton texts text ih =>
    rw [gather_concat, List.length_append, ← Nat.add_assoc, ← ih]
    rfl

/-- Lines change neither the number nor the name of the command. -/
theorem gather_fixed (capacity : Nat) (texts : List Text) (p : Pending) :
    (p.gather capacity texts).number = p.number ∧ (p.gather capacity texts).name = p.name := by
  induction texts using List.reverseRecOn with
  | nil => exact ⟨rfl, rfl⟩
  | append_singleton texts text ih =>
    rw [gather_concat]
    exact ih

/-- The first line is one piece. -/
theorem append_first_text {p : Pending} (h : p.lines = 0) (capacity : Nat) (text : Text) :
    (p.append capacity text).body.text
      = p.body.text ++ Text.fitting (capacity - p.body.text.byteLength)
          (Body.firstLine p.name text) := by
  unfold append
  rw [if_pos h]
  exact Body.push_text capacity _ p.body

/-- Every other line is two pieces: the line break, which takes one byte, and the text. -/
theorem append_more_text {p : Pending} (h : p.lines ≠ 0) (capacity : Nat) (text : Text) :
    (p.append capacity text).body.text
      = if capacity ≤ p.body.text.byteLength then p.body.text
        else p.body.text ++ '\n' ::
          Text.fitting (capacity - p.body.text.byteLength - 1) text := by
  have hbreak : '\n'.utf8Size = 1 := rfl
  unfold append
  rw [if_neg h, Body.push_text, Body.push_text]
  by_cases hfull : capacity ≤ p.body.text.byteLength
  · rw [if_pos hfull, Nat.sub_eq_zero_of_le hfull, Text.fitting_zero, List.append_nil,
      Nat.sub_eq_zero_of_le hfull, Text.fitting_zero, List.append_nil]
  · have hroom : Text.fitting (capacity - p.body.text.byteLength) ['\n'] = ['\n'] := by
      apply Text.fitting_of_le
      rw [Text.byteLength_cons, hbreak, Text.byteLength_nil]
      omega
    rw [if_neg hfull, hroom, Text.byteLength_append, Text.byteLength_cons, hbreak,
      Text.byteLength_nil, Nat.add_zero, ← Nat.sub_sub, List.append_assoc, List.singleton_append]

end Pending

/-! ## Cut or torn -/

/-- **A text leaves no room to spare:** it fits, or a beginning of it fills the capacity. -/
def LeavesNoRoom (capacity : Nat) (full : Text) : Prop :=
  full.byteLength ≤ capacity ∨ ∃ part : Text, part <+: full ∧ part.byteLength = capacity

theorem leavesNoRoom_iff (capacity : Nat) (full : Text) :
    LeavesNoRoom capacity full
      ↔ full.byteLength ≤ capacity ∨ (Text.fitting capacity full).byteLength = capacity := by
  have hlongest := Text.isLongestFit_fitting capacity full
  refine or_congr_right ⟨?_, fun h => ⟨_, hlongest.begins, h⟩⟩
  rintro ⟨part, hpart, hlength⟩
  have hle := Text.byteLength_le_of_begins (hlongest.longest part hpart (Nat.le_of_eq hlength))
  exact Nat.le_antisymm hlongest.fits (hlength ▸ hle)

/-- A reply that is torn: where a character of everything that was said is left out, a line break follows
instead. -/
def Torn (full body : Text) : Prop :=
  ∃ common c left more, full = common ++ c :: left ∧ body = common ++ '\n' :: more ∧ c ≠ '\n'

theorem Torn.append {full body : Text} (h : Torn full body) (more added : Text) :
    Torn (full ++ more) (body ++ added) := by
  obtain ⟨common, c, left, rest, rfl, rfl, hc⟩ := h
  refine ⟨common, c, left ++ more, rest ++ added, ?_, ?_, hc⟩
  · rw [List.append_assoc, List.cons_append]
  · rw [List.append_assoc, List.cons_append]

/-- What is torn begins nothing that was said. -/
theorem Torn.not_begins {full body : Text} (h : Torn full body) : ¬ body <+: full := by
  obtain ⟨common, c, left, more, rfl, rfl, hc⟩ := h
  rw [List.prefix_append_right_inj, List.cons_prefix_cons]
  rintro ⟨rfl, -⟩
  exact hc rfl

/-- The line break has one byte, so a character for which there is too little room is another one. -/
theorem torn_of_room {capacity : Nat} {full : Text} (hlong : capacity < full.byteLength)
    (hroom : (Text.fitting capacity full).byteLength < capacity) (more added : Text) :
    Torn (full ++ more) (Text.fitting capacity full ++ '\n' :: added) := by
  obtain ⟨c, rest, hfull, hc⟩ := Text.exists_of_lt hlong
  refine ⟨Text.fitting capacity full, c, rest ++ more, added, ?_, rfl, ?_⟩
  · rw [← List.cons_append, ← List.append_assoc, ← hfull]
  · rintro rfl
    have hbreak : '\n'.utf8Size = 1 := rfl
    omega

section Gathering

variable {capacity number : Nat} {name : Text}

/-- The reply to a command that has just begun, after some lines. -/
def gathered (capacity number : Nat) (name : Text) (texts : List Text) : Text :=
  ((⟨number, name, {}, 0⟩ : Pending).gather capacity texts).body.text

theorem gathered_singleton (capacity number : Nat) (name text : Text) :
    gathered capacity number name [text] = Text.fitting capacity (fullReply name [text]) := by
  have hfull : fullReply name [text] = Body.firstLine name text := List.append_nil _
  have hfirst := Pending.append_first_text (p := ⟨number, name, {}, 0⟩) rfl capacity text
  rw [hfull]
  exact hfirst

theorem gathered_concat {texts : List Text} (h : texts ≠ []) (text : Text) :
    gathered capacity number name (texts ++ [text])
      = if capacity ≤ (gathered capacity number name texts).byteLength
        then gathered capacity number name texts
        else gathered capacity number name texts ++ '\n' ::
          Text.fitting (capacity - (gathered capacity number name texts).byteLength - 1) text := by
  unfold gathered
  rw [Pending.gather_concat]
  apply Pending.append_more_text
  rw [Pending.gather_lines, Nat.zero_add]
  exact fun hlength => h (List.length_eq_zero_iff.mp hlength)

/-- A reply that was cut so far stays so with one more line, if no room was left over. -/
theorem gathered_concat_cut {texts : List Text} (hne : texts ≠ []) (text : Text)
    (hcut : gathered capacity number name texts = Text.fitting capacity (fullReply name texts))
    (hroom : LeavesNoRoom capacity (fullReply name texts)) :
    gathered capacity number name (texts ++ [text])
      = Text.fitting capacity (fullReply name (texts ++ [text])) := by
  rw [gathered_concat hne, hcut, fullReply_concat hne]
  rw [leavesNoRoom_iff] at hroom
  by_cases hfits : (fullReply name texts).byteLength ≤ capacity
  · -- all of it fitted, so the next line has the room that is left
    rw [Text.fitting_of_le hfits, Text.fitting_append_of_le hfits]
    by_cases hfull : capacity ≤ (fullReply name texts).byteLength
    · rw [if_pos hfull, Nat.sub_eq_zero_of_le hfull, Text.fitting_zero, List.append_nil]
    · have hbreak : '\n'.utf8Size = 1 := rfl
      rw [if_neg hfull, Text.fitting, hbreak, if_pos (by omega)]
  · have hlength := hroom.resolve_left hfits
    rw [if_pos (Nat.le_of_eq hlength.symm), Text.fitting_append_of_lt (Nat.lt_of_not_le hfits)]

/-- Once a line was cut with room to spare, the reply is torn by the next one. -/
theorem gathered_concat_torn {texts : List Text} (hne : texts ≠ []) (text : Text)
    (hcut : gathered capacity number name texts = Text.fitting capacity (fullReply name texts))
    (hroom : ¬ LeavesNoRoom capacity (fullReply name texts)) :
    Torn (fullReply name (texts ++ [text])) (gathered capacity number name (texts ++ [text])) := by
  rw [leavesNoRoom_iff, not_or] at hroom
  have hspare : (Text.fitting capacity (fullReply name texts)).byteLength < capacity :=
    Nat.lt_of_le_of_ne (Text.byteLength_fitting_le _ _) hroom.2
  rw [gathered_concat hne, hcut, fullReply_concat hne, if_neg (Nat.not_le_of_lt hspare)]
  exact torn_of_room (Nat.lt_of_not_le hroom.1) hspare _ _

/-- A torn reply stays torn. -/
theorem gathered_concat_of_torn {texts : List Text} (hne : texts ≠ []) (text : Text)
    (htorn : Torn (fullReply name texts) (gathered capacity number name texts)) :
    Torn (fullReply name (texts ++ [text])) (gathered capacity number name (texts ++ [text])) := by
  rw [gathered_concat hne, fullReply_concat hne]
  split
  · have hkept := htorn.append ('\n' :: text) []
    rw [List.append_nil] at hkept
    exact hkept
  · exact htorn.append _ _

/-- No line but the last one is cut with room to spare. -/
def CutAtOnce (capacity : Nat) (name : Text) (texts : List Text) : Prop :=
  ∀ before after, texts = before ++ after → after ≠ [] →
    LeavesNoRoom capacity (fullReply name before)

theorem cutAtOnce_concat_iff (texts : List Text) (text : Text) :
    CutAtOnce capacity name (texts ++ [text])
      ↔ CutAtOnce capacity name texts ∧ LeavesNoRoom capacity (fullReply name texts) := by
  constructor
  · intro h
    refine ⟨fun before after htexts hafter => ?_, h texts [text] rfl (List.cons_ne_nil _ _)⟩
    apply h before (after ++ [text])
    · rw [htexts, List.append_assoc]
    · exact List.append_ne_nil_of_right_ne_nil _ (List.cons_ne_nil _ _)
  · rintro ⟨hbelow, hlast⟩ before after htexts hafter
    -- what comes behind ends with the last line
    obtain ⟨behind, last, rfl⟩ : ∃ behind last, after = behind ++ [last] :=
      ⟨_, _, (List.dropLast_concat_getLast hafter).symm⟩
    rw [← List.append_assoc] at htexts
    obtain ⟨rfl, -⟩ := List.append_inj' htexts rfl
    cases behind with
    | nil =>
      rw [List.append_nil] at hlast
      exact hlast
    | cons b behind => exact hbelow before (b :: behind) rfl (List.cons_ne_nil _ _)

/-- **Cut or torn.** By the lines, from the first one. -/
theorem gathered_cases (capacity number : Nat) (name : Text) (texts : List Text) :
    CutAtOnce capacity name texts
        ∧ gathered capacity number name texts = Text.fitting capacity (fullReply name texts)
      ∨ ¬ CutAtOnce capacity name texts
        ∧ Torn (fullReply name texts) (gathered capacity number name texts) := by
  induction texts using List.reverseRecOn with
  | nil =>
    refine .inl ⟨fun before after htexts hafter => ?_, rfl⟩
    exact absurd (List.append_eq_nil_iff.mp htexts.symm).2 hafter
  | append_singleton texts text ih =>
    rw [cutAtOnce_concat_iff]
    by_cases hne : texts = []
    · rw [hne, List.nil_append]
      refine .inl ⟨⟨fun before after htexts hafter => ?_, .inl (Nat.zero_le _)⟩,
        gathered_singleton capacity number name text⟩
      exact absurd (List.append_eq_nil_iff.mp htexts.symm).2 hafter
    · rcases ih with ⟨honce, hcut⟩ | ⟨honce, htorn⟩
      · by_cases hroom : LeavesNoRoom capacity (fullReply name texts)
        · exact .inl ⟨⟨honce, hroom⟩, gathered_concat_cut hne text hcut hroom⟩
        · exact .inr ⟨fun h => hroom h.2, gathered_concat_torn hne text hcut hroom⟩
      · exact .inr ⟨fun h => honce h.1, gathered_concat_of_torn hne text htorn⟩

theorem isLongestFit_gathered_iff (texts : List Text) :
    Text.IsLongestFit capacity (fullReply name texts) (gathered capacity number name texts)
      ↔ CutAtOnce capacity name texts := by
  rcases gathered_cases capacity number name texts with ⟨honce, hcut⟩ | ⟨honce, htorn⟩
  · rw [hcut]
    exact iff_of_true (Text.isLongestFit_fitting _ _) honce
  · exact iff_of_false (fun h => htorn.not_begins h.begins) honce

/-- Behind what was left out nothing is added any more. -/
theorem gathered_append_of_lt {before after : List Text}
    (honce : CutAtOnce capacity name (before ++ after))
    (hlong : capacity < (fullReply name before).byteLength) :
    gathered capacity number name (before ++ after) = gathered capacity number name before := by
  have hne : before ≠ [] := by
    rintro rfl
    exact absurd hlong (Nat.not_lt_zero _)
  have hbefore : CutAtOnce capacity name before := by
    intro first rest htexts hrest
    apply honce first (rest ++ after)
    · rw [htexts, List.append_assoc]
    · exact List.append_ne_nil_of_left_ne_nil hrest _
  have hcut : Text.IsLongestFit capacity _ (gathered capacity number name before) :=
    (isLongestFit_gathered_iff before).mpr hbefore
  have hcut' : Text.IsLongestFit capacity _ (gathered capacity number name (before ++ after)) :=
    (isLongestFit_gathered_iff (before ++ after)).mpr honce
  rw [hcut.unique (Text.isLongestFit_fitting _ _), hcut'.unique (Text.isLongestFit_fitting _ _),
    fullReply_append hne, Text.fitting_append_of_lt hlong]

end Gathering

/-! ## The tracker -/

/-- Lines are added to the command in flight and change nothing else. -/
theorem Tracker.foldl_append_eq {t : Tracker} {p : Pending} (h : t.current = some p)
    (texts : List Text) :
    texts.foldl Tracker.append t = { t with current := some (p.gather t.capacity texts) } := by
  induction texts generalizing t p with
  | nil =>
    rw [← show t.current = some (p.gather t.capacity []) from h]
    rfl
  | cons text texts ih =>
    have hnext : t.append text = { t with current := some (p.append t.capacity text) } := by
      rw [append, h, Option.map_some]
    rw [List.foldl_cons, hnext]
    exact ih rfl

theorem Tracker.foldl_append_current {t : Tracker} {p : Pending} (h : t.current = some p)
    (texts : List Text) :
    (texts.foldl Tracker.append t).current = some (p.gather t.capacity texts) := by
  rw [foldl_append_eq h]

/-- **A reply is cut at one place or torn.** A command is begun and lines are added to its reply. The
reply is the longest beginning of everything that was said that fits into the capacity exactly if no
line but the last one is cut with room to spare: each beginning of the lines, short of all of them, says
no more than fits, or fills the capacity to the last byte. In that case nothing is added to the reply any
more once something was left out. -/
theorem reply_begins_full_iff (t : Tracker) (hidle : t.current = none) (separators : List Char)
    (command : Text) (texts : List Text) :
    let name := Command.name separators command
    ∃ begun p, t.begin separators command = .ok (t.next, begun)
      ∧ (texts.foldl Tracker.append begun).current = some p
      ∧ (Text.IsLongestFit t.capacity (fullReply name texts) p.body.text
          ↔ ∀ before after, texts = before ++ after → after ≠ [] →
            (fullReply name before).byteLength ≤ t.capacity
              ∨ ∃ part : Text, part <+: fullReply name before ∧ part.byteLength = t.capacity)
      ∧ (Text.IsLongestFit t.capacity (fullReply name texts) p.body.text →
          ∀ before after, texts = before ++ after →
            t.capacity < (fullReply name before).byteLength →
            ∃ q, (before.foldl Tracker.append begun).current = some q
              ∧ p.body.text = q.body.text) := by
  intro name
  have hbegin : t.begin separators command
      = .ok (t.next, { t with current := some ⟨t.next, name, {}, 0⟩, next := t.next + 1 }) := by
    unfold Tracker.begin Tracker.isPending
    rw [hidle]
    exact if_neg Bool.false_ne_true
  have hgather (lines : List Text) := Tracker.foldl_append_current
    (t := { t with current := some ⟨t.next, name, {}, 0⟩, next := t.next + 1 }) rfl lines
  refine ⟨_, _, hbegin, hgather texts, isLongestFit_gathered_iff texts, ?_⟩
  rintro hfit before after rfl hlong
  have honce := (isLongestFit_gathered_iff (before ++ after)).mp hfit
  exact ⟨_, hgather before, gathered_append_of_lt honce hlong⟩

/-- A first line that fills the capacity with a character of three bytes, and a second one. -/
theorem reply_cut_at_last_byte :
    ∃ begun p, ({ capacity := 5 } : Tracker).begin ['+'] "AT+X" = .ok (1, begun)
      ∧ (["X:ab€".toList, "y".toList].foldl Tracker.append begun).current = some p
      ∧ Text.IsLongestFit 5 "ab€\ny" p.body.text ∧ p.body.text = "ab€".toList := by
  obtain ⟨begun, p, hbegin, hgathered, hiff, -⟩ :=
    reply_begins_full_iff { capacity := 5 } rfl ['+'] "AT+X" ["X:ab€".toList, "y".toList]
  have hfit := hiff.mpr (by
    intro before after htexts hafter
    rcases before with _ | ⟨first, _ | ⟨second, before⟩⟩
    · exact .inl (Nat.zero_le _)
    · cases htexts
      exact .inr ⟨_, List.prefix_rfl, rfl⟩
    · simp only [List.cons_append, List.cons.injEq] at htexts
      exact absurd (List.append_eq_nil_iff.mp htexts.2.2.symm).2 hafter)
  refine ⟨begun, p, hbegin, hgathered, hfit, ?_⟩
  cases hbegin
  cases hgathered
  rfl

/-- One byte less in that line leaves room for a line break and the second line, behind a character that
was left out. -/
theorem reply_goes_on_behind_gap :
    ∃ begun p, ({ capacity := 5 } : Tracker).begin ['+'] "AT+X" = .ok (1, begun)
      ∧ (["X:abc€".toList, "y".toList].foldl Tracker.append begun).current = some p
      ∧ fullReply (Command.name ['+'] "AT+X") ["X:abc€".toList, "y".toList] = "abc€\ny".toList
      ∧ p.body.text = "abc\ny".toList
      ∧ ¬ Text.IsLongestFit 5 "abc€\ny" p.body.text := by
  refine ⟨_, _, rfl, rfl, rfl, rfl, ?_⟩
  intro h
  obtain ⟨rest, hrest⟩ := h.begins
  cases hrest

end ModemLink
