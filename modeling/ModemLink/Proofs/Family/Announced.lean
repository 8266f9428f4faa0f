/-
Every event of a family comes through.

Before a line is an event, three others look at it: the framer, which knows a prompt and line ends, the
words that confirm a command, which are compared without regard to case, and the entries of the table that
stand earlier. Each of them could swallow an event, and what stands behind its colon could be anything.

None of them looks that far. What they decide is decided by the beginning of the line, which is known
beforehand, so a check of the beginnings settles every line: `Config.Admits` is that check for the framer
and the words, and `Config.Announces` asks it for every row of a table that is clear.
-/
import ModemLink.Family.Catalog
import ModemLink.Proofs.Event.Reach
import ModemLink.Proofs.Framer.Splitting
import ModemLink.Proofs.Receiver.Reply

set_option autoImplicit false

namespace ModemLink

/-! ## Beginnings of texts -/

namespace Text

/-- Two texts that differ somewhere, whatever follows them. -/
def Apart (s t : Text) : Prop := ¬ s <+: t ∧ ¬ t <+: s

instance (s t : Text) : Decidable (Apart s t) :=
  inferInstanceAs (Decidable (¬ s <+: t ∧ ¬ t <+: s))

/-- A token that differs from a beginning, up to case, does not head what begins with it. -/
theorem afterFolded?_eq_none_of_apart {token front : Text}
    (h : Apart (token.map Char.toLower) (front.map Char.toLower)) (behind : Text) :
    afterFolded? token (front ++ behind) = none := by
  rw [Option.eq_none_iff_forall_ne_some]
  intro rest hrest
  obtain ⟨head, htext, hfolded⟩ := afterFolded?_eq_some_iff.mp hrest
  -- both would be beginnings of the same text
  have htoken : token.map Char.toLower <+: (front ++ behind).map Char.toLower := by
    rw [htext, List.map_append, hfolded]
    exact List.prefix_append _ _
  have hfront : front.map Char.toLower <+: (front ++ behind).map Char.toLower := by
    rw [List.map_append]
    exact List.prefix_append _ _
  rcases List.prefix_or_prefix_of_prefix htoken hfront with hprefix | hprefix
  · exact h.1 hprefix
  · exact h.2 hprefix

end Text

/-! ## Line ends -/

namespace Terminators

/-- Bytes without a terminator inside are a wire line, unless the terminator is twice the same byte. -/
theorem isWireLine_of_not_infix {t : Terminators} (hnodup : t.bytes.Nodup) {w : Bytes}
    (h : ¬ t.bytes <:+: w) : t.IsWireLine w := by
  intro i hi hprefix
  have hinfix : ¬ t.bytes <+: w.drop i := fun hdrop =>
    h (hdrop.isInfix.trans (List.drop_suffix i w).isInfix)
  rw [List.drop_append_of_le_length (Nat.le_of_lt hi)] at hprefix
  rcases List.prefix_or_prefix_of_prefix hprefix (List.prefix_append _ _) with hdrop | ⟨more, hmore⟩
  · exact hinfix hdrop
  -- a terminator would begin inside and end behind, with its first byte a second time in it
  · cases hinside : w.drop i with
    | nil =>
      rw [List.drop_eq_nil_iff] at hinside
      exact absurd hi (Nat.not_lt_of_le hinside)
    | cons b inside =>
      rw [hinside] at hmore hinfix hprefix
      cases more with
      | nil =>
        rw [List.append_nil] at hmore
        exact hinfix (hmore ▸ List.prefix_refl _)
      | cons c more =>
        rw [← hmore, List.prefix_append_right_inj, List.cons_append, List.cons_prefix_cons] at hprefix
        rw [← hmore, hprefix.1, List.cons_append, List.nodup_cons] at hnodup
        exact hnodup.1 (List.mem_append_right inside List.mem_cons_self)

/-- Bytes that begin no terminator may stand in front. -/
theorem not_infix_append {t : Terminators} {u w : Bytes}
    (hu : ∀ b ∈ u, t.bytes.head? ≠ some b) (h : ¬ t.bytes <:+: w) : ¬ t.bytes <:+: u ++ w := by
  induction u with
  | nil => exact h
  | cons b u ih =>
    rw [List.cons_append, List.infix_cons_iff, not_or]
    refine ⟨fun hprefix => ?_, ih fun c hc => hu c (List.mem_cons_of_mem b hc)⟩
    obtain ⟨first, more, hbytes⟩ := List.exists_cons_of_ne_nil (bytes_ne_nil t)
    rw [hbytes] at hprefix
    apply hu b List.mem_cons_self
    rw [hbytes, (List.cons_prefix_cons.mp hprefix).1, List.head?_cons]

end Terminators

/-! ## Beginnings of lines -/

namespace Config

/-- **The check of a beginning.** A line that begins so, with a colon behind, is neither a prompt nor
ended there, is not trimmed in front, and is headed by no word that confirms a command. -/
structure Admits (c : Config) (front : Text) : Prop where
  ne_nil : front ≠ []
  not_blank : front.head?.any Text.isBlank = false
  not_prompt : (Utf8.encode front).head? ≠ c.framing.prompt
  not_ended : ∀ b ∈ Utf8.encode (front ++ [':']), c.framing.terminators.bytes.head? ≠ some b
  apart : ∀ token ∈ c.vocabulary.confirmationTokens,
    Text.Apart (token.map Char.toLower) ((front ++ [':']).map Char.toLower)

-- bytes and characters are finitely many, and `decide` would try them all: the lists are gone through
instance (c : Config) (front : Text) : Decidable (c.Admits front) :=
  decidable_of_iff
    (front ≠ [] ∧ front.head?.any Text.isBlank = false
      ∧ (Utf8.encode front).head? ≠ c.framing.prompt
      ∧ (Utf8.encode (front ++ [':'])).all (c.framing.terminators.bytes.head? != some ·) = true
      ∧ ∀ token ∈ c.vocabulary.confirmationTokens,
        Text.Apart (token.map Char.toLower) ((front ++ [':']).map Char.toLower))
    ⟨fun ⟨hne, hblank, hprompt, hended, hapart⟩ =>
        ⟨hne, hblank, hprompt, fun b hb => bne_iff_ne.mp (List.all_eq_true.mp hended b hb), hapart⟩,
      fun h => ⟨h.ne_nil, h.not_blank, h.not_prompt,
        List.all_eq_true.mpr fun b hb => bne_iff_ne.mpr (h.not_ended b hb), h.apart⟩⟩

/-- **Arguments** that a line can carry behind this beginning and a colon. -/
structure Carries (c : Config) (front args : Text) : Prop where
  no_end : ¬ c.framing.terminators.bytes <:+: Utf8.encode args
  no_space : args.head? ≠ some ' '
  not_blank : ∀ ch, args.getLast? = some ch → Text.isBlank ch = false
  length_le : (front ++ ':' :: args).byteLength ≤ c.framing.lineLimit

variable {c : Config} {front args : Text}

/-- Such a line is trimmed already. -/
theorem Admits.trim_eq (h : c.Admits front) (hargs : c.Carries front args) :
    Text.trim (front ++ ':' :: args) = front ++ ':' :: args := by
  rw [Text.trim_eq_self_iff]
  constructor
  · intro ch hch
    rw [List.head?_append, List.head?_eq_some_head h.ne_nil, Option.some_or] at hch
    have hblank := h.not_blank
    rw [List.head?_eq_some_head h.ne_nil, hch] at hblank
    exact hblank
  · intro ch hch
    rw [List.getLast?_append, List.getLast?_cons, Option.some_or] at hch
    cases hlast : args.getLast? with
    | none =>
      rw [hlast] at hch
      cases hch
      rfl
    | some last =>
      rw [hlast] at hch
      cases hch
      exact hargs.not_blank _ hlast

/-- It confirms nothing. -/
theorem Admits.confirmation?_eq_none (h : c.Admits front) (args : Text) :
    c.vocabulary.confirmation? (front ++ ':' :: args) = none := by
  apply Vocabulary.confirmation?_eq_none
  intro token htoken
  have hnone := Text.afterFolded?_eq_none_of_apart (h.apart token htoken) args
  rw [List.append_assoc] at hnone
  exact hnone

/-- It arrives as it is. -/
theorem Admits.feed_eq {ε : Type} {r : Receiver ε} (hrest : r.AtRest c)
    (hnodup : c.framing.terminators.bytes.Nodup) (h : c.Admits front)
    (hargs : c.Carries front args) :
    r.feed (Utf8.encode (front ++ ':' :: args) ++ c.framing.terminators.bytes)
      = ((r.handle (.line (Utf8.encode (front ++ ':' :: args)))).1,
        (r.handle (.line (Utf8.encode (front ++ ':' :: args)))).2.toList) := by
  have hbytes : c.framing.terminators.bytes = r.framer.terminators.bytes := by
    rw [hrest.framer_eq]
    rfl
  have hsplit : Utf8.encode (front ++ ':' :: args)
      = Utf8.encode (front ++ [':']) ++ Utf8.encode args := by
    rw [← Utf8.encode_append, List.append_assoc]
    rfl
  rw [hbytes]
  apply Receiver.feed_line
  · rw [hrest.framer_eq]
    rfl
  · rw [hrest.framer_eq, hsplit]
    exact Terminators.isWireLine_of_not_infix hnodup
      (Terminators.not_infix_append h.not_ended hargs.no_end)
  · intro b hb hprompt
    apply h.not_prompt
    rw [hrest.framer_eq] at hprompt
    -- the first byte is that of the beginning
    obtain ⟨ch, front, rfl⟩ := List.exists_cons_of_ne_nil h.ne_nil
    obtain ⟨x, xs, hx⟩ := List.exists_cons_of_ne_nil (String.utf8EncodeChar_ne_nil (c := ch))
    rw [List.cons_append, Utf8.encode_cons, hx, List.cons_append, List.head?_cons] at hb
    rw [Utf8.encode_cons, hx, List.cons_append, List.head?_cons, hb]
    exact hprompt.symm
  · rw [hrest.framer_eq, Utf8.length_encode]
    exact hargs.length_le

end Config

/-! ## Tables -/

variable {ε : Type}

/-- **What stands before the colon** in a line of a row: the path, behind a sentinel or bare. -/
inductive EventTable.Begins (sentinels : List Char) (t : EventTable ε) : Text → Row ε → Prop where
  | marked (ch : Char) (row : Row ε) (hch : ch ∈ sentinels) (hrow : row ∈ t.root.rows)
    (hnamed : row.IsNamed) : Begins sentinels t (ch :: row.text) row
  | bare (row : Row ε) (hrow : row ∈ t.bare.rows) (hnamed : row.IsNamed) :
    Begins sentinels t row.text row

/-- **The check of a table** under a configuration: nothing that looks at a line before its event is
announced has an eye for the beginnings of its rows. -/
structure Config.Announces (c : Config) (t : EventTable ε) : Prop where
  ends_nodup : c.framing.terminators.bytes.Nodup
  root_clear : t.root.isClear = true
  bare_clear : t.bare.isClear = true
  marked : ∀ row ∈ t.root.rows, row.IsNamed → ∀ ch ∈ c.vocabulary.sentinels,
    c.Admits (ch :: row.text)
  bare : ∀ row ∈ t.bare.rows, row.IsNamed → c.Admits row.text
  not_marked : ∀ row ∈ t.bare.rows, row.IsNamed →
    row.text.head?.any (fun ch => decide (ch ∈ c.vocabulary.sentinels)) = false

instance (c : Config) (t : EventTable ε) : Decidable (c.Announces t) :=
  decidable_of_iff
    (c.framing.terminators.bytes.Nodup ∧ t.root.isClear = true ∧ t.bare.isClear = true
      ∧ (∀ row ∈ t.root.rows, row.IsNamed →
          c.vocabulary.sentinels.all (fun ch => decide (c.Admits (ch :: row.text))) = true)
      ∧ (∀ row ∈ t.bare.rows, row.IsNamed → c.Admits row.text)
      ∧ ∀ row ∈ t.bare.rows, row.IsNamed →
        row.text.head?.any (fun ch => decide (ch ∈ c.vocabulary.sentinels)) = false)
    ⟨fun ⟨hends, hroot, hbare, hmarked, hrows, hplain⟩ =>
        ⟨hends, hroot, hbare, fun row hrow hnamed ch hch =>
          of_decide_eq_true (List.all_eq_true.mp (hmarked row hrow hnamed) ch hch), hrows, hplain⟩,
      fun h => ⟨h.ends_nodup, h.root_clear, h.bare_clear, fun row hrow hnamed =>
        List.all_eq_true.mpr fun ch hch => decide_eq_true (h.marked row hrow hnamed ch hch),
        h.bare, h.not_marked⟩⟩

namespace Config.Announces

variable {c : Config} {t : EventTable ε} {front args : Text} {row : Row ε}

theorem admits (h : c.Announces t) (hbegins : t.Begins c.vocabulary.sentinels front row) :
    c.Admits front := by
  cases hbegins with
  | marked ch row hch hrow hnamed => exact h.marked row hrow hnamed ch hch
  | bare row hrow hnamed => exact h.bare row hrow hnamed

/-- The table knows the line by its row. -/
theorem knows (h : c.Announces t) {r : Receiver ε} (hrest : r.AtRest c) (htable : r.table = t)
    (hbegins : t.Begins c.vocabulary.sentinels front row) (hargs : c.Carries front args) :
    r.Knows (Utf8.encode (front ++ ':' :: args)) (row.spec.matched args) := by
  have hadmits := h.admits hbegins
  have htrim := hadmits.trim_eq hargs
  have hnone := hadmits.confirmation?_eq_none args
  have hpending : r.tracker.pendingName? = none := by
    unfold Tracker.pendingName?
    rw [hrest.current_eq_none]
    rfl
  unfold Receiver.Knows Receiver.kind
  rw [Utf8.decode_encode, hrest.vocabulary_eq, hpending, htable]
  cases hbegins with
  | marked ch row hch hrow hnamed =>
    refine .inl ⟨row.text ++ ':' :: args, ?_, ?_⟩
    · rw [Vocabulary.classify_of_sentinel hnone htrim hch]
      rfl
    · rw [EventTable.resolve_eq_ok_iff]
      exact Level.resolve?_of_isClear h.root_clear hrow hnamed hargs.no_space
  | bare row hrow hnamed =>
    refine .inr ⟨row.text ++ ':' :: args, ?_, ?_⟩
    · rw [Vocabulary.classify_of_not_sentinel (htrim.symm ▸ hnone), htrim]
      intro ch hch hsentinel
      have hmarked := h.not_marked row hrow hnamed
      rw [htrim, List.head?_append, List.head?_eq_some_head hadmits.ne_nil, Option.some_or] at hch
      rw [List.head?_eq_some_head hadmits.ne_nil, hch, Option.any_some, decide_eq_true hsentinel]
        at hmarked
      cases hmarked
    · have hfound := Level.resolve?_of_isClear h.bare_clear hrow hnamed hargs.no_space
      unfold EventTable.resolveBare
      rw [hfound]

/-- **A row comes through.** A line of it is handled as the row says, from rest. -/
theorem feed_eq (h : c.Announces t) {r : Receiver ε} (hrest : r.AtRest c) (htable : r.table = t)
    (hbegins : t.Begins c.vocabulary.sentinels front row) (hargs : c.Carries front args) :
    r.feed (Utf8.encode (front ++ ':' :: args) ++ c.framing.terminators.bytes)
      = ((r.counted.matched (row.spec.matched args)).1,
        (r.counted.matched (row.spec.matched args)).2.toList) := by
  have hadmits := h.admits hbegins
  have hlooked : r.IsLookedAt (Utf8.encode (front ++ ':' :: args)) := by
    refine ⟨hrest.capture_eq_none, ?_⟩
    rw [Utf8.decode_encode, hadmits.trim_eq hargs]
    exact List.append_ne_nil_of_left_ne_nil hadmits.ne_nil _
  rw [hadmits.feed_eq hrest h.ends_nodup hargs,
    Receiver.handle_of_knows r _ _ hlooked (h.knows hrest htable hbegins hargs)]

end Config.Announces

/-! ## Families -/

namespace Family

theorem wifi_announces : ∃ table, Wifi.table = .ok table ∧ Wifi.config.Announces table :=
  ⟨_, rfl, by decide⟩

theorem ble_announces : ∃ table, Ble.table = .ok table ∧ Ble.config.Announces table :=
  ⟨_, rfl, by decide⟩

theorem lora_announces : ∃ table, Lora.table = .ok table ∧ Lora.config.Announces table :=
  ⟨_, rfl, by decide⟩

theorem cellular_announces :
    ∃ table, Cellular.table = .ok table ∧ Cellular.config.Announces table :=
  ⟨_, rfl, by decide⟩

/-- The check holds of every family, and the line ends of a family are those of its configuration. -/
theorem announces_of_mem_all {f : Family} (hf : f ∈ all) :
    (∃ table, f.table = .ok table ∧ f.config.Announces table)
      ∧ f.config.framing.terminators = f.terminators := by
  simp only [all, List.mem_cons, List.not_mem_nil, or_false] at hf
  rcases hf with rfl | rfl | rfl | rfl
  · exact ⟨wifi_announces, rfl⟩
  · exact ⟨ble_announces, rfl⟩
  · exact ⟨lora_announces, rfl⟩
  · exact ⟨cellular_announces, rfl⟩

/-- **No event is hidden.** Take a family, a row of its listing that is that of an event, one of the
sentinels or none if the row is bare, and arguments that a line can carry. From rest the line of the row
announces its event with these arguments, or opens it with them if more lines belong to it, and does
nothing else. -/
theorem no_event_hidden (f : Family) (hf : f ∈ all) :
    ∃ table, f.table = .ok table ∧
      ∀ (r : Receiver f.Event), r.AtRest f.config → r.table = table →
      ∀ front row, table.Begins f.config.vocabulary.sentinels front row →
      ∀ args : Text, ¬ f.terminators.bytes <:+: Utf8.encode args → args.head? ≠ some ' ' →
        (∀ ch, args.getLast? = some ch → Text.isBlank ch = false) →
        (front ++ ':' :: args).byteLength ≤ f.config.framing.lineLimit →
        (row.spec.trailing = 0 →
          r.feed (Utf8.encode (front ++ ':' :: args) ++ f.terminators.bytes)
            = (r.counted.count fun s => { s with events := s.events + 1 },
              [.event ⟨row.spec.event, args⟩]))
        ∧ (row.spec.trailing ≠ 0 →
          r.feed (Utf8.encode (front ++ ':' :: args) ++ f.terminators.bytes)
            = ({ r.counted with capture := some ⟨row.spec.event, args, row.spec.trailing⟩ }, [])) := by
  obtain ⟨⟨table, htable, hannounces⟩, hends⟩ := announces_of_mem_all hf
  refine ⟨table, htable, ?_⟩
  intro r hrest hknown front row hbegins args hend hspace hblank hlength
  rw [← hends] at hend ⊢
  have hcarries : f.config.Carries front args := ⟨hend, hspace, hblank, hlength⟩
  rw [hannounces.feed_eq hrest hknown hbegins hcarries]
  constructor
  · intro hone
    rw [Receiver.matched, EventSpec.matched, if_pos hone]
    rfl
  · intro hmore
    rw [Receiver.matched, EventSpec.matched, if_neg hmore]
    rfl

/-- An event below the category of a LoRaWAN modem, with a colon in its arguments. -/
theorem downlink_comes_through :
    Lora.family ∈ all ∧ ∃ table, Lora.table = .ok table
      ∧ (Receiver.new Lora.config table).AtRest Lora.config
      ∧ table.Begins Lora.config.vocabulary.sentinels "+EVT:RX_1"
          ⟨["EVT", "RX_1"], ⟨Lora.Event.rx1, 0⟩⟩
      ∧ ((Receiver.new Lora.config table).feed (Utf8.encode "+EVT:RX_1:-50:ok\r\n")).2
        = [.event ⟨.rx1, "-50:ok"⟩] := by
  have hf : Lora.family ∈ all := by simp [all]
  obtain ⟨table, htable, hall⟩ := no_event_hidden Lora.family hf
  have hrest := Receiver.atRest_new Lora.config table
  have hrows (t : EventTable Lora.Event) (ht : Lora.table = .ok t) :
      ⟨["EVT", "RX_1"], ⟨Lora.Event.rx1, 0⟩⟩ ∈ t.root.rows := by
    cases ht
    decide
  have hbegins : table.Begins Lora.config.vocabulary.sentinels "+EVT:RX_1"
      ⟨["EVT", "RX_1"], ⟨Lora.Event.rx1, 0⟩⟩ :=
    EventTable.Begins.marked '+' _ (List.mem_singleton_self _) (hrows table htable) (by decide)
  have hfeed := (hall _ hrest rfl _ _ hbegins "-50:ok" (by decide) (by decide)
    (by rintro ch hch; cases hch; rfl) (by decide)).1 rfl
  exact ⟨hf, table, htable, hrest, hbegins, congrArg Prod.snd hfeed⟩

end Family

end ModemLink
