/-
Messages that a cellular modem delivers directly.

A header line opens the event, and the next line is the text, which somebody else wrote. The receive
path takes that line in as it stands and does not look at it. The framer, however, does not know
that an event is being continued: a text that begins with the prompt is cut behind it, the event is
announced with the prompt as its whole text, and what is left is dealt with as a line of the modem.

So the text is literal data exactly if it does not begin with the prompt, or is the prompt alone.
-/
import ModemLink.Family.Cellular
import ModemLink.Proofs.Receiver.Continued
import ModemLink.Proofs.Text.Utf8
import ModemLink.Proofs.Text.Words

set_option autoImplicit false

namespace ModemLink.Cellular

open ModemLink.Receiver

/-! ## The header -/

/-- A header line. -/
def header (h : Text) : Text := "+CMT: ".toList ++ h

/-- What a trimmed header line has behind its colon. -/
def headerTail (h : Text) : Text := if h = [] then [] else ' ' :: h

/-- Of an empty header the blank behind the colon is trimmed away. -/
theorem trim_header {h : Text} (htrim : Text.trim h = h) :
    Text.trim (header h) = '+' :: 'C' :: 'M' :: 'T' :: ':' :: headerTail h := by
  unfold headerTail
  by_cases hnil : h = []
  · rw [hnil]
    rfl
  · rw [if_neg hnil]
    show Text.trim (header h) = header h
    rw [Text.trim_eq_self_iff] at htrim ⊢
    refine ⟨?_, ?_⟩
    · intro c hc
      cases hc
      rfl
    · intro c hc
      apply htrim.2
      unfold header at hc
      rw [List.getLast?_append, List.getLast?_eq_some_getLast hnil, Option.some_or] at hc
      rw [List.getLast?_eq_some_getLast hnil]
      exact hc

/-- A header line is no confirmation, and unless a command of its name is in flight it is an
event. -/
theorem classify_header {h : Text} (htrim : Text.trim h = h) (pending : Option Text)
    (hpending : ∀ name, pending = some name → (∀ c ∈ name, Text.isWordChar c = true)
      ∧ Text.equalFolded name "CMT" = false) :
    config.vocabulary.classify (header h) pending
      = .event ('C' :: 'M' :: 'T' :: ':' :: headerTail h) := by
  have hnamed :
      pending.any (Text.namesCommand ('C' :: 'M' :: 'T' :: ':' :: headerTail h)) = false := by
    cases pending with
    | none => rfl
    | some name =>
      obtain ⟨hname, hother⟩ := hpending name rfl
      cases hnames : Text.namesCommand ('C' :: 'M' :: 'T' :: ':' :: headerTail h) name with
      | false => exact hnames
      | true =>
        have hequal : Text.equalFolded name "CMT" = true := by
          apply Text.equalFolded_of_namesCommand hname rfl _ hnames
          intro c hc
          cases hc
          rfl
        rw [hother] at hequal
        cases hequal
  have hnone : config.vocabulary.confirmation?
      ('+' :: 'C' :: 'M' :: 'T' :: ':' :: headerTail h) = none := rfl
  have hsentinel : '+' ∈ config.vocabulary.sentinels := List.mem_singleton_self _
  unfold Vocabulary.classify
  rw [trim_header htrim]
  simp only [hnone, if_pos hsentinel, hnamed, Bool.false_eq_true, if_false]

/-- The table knows it as a message, with what stands behind the colon and a line still to come. -/
theorem resolve_header {table : EventTable Event} (htable : Cellular.table = .ok table) {h : Text}
    (htrim : Text.trim h = h) :
    table.resolve ('C' :: 'M' :: 'T' :: ':' :: headerTail h) = .ok ⟨.smsReceived, h, 1⟩ := by
  have hargs : (headerTail h).dropWhile (· == ' ') = h := by
    unfold headerTail
    cases h with
    | nil => rfl
    | cons c h =>
      have hblank : Text.isBlank c = false := ((Text.trim_eq_self_iff _).mp htrim).1 c rfl
      have hspace : ¬ (c == ' ') = true := by
        intro hc
        rw [beq_iff_eq.mp hc] at hblank
        cases hblank
      rw [if_neg (List.cons_ne_nil c h), List.dropWhile_cons_of_pos rfl,
        List.dropWhile_cons_of_neg (p := (· == ' ')) hspace]
  have hresolve : table.resolve ('C' :: 'M' :: 'T' :: ':' :: headerTail h)
      = .ok ⟨.smsReceived, (headerTail h).dropWhile (· == ' '), 1⟩ := by
    cases htable
    rfl
  rw [hresolve, hargs]

/-! ## The header and the text -/

/-- A line of text within the limit and without a line end. -/
structure Fits (line : Text) : Prop where
  no_end : ¬ ['\r', '\n'] <:+: line
  length_le : line.byteLength ≤ config.framing.lineLimit

/-- **Idle on the line.** Nothing is continued, the framer is at the start of a line, and no command
is in flight that has the name of the header. -/
structure Idle (r : Receiver Event) : Prop where
  vocabulary_eq : r.vocabulary = config.vocabulary
  table_ok : Cellular.table = .ok r.table
  framer_eq : r.framer = .new config.framing
  capture_eq : r.capture = none
  other_name (p : Pending) : r.tracker.current = some p →
    (∀ c ∈ p.name, Text.isWordChar c = true) ∧ Text.equalFolded p.name "CMT" = false

/-- The bytes of a line and its end. -/
def sent (line : Text) : Bytes := Utf8.encode line ++ Terminators.crlf.bytes

/-- A line that does not begin with the prompt arrives as it is. -/
theorem feed_sent (r : Receiver Event) (hframer : r.framer = .new config.framing) {line : Text}
    (hfits : Fits line) (hprompt : line.head? ≠ some '>') :
    r.feed (sent line)
      = ((r.handle (.line (Utf8.encode line))).1,
        (r.handle (.line (Utf8.encode line))).2.toList) := by
  have hbytes : r.framer.terminators.bytes = Terminators.crlf.bytes := by
    rw [hframer]
    rfl
  unfold sent
  rw [← hbytes]
  apply feed_line
  · rw [hframer]
    rfl
  · rw [hframer]
    exact Utf8.isWireLine_encode hfits.no_end
  · rw [hframer]
    rintro b hb hp
    cases hp
    exact hprompt ((Utf8.head?_encode_eq_some_iff (by decide) line).mp hb)
  · rw [hframer, Utf8.length_encode]
    exact hfits.length_le

/-- **The header** opens the event and changes nothing else. -/
theorem Idle.feed_header {r : Receiver Event} (hidle : Idle r) {h : Text} (htrim : Text.trim h = h)
    (hfits : Fits (header h)) :
    r.feed (sent (header h)) = ({ r.counted with capture := some ⟨.smsReceived, h, 1⟩ }, []) := by
  have hdecode : Utf8.decode (Utf8.encode (header h)) = header h := Utf8.decode_encode _
  have hlooked : r.IsLookedAt (Utf8.encode (header h)) := by
    refine ⟨hidle.capture_eq, ?_⟩
    rw [hdecode, trim_header htrim]
    exact List.cons_ne_nil _ _
  have hkind : r.kind (Utf8.encode (header h))
      = .event ('C' :: 'M' :: 'T' :: ':' :: headerTail h) := by
    unfold kind
    rw [hdecode, hidle.vocabulary_eq]
    apply classify_header htrim
    intro name hname
    unfold Tracker.pendingName? at hname
    obtain ⟨hsome, -⟩ := Option.filter_eq_some_iff.mp hname
    obtain ⟨p, hp, rfl⟩ := Option.map_eq_some_iff.mp hsome
    exact hidle.other_name p hp
  have hknows : r.Knows (Utf8.encode (header h)) ⟨.smsReceived, h, 1⟩ :=
    .inl ⟨_, hkind, resolve_header hidle.table_ok htrim⟩
  have hhandle := handle_of_knows r _ _ hlooked hknows
  have hprompt : (header h).head? ≠ some '>' := by
    intro hhead
    cases hhead
  rw [feed_sent r hidle.framer_eq hfits hprompt, hhandle]
  rfl

/-- Behind a header, the next line ends the event, whatever it is. -/
theorem handle_text (r : Receiver Event) (hvocabulary : r.vocabulary = config.vocabulary)
    {h : Text} (hcapture : r.capture = some ⟨.smsReceived, h, 1⟩) (raw : Bytes) :
    (r.handle (.line raw)).2 = some (.event ⟨.smsReceived, h ++ '\n' :: Utf8.decode raw⟩)
      ∧ (r.handle (.line raw)).1.tracker = r.tracker
      ∧ (r.handle (.line raw)).1.capture = none
      ∧ (r.handle (.line raw)).1.framer = r.framer := by
  have hcounted : r.counted.vocabulary = config.vocabulary := hvocabulary
  rw [handle_of_capture r _ hcapture raw]
  unfold continueCapture
  rw [hcounted]
  exact ⟨rfl, rfl, rfl, rfl⟩

/-- **A text that begins with the prompt** is announced as the prompt alone. What is left of it is
fed to a receive path that continues nothing. -/
theorem feed_prompt_text (r : Receiver Event) (hvocabulary : r.vocabulary = config.vocabulary)
    (hframer : r.framer = .new config.framing) {h : Text}
    (hcapture : r.capture = some ⟨.smsReceived, h, 1⟩) (rest : Text) :
    ∃ r' : Receiver Event, r'.tracker = r.tracker ∧ r'.capture = none
      ∧ r'.framer = .new config.framing
      ∧ r.feed (sent ('>' :: rest))
        = ((r'.feed (sent rest)).1,
          .event ⟨.smsReceived, h ++ ['\n', '>']⟩ :: (r'.feed (sent rest)).2) := by
  have hreset : r.framer.reset = r.framer := by
    rw [hframer]
    rfl
  have hprompt : r.framer.prompt = some 62 := by
    rw [hframer]
    rfl
  have hnoend : r.framer.terminators.bytes.head? ≠ some 62 := by
    rw [hframer]
    decide
  have hpush := push_prompt r hreset 62 hprompt hnoend
  obtain ⟨hout, htracker, hcontinued, hframer'⟩ := handle_text r hvocabulary hcapture [62]
  refine ⟨(r.handle (.line [62])).1, htracker, hcontinued, hframer'.trans hframer, ?_⟩
  have hbytes : sent ('>' :: rest) = 62 :: sent rest := rfl
  rw [hbytes, feed_cons, hpush, hout]
  rfl

/-- What a header and a text behind it produce, and what they do to the command in flight. -/
def IsLiteral (r : Receiver Event) (h t : Text) : Prop :=
  (r.feed (sent (header h) ++ sent t)).2 = [.event ⟨.smsReceived, h ++ '\n' :: t⟩]
    ∧ (r.feed (sent (header h) ++ sent t)).1.tracker = r.tracker

/-- Behind the header the text is fed to a receive path that continues the event. -/
theorem Idle.isLiteral_iff {r : Receiver Event} (hidle : Idle r) {h t : Text}
    (htrim : Text.trim h = h) (hheader : Fits (header h)) :
    IsLiteral r h t ↔
      ({ r.counted with capture := some ⟨.smsReceived, h, 1⟩ }.feed (sent t)).2
          = [.event ⟨.smsReceived, h ++ '\n' :: t⟩]
        ∧ ({ r.counted with capture := some ⟨.smsReceived, h, 1⟩ }.feed (sent t)).1.tracker
          = r.tracker := by
  unfold IsLiteral
  rw [feed_append, hidle.feed_header htrim hheader]
  exact Iff.rfl

/-- **Literal text.** The text of a message is literal data exactly if it does not begin with the
prompt, or is the prompt alone. -/
theorem Idle.text_literal_iff {r : Receiver Event} (hidle : Idle r) {h t : Text}
    (htrim : Text.trim h = h) (hheader : Fits (header h)) (htext : Fits t) :
    IsLiteral r h t ↔ ∀ rest, t = '>' :: rest → rest = [] := by
  rw [hidle.isLiteral_iff htrim hheader]
  generalize hopened :
    ({ r.counted with capture := some ⟨.smsReceived, h, 1⟩ } : Receiver Event) = r₁
  have hvocabulary : r₁.vocabulary = config.vocabulary := by
    rw [← hopened]
    exact hidle.vocabulary_eq
  have hframer : r₁.framer = .new config.framing := by
    rw [← hopened]
    exact hidle.framer_eq
  have hcapture : r₁.capture = some ⟨.smsReceived, h, 1⟩ := by
    rw [← hopened]
  have htracker : r₁.tracker = r.tracker := by
    rw [← hopened]
    rfl
  by_cases hprompt : t.head? = some '>'
  · obtain ⟨rest, rfl⟩ : ∃ rest, t = '>' :: rest := by
      cases t with
      | nil => cases hprompt
      | cons c rest =>
        cases hprompt
        exact ⟨rest, rfl⟩
    obtain ⟨r₂, htracker₂, hcapture₂, hframer₂, hfeed⟩ :=
      feed_prompt_text r₁ hvocabulary hframer hcapture rest
    rw [hfeed]
    constructor
    · rintro ⟨hout, -⟩ more hmore
      cases hmore
      -- the text that was announced ends with the prompt
      simp only [List.cons.injEq, Output.event.injEq, Notification.mk.injEq,
        List.append_cancel_left_eq, true_and] at hout
      exact hout.1.symm
    · intro hall
      have hrest := hall rest rfl
      subst hrest
      have hfits : Fits [] := ⟨by decide, Nat.zero_le _⟩
      have hempty := feed_sent r₂ hframer₂ hfits (nomatch ·)
      rw [Utf8.encode_nil, handle_of_blank r₂ [] hcapture₂ rfl] at hempty
      rw [hempty]
      exact ⟨rfl, htracker₂.trans htracker⟩
  · obtain ⟨hout, htracker', -, -⟩ := handle_text r₁ hvocabulary hcapture (Utf8.encode t)
    rw [feed_sent r₁ hframer htext hprompt, hout, Utf8.decode_encode]
    constructor
    · rintro - rest rfl
      exact absurd rfl hprompt
    · intro _
      exact ⟨rfl, htracker'.trans htracker⟩

/-- **Messages in a run.** Wherever a run has left a receive path for cellular modems idle on the
line, a header and a text behind it produce one event with the text as it stands, and leave the
command in flight as it is, exactly if the text does not begin with the prompt or is the prompt
alone. -/
theorem sms_text_literal_iff {table : EventTable Event} (htable : Cellular.table = .ok table)
    (ops : List Operation) (h t : Text)
    (hframer : (Run.of config table ops).receiver.framer = .new config.framing)
    (hcapture : (Run.of config table ops).receiver.capture = none)
    (hother : ∀ p, (Run.of config table ops).receiver.tracker.current = some p →
      Text.equalFolded p.name "CMT" = false)
    (htrim : Text.trim h = h) (hheader : Fits (header h)) (htext : Fits t) :
    IsLiteral (Run.of config table ops).receiver h t ↔ ∀ rest, t = '>' :: rest → rest = [] := by
  obtain ⟨hvocabulary, htable'⟩ := Run.foldl_step_fixed ⟨.new config table, []⟩ ops
  have hidle : Idle (Run.of config table ops).receiver := by
    refine ⟨hvocabulary, ?_, hframer, hcapture, fun p hp => ⟨?_, hother p hp⟩⟩
    · rw [htable]
      exact congrArg Except.ok htable'.symm
    -- the name was taken from a command
    · obtain ⟨command, -, hname⟩ := (Run.sound config table ops).named p hp
      rw [hname]
      intro c hc
      exact Command.isWordChar_of_mem_name hc
  exact hidle.text_literal_iff htrim hheader htext

/-- A text that reads like a confirmation, while a command is in flight. -/
theorem sms_text_like_ok :
    ∃ table, Cellular.table = .ok table
      ∧ IsLiteral (Run.of config table [.begin "AT+CREG?"]).receiver "x" "OK" :=
  ⟨_, rfl, (sms_text_literal_iff rfl [.begin "AT+CREG?"] "x" "OK" rfl rfl
    (by rintro p hp; cases hp; rfl) rfl ⟨by decide, by decide⟩ ⟨by decide, by decide⟩).mpr
    (by rintro rest h; cases h)⟩

/-- With the prompt before it, the same text ends the command. -/
theorem sms_text_behind_prompt_confirms :
    ∃ table, Cellular.table = .ok table
      ∧ let r := (Run.of config table [.begin "AT+CREG?"]).receiver
        r.framer = .new config.framing ∧ r.capture = none
        ∧ (∀ p, r.tracker.current = some p → Text.equalFolded p.name "CMT" = false)
        ∧ Text.trim "x".toList = "x".toList ∧ Fits (header "x") ∧ Fits ">OK"
        ∧ ¬ IsLiteral r "x" ">OK"
        ∧ (r.feed (sent (header "x") ++ sent ">OK")).2
          = [.event ⟨.smsReceived, "x\n>"⟩, .resolved ⟨1, "CREG", .success, [], false, none⟩] := by
  refine ⟨_, rfl, ?_⟩
  intro r
  have hfeed : (r.feed (sent (header "x") ++ sent ">OK")).2
      = [.event ⟨.smsReceived, "x\n>"⟩, .resolved ⟨1, "CREG", .success, [], false, none⟩] := by
    rfl
  refine ⟨rfl, rfl, ?_, rfl, ⟨by decide, by decide⟩, ⟨by decide, by decide⟩, ?_, hfeed⟩
  · rintro p hp
    cases hp
    rfl
  · rintro ⟨hliteral, -⟩
    rw [hfeed] at hliteral
    cases hliteral

end ModemLink.Cellular
