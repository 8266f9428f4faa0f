/-
A command and its reply.

A module repeats a command as an echo, answers with lines that begin with the command's name, and
ends with a confirmation. Under the default configuration all of this comes back to the caller as
one resolution. Its body is the first line without the name and the separators behind it, and then
every further line as it stands, each of them behind a line break. Blank lines in between do not
count, and neither does the case in which the module writes the name.
-/
import ModemLink.Proofs.Line
import ModemLink.Proofs.Receiver.Traffic
import ModemLink.Proofs.Text.Utf8
import ModemLink.Proofs.Text.Words

set_option autoImplicit false

namespace ModemLink

/-! ## The lines of a reply -/

/-- A line of a reply: the word that repeats the name, and what stands behind the colon. -/
structure ReplyLine where
  word : Text
  payload : Text

namespace ReplyLine

/-- The line without its sentinel. -/
def text (l : ReplyLine) : Text := l.word ++ ':' :: l.payload

/-- The line as it is sent. -/
def sent (l : ReplyLine) : Text := '+' :: l.text

/-- A line of the reply to the command of this name. Nothing is trimmed away at its end. -/
structure Answers (l : ReplyLine) (name : Text) : Prop where
  word_eq : Text.equalFolded name l.word = true
  payload_end (c : Char) : l.payload.getLast? = some c → Text.isBlank c = false

/-- Lines that follow the first one, each behind a line break. -/
def continuedText (lines : List ReplyLine) : Text := lines.flatMap fun l => '\n' :: l.text

/-- **What a reply says.** Its first line counts from its payload on, and the colons, blanks, equals
signs and commas at the head of that payload do not count either. -/
def bodyText : List ReplyLine → Text
  | [] => []
  | first :: more =>
    first.payload.dropWhile (· ∈ [':', ' ', '=', ',']) ++ continuedText more

variable {l : ReplyLine} {name : Text}

theorem Answers.trim_sent (h : l.Answers name) : Text.trim l.sent = l.sent := by
  rw [Text.trim_eq_self_iff]
  constructor
  · intro c hc
    cases hc
    rfl
  · intro c hc
    have hend : l.sent = ('+' :: l.word) ++ ':' :: l.payload := rfl
    rw [hend, List.getLast?_append, List.getLast?_cons, Option.some_or] at hc
    -- without a payload the line ends with the colon
    cases hlast : l.payload.getLast? with
    | none =>
      rw [hlast] at hc
      cases hc
      rfl
    | some d =>
      rw [hlast] at hc
      cases hc
      exact h.payload_end _ hlast

theorem Answers.namesCommand (h : l.Answers name) (hne : name ≠ []) :
    Text.namesCommand l.text name = true := by
  apply Text.namesCommand_append hne h.word_eq
  intro c hc
  cases hc
  rfl

theorem Answers.firstLine (h : l.Answers name) :
    Body.firstLine name l.text = l.payload.dropWhile (· ∈ [':', ' ', '=', ',']) := by
  have hseparators : Body.isSeparator = fun c => decide (c ∈ [':', ' ', '=', ',']) := by
    funext c
    simp [Body.isSeparator, Bool.decide_or, Bool.or_assoc, Bool.beq_eq_decide_eq]
  unfold Body.firstLine text
  rw [Text.afterFolded?_append h.word_eq, Option.getD_some, hseparators]
  rfl

/-- A line of the reply is a piece of it, whatever case the name is in. -/
theorem Answers.classify (h : l.Answers name) (hne : name ≠ []) :
    ({} : Config).vocabulary.classify l.sent (some name) = .body l.text := by
  have hsentinel : '+' ∈ ({} : Config).vocabulary.sentinels := List.mem_singleton_self _
  have hnone : ({} : Config).vocabulary.confirmation? ('+' :: l.text) = none := rfl
  rw [Vocabulary.classify_of_sentinel hnone h.trim_sent hsentinel, Option.any_some,
    h.namesCommand hne]
  rfl

end ReplyLine

/-! ## A reply that fits -/

theorem Body.push_of_le {capacity : Nat} {more : Text} {b : Body}
    (h : b.text.byteLength + more.byteLength ≤ capacity) :
    b.push capacity more = { b with text := b.text ++ more } :=
  if_pos (Nat.le_sub_of_add_le' h)

namespace Pending

/-- Adds lines of a reply. -/
def appendAll (capacity : Nat) (lines : List ReplyLine) (p : Pending) : Pending :=
  lines.foldl (fun p l => p.append capacity l.text) p

theorem appendAll_cons (capacity : Nat) (l : ReplyLine) (lines : List ReplyLine) (p : Pending) :
    p.appendAll capacity (l :: lines) = (p.append capacity l.text).appendAll capacity lines := rfl

theorem appendAll_more (capacity : Nat) (lines : List ReplyLine) (p : Pending)
    (hlines : p.lines ≠ 0)
    (hfits : p.body.text.byteLength + (ReplyLine.continuedText lines).byteLength ≤ capacity) :
    p.appendAll capacity lines
      = { p with
          lines := p.lines + lines.length
          body := { p.body with text := p.body.text ++ ReplyLine.continuedText lines } } := by
  induction lines generalizing p with
  | nil =>
    show p = _
    simp [ReplyLine.continuedText]
  | cons l lines ih =>
    have htext : ReplyLine.continuedText (l :: lines)
        = ['\n'] ++ (l.text ++ ReplyLine.continuedText lines) := rfl
    rw [htext, Text.byteLength_append, Text.byteLength_append] at hfits
    -- the line break and the line are added one after the other
    have hbreak : p.body.push capacity ['\n'] = { p.body with text := p.body.text ++ ['\n'] } := by
      apply Body.push_of_le
      omega
    have hline : p.append capacity l.text
        = { p with
            lines := p.lines + 1
            body := { p.body with text := p.body.text ++ ['\n'] ++ l.text } } := by
      unfold append
      rw [if_neg hlines, hbreak, Body.push_of_le]
      rw [Text.byteLength_append]
      omega
    rw [appendAll_cons, hline, ih]
    · simp only [htext, List.append_assoc, List.length_cons, Nat.add_assoc, Nat.add_comm 1]
    · exact Nat.succ_ne_zero p.lines
    · simp only [Text.byteLength_append]
      omega

/-- **A reply that fits** is gathered completely. -/
theorem appendAll_reply {capacity : Nat} {lines : List ReplyLine} {number : Nat} {name : Text}
    (hlines : ∀ l ∈ lines, l.Answers name)
    (hfits : (ReplyLine.bodyText lines).byteLength ≤ capacity) :
    (⟨number, name, {}, 0⟩ : Pending).appendAll capacity lines
      = ⟨number, name, ⟨ReplyLine.bodyText lines, false⟩, lines.length⟩ := by
  cases lines with
  | nil => rfl
  | cons first more =>
    have hfirst : (⟨number, name, {}, 0⟩ : Pending).append capacity first.text
        = ⟨number, name, ⟨first.payload.dropWhile (· ∈ [':', ' ', '=', ',']), false⟩, 1⟩ := by
      unfold append
      rw [if_pos rfl, (hlines first List.mem_cons_self).firstLine, Body.push_of_le]
      · rfl
      · unfold ReplyLine.bodyText at hfits
        rw [Text.byteLength_append] at hfits
        exact Nat.le_trans (Nat.le_of_eq (Nat.zero_add _))
          (Nat.le_trans (Nat.le_add_right _ _) hfits)
    rw [appendAll_cons, hfirst, appendAll_more _ _ _ Nat.one_ne_zero]
    · rw [List.length_cons, Nat.add_comm more.length]
      rfl
    · unfold ReplyLine.bodyText at hfits
      rw [Text.byteLength_append] at hfits
      exact hfits

end Pending

/-! ## The exchange -/

/-- A command: `AT`, a plus sign, a word that is its name, and what else there is. -/
structure NamedCommand where
  name : Text
  tail : Text
  name_ne_nil : name ≠ []
  name_word (c : Char) : c ∈ name → Text.isWordChar c = true
  name_length : name.length ≤ 32
  /-- the name does not go on -/
  tail_head (c : Char) : tail.head? = some c → Text.isWordChar c = false

namespace NamedCommand

/-- The command without its line end, as the module repeats it. -/
def echo (c : NamedCommand) : Text := "AT+".toList ++ c.name ++ c.tail

/-- The command as it is written. -/
def written (c : NamedCommand) : Text := c.echo ++ ['\r', '\n']

theorem name_written (c : NamedCommand) :
    Command.name ({} : Config).vocabulary.separators c.written = c.name := by
  have hwritten : c.written = 'A' :: 'T' :: '+' :: (c.name ++ (c.tail ++ ['\r', '\n'])) := by
    simp only [written, echo, List.append_assoc]
    rfl
  rw [hwritten]
  apply Command.name_of_word (List.mem_singleton_self _) c.name_word c.name_length
  intro d hd
  -- without a tail the line end follows the name
  cases htail : c.tail with
  | nil =>
    rw [htail] at hd
    cases hd
    rfl
  | cons e tail =>
    rw [htail] at hd
    cases hd
    exact c.tail_head _ (by rw [htail]; rfl)

theorem trim_echo (c : NamedCommand) :
    Text.trim c.echo = "AT+".toList ++ Text.trimEnd (c.name ++ c.tail) := by
  unfold echo
  rw [List.append_assoc]
  apply Text.trim_append (List.cons_ne_nil _ _)
  · intro d hd
    cases hd
    rfl
  · intro d hd
    cases hd
    rfl

theorem classify_echo (c : NamedCommand) (pending : Option Text) :
    ({} : Config).vocabulary.classify c.echo pending = .plain (Text.trim c.echo) := by
  apply Vocabulary.classify_of_not_sentinel
  -- no token begins with an A, and no sentinel is one
  · rw [trim_echo]
    rfl
  · intro d hd
    rw [trim_echo] at hd
    cases hd
    decide

end NamedCommand

/-- A line that begins with the success token, in whatever case, confirms. -/
theorem Vocabulary.classify_ok {line : Text} (h : (Text.afterFolded? "OK" line).isSome = true)
    (pending : Option Text) :
    ({} : Config).vocabulary.classify line pending = .confirmation .success none := by
  obtain ⟨rest, hrest⟩ := Option.isSome_iff_exists.mp h
  obtain ⟨front, rfl, hfold⟩ := Text.afterFolded?_eq_some_iff.mp hrest
  have hequal : Text.equalFolded "OK" front = true := beq_iff_eq.mpr hfold.symm
  -- its letters are no blanks, so they are still there in the trimmed line
  have hletters : ∀ c ∈ front, Text.isBlank c = false := by
    intro c hc
    have hmem : c.toLower ∈ "OK".toList.map Char.toLower := hfold ▸ List.mem_map_of_mem hc
    obtain ⟨d, hd, hdc⟩ := List.mem_map.mp hmem
    apply Text.isBlank_of_isWordChar
    rw [← Text.isWordChar_of_toLower_eq hdc]
    exact List.all_eq_true.mp (show "OK".toList.all Text.isWordChar = true from rfl) d hd
  have hne : front ≠ [] := by
    rintro rfl
    cases hfold
  have htrim : Text.trim (front ++ rest) = front ++ Text.trimEnd rest :=
    Text.trim_append hne (fun c hc => hletters c (List.mem_of_head? hc))
      (fun c hc => hletters c (List.mem_of_getLast? hc)) rest
  have hsuccess : (Text.afterFolded? ({} : Config).vocabulary.success
      (front ++ Text.trimEnd rest)).isSome = true := by
    show (Text.afterFolded? "OK" (front ++ Text.trimEnd rest)).isSome = true
    rw [Text.afterFolded?_append hequal]
    rfl
  apply Vocabulary.classify_of_confirmation?
  rw [htrim]
  unfold Vocabulary.confirmation?
  rw [if_pos hsuccess]
  rfl

namespace Receiver

variable {ε : Type}

/-- Nothing goes on, and the framer is at the start of a line. -/
structure Quiet (config : Config) (r : Receiver ε) : Prop where
  framer_eq : r.framer = .new config.framing
  vocabulary_eq : r.vocabulary = config.vocabulary
  capacity_eq : r.tracker.capacity = config.vocabulary.replyCapacity
  capture_eq_none : r.capture = none

/-- **At rest.** No command is in flight either. -/
structure AtRest (config : Config) (r : Receiver ε) : Prop extends Quiet config r where
  current_eq_none : r.tracker.current = none

theorem atRest_new (config : Config) (table : EventTable ε) : AtRest config (.new config table) :=
  ⟨⟨rfl, rfl, rfl, rfl⟩, rfl⟩

/-- A command that is begun at rest is in flight under its name. -/
theorem AtRest.exists_begin {r : Receiver ε} (h : AtRest {} r) (c : NamedCommand) :
    ∃ begun, r.begin c.written = .ok (r.tracker.next, begun) ∧ Quiet {} begun
      ∧ begun.table = r.table
      ∧ begun.tracker.current = some ⟨r.tracker.next, c.name, {}, 0⟩ := by
  refine ⟨_, begin_of_none r c.written h.current_eq_none, ?_, rfl, ?_⟩
  · exact ⟨h.framer_eq, h.vocabulary_eq, h.capacity_eq, h.capture_eq_none⟩
  · simp only [h.vocabulary_eq, c.name_written]

/-- A plain line that the table does not know is counted and changes nothing else. -/
theorem handle_dropped (r : Receiver ε) (raw : Bytes) (hl : r.IsLookedAt raw) {text : Text}
    (hk : r.kind raw = .plain text) (hbare : ∀ m, r.table.resolveBare text ≠ .ok m) :
    ∃ s, r.handle (.line raw) = (r.withStats s, none) := by
  rw [handle_of_isLookedAt r raw hl, hk]
  apply dispatch_of_lookup?_eq_none r.counted rfl
  have htable : r.counted.table = r.table := rfl
  cases hm : r.table.resolveBare text with
  | ok m => exact absurd hm (hbare m)
  | error err =>
    unfold EventTable.lookup?
    simp only [htable, hm]
    rfl

/-- **The lines of the reply,** blank lines among them, are gathered, and nothing is handed out
yet. -/
theorem handleAll_reply {lines : List Bytes} {replies : List ReplyLine} {p : Pending}
    (hne : p.name ≠ []) (hreplies : ∀ l ∈ replies, l.Answers p.name)
    (hlines : (lines.map Utf8.decode).filter (Text.trim · ≠ []) = replies.map ReplyLine.sent)
    (r : Receiver ε) (hvocabulary : r.vocabulary = ({} : Config).vocabulary)
    (hcapture : r.capture = none) (hp : r.tracker.current = some p) :
    ∃ gathered, r.handleAll (lines.map .line) = (gathered, []) ∧ gathered.capture = none
      ∧ gathered.tracker.current = some (p.appendAll r.tracker.capacity replies) := by
  induction lines generalizing r replies p with
  | nil =>
    rw [eq_comm, List.map_nil, List.filter_nil, List.map_eq_nil_iff] at hlines
    rw [hlines]
    exact ⟨r, rfl, hcapture, hp⟩
  | cons raw lines ih =>
    rw [List.map_cons, handleAll_cons]
    by_cases hblank : Text.trim (Utf8.decode raw) = []
    · rw [List.map_cons, List.filter_cons_of_neg (by simpa using hblank)] at hlines
      obtain ⟨gathered, hall, hdone⟩ := ih hne hreplies hlines r.counted hvocabulary hcapture hp
      rw [handle_of_blank r raw hcapture hblank]
      simp only [hall]
      exact ⟨gathered, rfl, hdone⟩
    · rw [List.map_cons, List.filter_cons_of_pos (by simpa using hblank)] at hlines
      obtain ⟨l, more, rfl, hl, hmore⟩ := List.map_eq_cons_iff.mp hlines.symm
      have hanswers := hreplies l List.mem_cons_self
      have hpending : r.tracker.pendingName? = some p.name := by
        unfold Tracker.pendingName?
        rw [hp, Option.map_some, Option.filter_some, if_pos (by simpa using hne)]
      have hkind : r.kind raw = .body l.text := by
        unfold kind
        rw [hvocabulary, hpending, ← hl, hanswers.classify hne]
      have happend : (r.tracker.append l.text).current
          = some (p.append r.tracker.capacity l.text) := by
        rw [Tracker.append, hp, Option.map_some]
      obtain ⟨gathered, hall, hdone⟩ := ih (p := p.append r.tracker.capacity l.text) hne
        (fun l' hl' => hreplies l' (List.mem_cons_of_mem l hl')) hmore.symm
        ({ r.counted with tracker := r.tracker.append l.text }.count
          fun s => { s with bodyLines := s.bodyLines + 1 })
        hvocabulary hcapture happend
      rw [handle_body r hcapture hkind]
      simp only [hall]
      exact ⟨gathered, rfl, hdone⟩

/-- **Echo, reply and confirmation,** line by line. -/
theorem handleAll_exchange {r : Receiver ε} (hquiet : Quiet {} r) {number : Nat} (c : NamedCommand)
    (hcurrent : r.tracker.current = some ⟨number, c.name, {}, 0⟩)
    (hbare : ∀ m, r.table.resolveBare (Text.trim c.echo) ≠ .ok m) {replies : List ReplyLine}
    (hreplies : ∀ l ∈ replies, l.Answers c.name) {lines : List Bytes}
    (hlines : (lines.map Utf8.decode).filter (Text.trim · ≠ []) = replies.map ReplyLine.sent)
    {last : Bytes} (hlast : (Text.afterFolded? "OK" (Utf8.decode last)).isSome = true)
    (hbody : (ReplyLine.bodyText replies).byteLength ≤ ({} : Config).vocabulary.replyCapacity) :
    (r.handleAll ((Utf8.encode c.echo :: (lines ++ [last])).map .line)).2
      = [.resolved ⟨number, c.name, .success, ReplyLine.bodyText replies, false, none⟩] := by
  -- the echo
  have hkind : r.kind (Utf8.encode c.echo) = .plain (Text.trim c.echo) := by
    unfold kind
    rw [Utf8.decode_encode, hquiet.vocabulary_eq, c.classify_echo]
  have hlooked : r.IsLookedAt (Utf8.encode c.echo) := by
    refine ⟨hquiet.capture_eq_none, ?_⟩
    rw [Utf8.decode_encode, c.trim_echo]
    exact List.cons_ne_nil _ _
  obtain ⟨s, hs⟩ := handle_dropped r _ hlooked hkind hbare
  -- the lines of the reply
  obtain ⟨gathered, hall, hcapture, hcurrent'⟩ := handleAll_reply c.name_ne_nil hreplies hlines
    (r.withStats s) hquiet.vocabulary_eq hquiet.capture_eq_none hcurrent
  have hcapacity : (r.withStats s).tracker.capacity = _ := hquiet.capacity_eq
  rw [hcapacity, Pending.appendAll_reply hreplies hbody] at hcurrent'
  -- the confirmation
  have hvocabulary : gathered.vocabulary = ({} : Config).vocabulary := by
    have hfixed := (handleAll_fixed (r.withStats s) (lines.map .line)).1
    rw [hall] at hfixed
    exact hfixed.trans hquiet.vocabulary_eq
  have husable : gathered.vocabulary.Usable := by
    rw [hvocabulary]
    exact Config.usable_of_validate rfl
  have hconfirms : gathered.kind last = .confirmation .success none := by
    unfold kind
    rw [hvocabulary, Vocabulary.classify_ok hlast]
  have hconfirmed := handle_confirmation gathered husable hcapture hcurrent' hconfirms
  rw [List.map_cons, handleAll_cons, hs, List.map_append, handleAll_append, hall,
    List.map_singleton, handleAll_cons, hconfirmed]
  rfl

/-- **A reply comes back.** Under the default configuration, a command is begun at rest. Its echo,
which is no entry of the table, the lines of its reply with blank lines in between, and a line that
begins with the success token are fed. The one thing handed out is the resolution of the command,
with what the lines of the reply say as its body. -/
theorem reply_comes_back (r : Receiver ε) (hrest : AtRest {} r) (c : NamedCommand)
    (hbare : ∀ m, r.table.resolveBare (Text.trim c.echo) ≠ .ok m) (replies : List ReplyLine)
    (hreplies : ∀ l ∈ replies, l.Answers c.name) (lines : List Bytes)
    (hlines : (lines.map Utf8.decode).filter (Text.trim · ≠ []) = replies.map ReplyLine.sent)
    (last : Bytes) (hlast : (Text.afterFolded? "OK" (Utf8.decode last)).isSome = true)
    (hwire : ∀ raw ∈ Utf8.encode c.echo :: (lines ++ [last]),
      Terminators.crlf.IsWireLine raw ∧ raw.length ≤ ({} : Config).framing.lineLimit)
    (hbody : (ReplyLine.bodyText replies).byteLength ≤ ({} : Config).vocabulary.replyCapacity) :
    ∃ begun, r.begin c.written = .ok (r.tracker.next, begun)
      ∧ (begun.feed ((Utf8.encode c.echo :: (lines ++ [last])).flatMap
          (· ++ Terminators.crlf.bytes))).2
        = [.resolved ⟨r.tracker.next, c.name, .success, ReplyLine.bodyText replies, false,
            none⟩] := by
  obtain ⟨begun, hbegin, hquiet, htable, hcurrent⟩ := hrest.exists_begin c
  refine ⟨begun, hbegin, ?_⟩
  rw [← htable] at hbare
  have hframer := hquiet.framer_eq
  have hbytes : begun.framer.terminators.bytes = Terminators.crlf.bytes := by
    rw [hframer]
    rfl
  rw [← hbytes, feed_lines begun (by rw [hframer]; rfl) (by rw [hframer]; rfl) _
    (by rw [hframer]; exact fun w hw => (hwire w hw).1)
    (by rw [hframer]; exact fun w hw => (hwire w hw).2)]
  exact handleAll_exchange hquiet c hcurrent hbare hreplies hlines hlast hbody

/-- Two lines, the second one in another case and with a payload that reads like a token, and a
blank line between them. -/
theorem reply_comes_back_folded :
    let r : Receiver Unit := .new {} .empty
    let c : NamedCommand :=
      ⟨"CSQ", "?", List.cons_ne_nil _ _, List.all_eq_true.mp rfl, by decide, fun d hd => by
        cases hd
        rfl⟩
    let replies : List ReplyLine := [⟨"CSQ", " =: a, b"⟩, ⟨"csq", "OK"⟩]
    let lines := [Utf8.encode "+CSQ: =: a, b", Utf8.encode " ", Utf8.encode "+csq:OK"]
    AtRest {} r ∧ (∀ m, r.table.resolveBare (Text.trim c.echo) ≠ .ok m)
      ∧ (∀ l ∈ replies, l.Answers c.name)
      ∧ (lines.map Utf8.decode).filter (Text.trim · ≠ []) = replies.map ReplyLine.sent
      ∧ ∃ begun, r.begin c.written = .ok (1, begun)
        ∧ (begun.feed ((Utf8.encode c.echo :: (lines ++ [Utf8.encode "ok"])).flatMap
            (· ++ Terminators.crlf.bytes))).2
          = [.resolved ⟨1, "CSQ", .success, "a, b\ncsq:OK", false, none⟩] := by
  intro r c replies lines
  have hrest : AtRest {} r := atRest_new {} .empty
  have hbare : ∀ m, r.table.resolveBare (Text.trim c.echo) ≠ .ok m := by
    intro m h
    cases h
  have hreplies : ∀ l ∈ replies, l.Answers c.name := by
    intro l hl
    rcases List.mem_cons.mp hl with rfl | hl
    · exact ⟨rfl, by rintro c hc; cases hc; rfl⟩
    · rw [List.mem_singleton.mp hl]
      exact ⟨rfl, by rintro c hc; cases hc; rfl⟩
  have hlines : (lines.map Utf8.decode).filter (Text.trim · ≠ []) = replies.map ReplyLine.sent :=
    rfl
  have hwire : ∀ raw ∈ Utf8.encode c.echo :: (lines ++ [Utf8.encode "ok"]),
      Terminators.crlf.IsWireLine raw ∧ raw.length ≤ ({} : Config).framing.lineLimit := by
    have hall : Utf8.encode c.echo :: (lines ++ [Utf8.encode "ok"])
        = (["AT+CSQ?", "+CSQ: =: a, b", " ", "+csq:OK", "ok"] : List Text).map Utf8.encode := rfl
    intro raw hraw
    rw [hall] at hraw
    obtain ⟨line, hline, rfl⟩ := List.mem_map.mp hraw
    rw [Utf8.length_encode]
    have hfits : ∀ line ∈ (["AT+CSQ?", "+CSQ: =: a, b", " ", "+csq:OK", "ok"] : List Text),
        '\r' ∉ line ∧ line.byteLength ≤ 256 := by decide
    obtain ⟨hclean, hlength⟩ := hfits line hline
    refine ⟨Utf8.isWireLine_encode fun hend => ?_, hlength⟩
    exact hclean (hend.subset List.mem_cons_self)
  obtain ⟨begun, hbegin, hout⟩ := reply_comes_back r hrest c hbare replies hreplies lines hlines
    (Utf8.encode "ok") rfl hwire (by decide)
  have hbody : ReplyLine.bodyText replies = "a, b\ncsq:OK".toList := rfl
  rw [hbody] at hout
  exact ⟨hrest, hbare, hreplies, hlines, begun, hbegin, hout⟩

end Receiver

end ModemLink
