/-
Which lines belong to the reply of a command.

The name of a command is found twice, by two readings that know nothing of each other. When the command
goes out, the word characters behind the separator are its name, as far as a name may be long. When a line
with a sentinel comes in, the name is compared character by character, and then what follows it is looked
at.

Both mean the same word: a line belongs to the reply exactly if the longest run of word characters behind
its sentinel is the name, up to case. So a command whose word is longer than a name may be has no reply
lines, since a module repeats the whole word and the name is only a part of it.
-/
import ModemLink.Proofs.Line
import ModemLink.Proofs.Text.Words

set_option autoImplicit false

namespace ModemLink

namespace Text

/-! ## Beginnings up to case -/

/-- A text begins with a token, up to the case of ASCII letters. -/
def BeginsFolded (token text : Text) : Prop :=
  ∃ front, front <+: text ∧ equalFolded front token = true

theorem afterFolded?_eq_none_iff {token text : Text} :
    afterFolded? token text = none ↔ ¬ BeginsFolded token text := by
  rw [Option.eq_none_iff_forall_ne_some]
  constructor
  · rintro h ⟨front, ⟨rest, rfl⟩, hfolded⟩
    exact h rest (afterFolded?_eq_some_iff.mpr ⟨front, rfl, beq_iff_eq.mp hfolded⟩)
  · intro h rest hrest
    obtain ⟨front, rfl, hfolded⟩ := afterFolded?_eq_some_iff.mp hrest
    exact h ⟨front, List.prefix_append _ _, beq_iff_eq.mpr hfolded⟩

/-! ## The leading word -/

/-- **The leading word** of a text: the longest run of word characters that it begins with. -/
structure IsLeadingWord (text word : Text) : Prop where
  begins : word <+: text
  isWord : ∀ c ∈ word, isWordChar c = true
  longest (run : Text) : run <+: text → (∀ c ∈ run, isWordChar c = true) → run <+: word

/-- There is only one. -/
theorem IsLeadingWord.unique {text word word' : Text} (h : IsLeadingWord text word)
    (h' : IsLeadingWord text word') : word = word' := by
  have hle := h'.longest word h.begins h.isWord
  have hge := h.longest word' h'.begins h'.isWord
  exact hle.eq_of_length (Nat.le_antisymm hle.length_le hge.length_le)

/-- What follows the word characters at the beginning is none. -/
theorem isWordChar_of_head?_dropWhile {text : Text} {c : Char}
    (hc : (text.dropWhile isWordChar).head? = some c) : isWordChar c = false := by
  have hnot := List.head?_dropWhile_not isWordChar text
  rw [hc] at hnot
  exact hnot

theorem isLeadingWord_takeWhile (text : Text) :
    IsLeadingWord text (text.takeWhile isWordChar) := by
  refine ⟨List.takeWhile_prefix _, List.all_eq_true.mp List.all_takeWhile, ?_⟩
  rintro run ⟨rest, rfl⟩ hrun
  rw [List.takeWhile_append_of_pos hrun]
  exact List.prefix_append _ _

theorem equalFolded_comm (s t : Text) : equalFolded s t = equalFolded t s := by
  unfold equalFolded
  exact BEq.comm

/-- **Two readings of one word.** A text repeats a name exactly if its leading word is that name, up to
case. -/
theorem namesCommand_iff {name text word : Text} (hne : name ≠ [])
    (hname : ∀ c ∈ name, isWordChar c = true) (hword : IsLeadingWord text word) :
    namesCommand text name = true ↔ equalFolded word name = true := by
  obtain rfl : word = text.takeWhile isWordChar := hword.unique (isLeadingWord_takeWhile text)
  have hrest (c : Char) (hc : (text.dropWhile isWordChar).head? = some c) :=
    isWordChar_of_head?_dropWhile hc
  rw [equalFolded_comm]
  constructor
  · intro h
    rw [← List.takeWhile_append_dropWhile (p := isWordChar) (l := text)] at h
    exact equalFolded_of_namesCommand hname List.all_takeWhile hrest h
  · intro h
    have hnames := namesCommand_append hne h hrest
    rw [List.takeWhile_append_dropWhile] at hnames
    exact hnames

end Text

namespace Vocabulary

/-- **Reply lines are those that carry the command's word.** A command has a name, and a line begins with
a sentinel, once it is trimmed, and with no word that confirms a command. It is a piece of the reply if its
leading word behind the sentinel is the name, up to case, and an event otherwise. Either way its text is
the trimmed line without the sentinel. -/
theorem body_iff_leading_word {v : Vocabulary} {separators : List Char} {command line text : Text}
    {sentinel : Char} (hname : Command.name separators command ≠ [])
    (hline : Text.trim line = sentinel :: text) (hsentinel : sentinel ∈ v.sentinels)
    (hconfirms : ∀ token ∈ v.confirmationTokens, ¬ Text.BeginsFolded token (Text.trim line)) :
    let name := Command.name separators command
    ∃ word, Text.IsLeadingWord text word
      ∧ (v.classify line (some name) = .body text ↔ Text.equalFolded word name = true)
      ∧ (v.classify line (some name) = .event text ↔ Text.equalFolded word name = false) := by
  intro name
  have hword := Text.isLeadingWord_takeWhile text
  have hnone : v.confirmation? (sentinel :: text) = none := by
    rw [← hline]
    exact confirmation?_eq_none fun token htoken =>
      Text.afterFolded?_eq_none_iff.mpr (hconfirms token htoken)
  have hnames : Text.namesCommand text name = Text.equalFolded _ name :=
    Bool.eq_iff_iff.mpr (Text.namesCommand_iff hname (fun _ => Command.isWordChar_of_mem_name) hword)
  have hkind : v.classify line (some name)
      = if Text.namesCommand text name then .body text else .event text :=
    classify_of_sentinel hnone hline hsentinel
  refine ⟨_, hword, ?_⟩
  rw [hkind, hnames]
  cases Text.equalFolded (text.takeWhile Text.isWordChar) name with
  | true => exact ⟨⟨fun _ => rfl, fun _ => rfl⟩, nofun, nofun⟩
  | false => exact ⟨⟨nofun, nofun⟩, fun _ => rfl, fun _ => rfl⟩

/-- Two lines that begin as a failure token does. The one that repeats the command in small letters is a
piece of its reply, and the one with a longer word is an event. -/
theorem reply_repeats_whole_word :
    let v : Vocabulary := { failures := ["ERROR", "+CME ERROR"] }
    v.classify " +cmee: 2\r" (some "CMEE".toList) = .body "cmee: 2"
      ∧ v.classify "+CMEE_X: 2" (some "CMEE".toList) = .event "CMEE_X: 2" := by
  intro v
  have hname : Command.name ['+'] "AT+CMEE?\r\n" = "CMEE".toList := by decide
  have hne : Command.name ['+'] "AT+CMEE?\r\n" ≠ [] := by
    rw [hname]
    nofun
  have hconfirms (line : Text) (h : ∀ token ∈ v.confirmationTokens, Text.afterFolded? token line = none) :
      ∀ token ∈ v.confirmationTokens, ¬ Text.BeginsFolded token line :=
    fun token htoken => Text.afterFolded?_eq_none_iff.mp (h token htoken)
  have hword (text : Text) := Text.isLeadingWord_takeWhile text
  constructor
  · have hline : Text.trim " +cmee: 2\r" = '+' :: "cmee: 2".toList := by decide
    obtain ⟨word, hleads, hbody, -⟩ :=
      body_iff_leading_word (v := v) hne hline (by decide) (hconfirms _ (by decide))
    obtain rfl := hleads.unique (hword _)
    rw [hname] at hbody
    exact hbody.mpr (by decide)
  · have hline : Text.trim "+CMEE_X: 2" = '+' :: "CMEE_X: 2".toList := by decide
    obtain ⟨word, hleads, -, hevent⟩ :=
      body_iff_leading_word (v := v) hne hline (by decide) (hconfirms _ (by decide))
    obtain rfl := hleads.unique (hword _)
    rw [hname] at hevent
    exact hevent.mpr (by decide)

end Vocabulary

end ModemLink
