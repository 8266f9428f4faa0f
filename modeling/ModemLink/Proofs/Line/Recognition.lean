/-
Which tokens can be recognised.

The check of a configuration asks that no token is empty, and that is all it asks of the texts of tokens. A
line is compared with the tokens after the blanks at both of its ends have been left out, so a token may
pass the check and still not be found where it stands.

A token that begins with a blank heads no line at all: it is dead, and whatever it was to confirm stays
unconfirmed. A token that ends with a blank is found if more than blanks comes behind it, and not at the end
of a line. All other tokens are found wherever they stand at the beginning of a line.
-/
import ModemLink.Proofs.Line.Confirmation

set_option autoImplicit false

namespace ModemLink

namespace Text

/-! ## Tokens with blanks -/

/-- A text begins with itself. -/
theorem beginsFolded_append (token rest : Text) : BeginsFolded token (token ++ rest) :=
  ⟨token, List.prefix_append token rest, beq_self_eq_true _⟩

theorem BeginsFolded.length_le {token line : Text} (h : BeginsFolded token line) :
    token.length ≤ line.length := by
  obtain ⟨front, hfront, hfolded⟩ := h
  have hlength := congrArg List.length (equalFolded_iff.mp hfolded)
  rw [length_folded, length_folded] at hlength
  have := hfront.length_le
  omega

/-- **A token that heads a trimmed line** does not begin with a blank. The two first characters may be
different letters, but whether they are blanks does not depend on case. -/
theorem isBlank_of_beginsFolded_trim {token line : Text} (h : BeginsFolded token (trim line)) {b : Char}
    (hb : token.head? = some b) : isBlank b = false := by
  obtain ⟨front, ⟨rest, hrest⟩, hfolded⟩ := h
  obtain ⟨token, rfl⟩ := List.head?_eq_some_iff.mp hb
  cases front with
  | nil => cases equalFolded_iff.mp hfolded
  | cons c front =>
    have hcase : c.toLower = b.toLower := (List.cons.inj (equalFolded_iff.mp hfolded)).1
    have hhead : (trim line).head? = some c := by
      rw [← hrest]
      rfl
    rw [← isBlank_toLower b, ← hcase, isBlank_toLower]
    exact isBlank_of_head?_trim hhead

/-- A token that ends with a blank does not head a line of it and blanks: at least that blank is left
out. -/
theorem not_beginsFolded_trim {token text : Text} {b : Char} (hlast : token.getLast? = some b)
    (hb : isBlank b = true) (htext : ∀ c ∈ text, isBlank c = true) :
    ¬ BeginsFolded token (trim (token ++ text)) := by
  intro h
  obtain ⟨front, rfl⟩ := List.getLast?_eq_some_iff.mp hlast
  have htrim : trim (front ++ [b] ++ text) = trim front := by
    rw [trim_append_blanks htext, trim_append_blanks (List.forall_mem_singleton.mpr hb)]
  have hlong := h.length_le
  have hshort := length_trim_le front
  rw [htrim, List.length_append, List.length_singleton] at hlong
  omega

/-- **Where a token stands** after trimming: a line that begins with a token is headed by it exactly if the
token does not begin with a blank, and does not end with one before nothing but blanks. -/
theorem beginsFolded_trim_iff {token : Text} (hne : token ≠ []) (text : Text) :
    BeginsFolded token (trim (token ++ text))
      ↔ (∀ b, token.head? = some b → isBlank b = false)
        ∧ ((∀ b, token.getLast? = some b → isBlank b = false) ∨ ∃ b ∈ text, isBlank b = false) := by
  constructor
  · intro h
    refine ⟨fun b hb => isBlank_of_beginsFolded_trim h hb, ?_⟩
    by_contra hnot
    rw [not_or] at hnot
    obtain ⟨hlast, htext⟩ := hnot
    push Not at hlast htext
    obtain ⟨b, hb, hblank⟩ := hlast
    refine not_beginsFolded_trim hb ?_ ?_ h
    · simpa using hblank
    · simpa using htext
  · rintro ⟨hfirst, hlast | hmore⟩
    · rw [trim_append hne hfirst hlast]
      exact beginsFolded_append token _
    · have hstart : trimStart (token ++ text) = token ++ text := by
        unfold trimStart
        rw [dropWhile_isBlank_eq_self_iff, List.head?_append, List.head?_eq_some_head hne,
          Option.some_or, ← List.head?_eq_some_head hne]
        exact hfirst
      unfold trim
      rw [hstart, trimEnd_append_of_not_blank hmore]
      exact beginsFolded_append token _

end Text

namespace Vocabulary

open Text

variable {v : Vocabulary}

/-- **A token at the head of a line** makes it a confirmation, whichever token decides. -/
theorem exists_confirms {token line : Text} (htoken : token ∈ v.confirmationTokens)
    (hheads : BeginsFolded token line) : ∃ status detail, v.Confirms line status detail := by
  cases hc : v.confirmation? line with
  | none => exact absurd hheads ((confirmation?_eq_none_iff line).mp hc token htoken)
  | some outcome => exact ⟨outcome.1, outcome.2, (confirmation?_eq_some_iff line _ _).mp hc⟩

/-- **Which tokens are recognised,** in a configuration that passes its check.

* Some line is headed by the token, once it is trimmed, exactly if the token does not begin with a blank.
* A line of the token and a text is headed by it exactly if, besides, the token does not end with a blank or
  the text is not blank.
* Such a line is then a confirmation that ends a command, whatever command is in flight, and of the token
  that has priority. -/
theorem token_recognised_iff {c : Config} (hvalid : c.validate = .ok ()) {token : Text}
    (htoken : token ∈ c.vocabulary.confirmationTokens) :
    ((∃ line, BeginsFolded token (trim line)) ↔ ∀ b, token.head? = some b → isBlank b = false)
      ∧ ∀ text, (BeginsFolded token (trim (token ++ text))
          ↔ (∀ b, token.head? = some b → isBlank b = false)
            ∧ ((∀ b, token.getLast? = some b → isBlank b = false) ∨ ∃ b ∈ text, isBlank b = false))
        ∧ (BeginsFolded token (trim (token ++ text)) → ∀ pending, ∃ status detail,
            c.vocabulary.classify (token ++ text) pending = .confirmation status detail
              ∧ c.vocabulary.Confirms (trim (token ++ text)) status detail
              ∧ status.isTerminal = true) := by
  have husable := Config.usable_of_validate hvalid
  have hne := ne_nil_of_mem_confirmationTokens husable htoken
  refine ⟨⟨?_, ?_⟩, fun text => ⟨beginsFolded_trim_iff hne text, ?_⟩⟩
  · rintro ⟨line, hline⟩ b hb
    exact isBlank_of_beginsFolded_trim hline hb
  · intro hfirst
    -- a full stop behind it keeps the blanks at the end of the token
    exact ⟨token ++ ['.'], (beginsFolded_trim_iff hne _).mpr
      ⟨hfirst, .inr ⟨'.', List.mem_cons_self, rfl⟩⟩⟩
  · intro hheads pending
    obtain ⟨status, detail, hconfirms⟩ := exists_confirms htoken hheads
    have hkind := (classify_eq_confirmation_iff (token ++ text) pending status detail).mpr hconfirms
    exact ⟨status, detail, hkind, hconfirms, (classify_confirmation husable hkind).1⟩

/-- A prompt that ends with a space is recognised in front of a text. -/
theorem token_recognised_before_text :
    let c : Config := { vocabulary := { extras := [("> ", .readyForData)] } }
    c.validate = .ok () ∧ "> ".toList ∈ c.vocabulary.confirmationTokens
      ∧ BeginsFolded "> " (trim ("> ".toList ++ "go".toList))
      ∧ ¬ BeginsFolded "> " (trim ("> ".toList ++ []))
      ∧ ∃ status detail, c.vocabulary.classify ("> ".toList ++ "go".toList) none
        = .confirmation status detail := by
  intro c
  have hvalid : c.validate = .ok () := by decide
  have htoken : "> ".toList ∈ c.vocabulary.confirmationTokens := by decide
  obtain ⟨-, hheads⟩ := token_recognised_iff hvalid htoken
  have hfirst : ∀ b, "> ".toList.head? = some b → isBlank b = false := by
    intro b hb
    cases hb
    rfl
  have hbegins := (hheads "go").1.mpr ⟨hfirst, .inr ⟨'g', by decide, rfl⟩⟩
  refine ⟨hvalid, htoken, hbegins, ?_, ?_⟩
  · rw [(hheads []).1]
    rintro ⟨-, hlast | ⟨b, hb, -⟩⟩
    · cases hlast ' ' rfl
    · cases hb
  · obtain ⟨status, detail, hkind, -⟩ := (hheads "go").2 hbegins none
    exact ⟨status, detail, hkind⟩

/-- A success token with a space in front passes the check, and nothing is a confirmation by it: neither
the token alone nor any other line. -/
theorem token_behind_blank_is_dead :
    let c : Config := { vocabulary := { success := " OK" } }
    c.validate = .ok () ∧ " OK".toList ∈ c.vocabulary.confirmationTokens
      ∧ c.vocabulary.classify (" OK".toList ++ []) none = .plain "OK"
      ∧ ∀ line, ¬ BeginsFolded c.vocabulary.success (trim line) := by
  intro c
  refine ⟨by decide, by decide, by decide, fun line hline => ?_⟩
  cases isBlank_of_beginsFolded_trim hline (b := ' ') rfl

end Vocabulary

end ModemLink
