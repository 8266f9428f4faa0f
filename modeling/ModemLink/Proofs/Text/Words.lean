/-
Trimmed texts and whole words.

A trimmed text is one without a blank at either end. The name of a command is made of word
characters, and a line that repeats it repeats a whole word, so the word at the head of the line is
the name up to case.
-/
import ModemLink.Command
import ModemLink.Line

set_option autoImplicit false

namespace ModemLink.Text

/-! ## Blanks at the ends -/

theorem dropWhile_isBlank_eq_self_iff (s : Text) :
    s.dropWhile isBlank = s ↔ ∀ c, s.head? = some c → isBlank c = false := by
  cases s with
  | nil => simp
  | cons c s =>
    rw [List.dropWhile_cons]
    by_cases hc : isBlank c = true
    · rw [if_pos hc]
      constructor
      · intro h
        -- what is left is shorter
        have hle := (List.dropWhile_suffix isBlank (l := s)).length_le
        rw [h, List.length_cons] at hle
        omega
      · intro h
        have hblank := h c rfl
        rw [hc] at hblank
        cases hblank
    · rw [if_neg hc]
      simpa using hc

/-- **Trimmed.** A text is its own trimmed form exactly if it neither begins nor ends with a
blank. -/
theorem trim_eq_self_iff (s : Text) :
    trim s = s ↔ (∀ c, s.head? = some c → isBlank c = false)
      ∧ ∀ c, s.getLast? = some c → isBlank c = false := by
  have hend (u : Text) : trimEnd u = u ↔ ∀ c, u.getLast? = some c → isBlank c = false := by
    unfold trimEnd
    rw [List.reverse_eq_iff, dropWhile_isBlank_eq_self_iff, List.head?_reverse]
  have hstart : trimStart s = s ↔ ∀ c, s.head? = some c → isBlank c = false :=
    dropWhile_isBlank_eq_self_iff s
  rw [← hend, ← hstart]
  constructor
  · intro h
    have hle : (trim s).length ≤ (trimStart s).length := by
      unfold trim trimEnd
      rw [List.length_reverse]
      have := (List.dropWhile_suffix isBlank (l := (trimStart s).reverse)).length_le
      rw [List.length_reverse] at this
      exact this
    have hsuffix : trimStart s <:+ s := List.dropWhile_suffix isBlank
    have hfirst : trimStart s = s := by
      apply hsuffix.eq_of_length
      have := hsuffix.length_le
      rw [h] at hle
      omega
    refine ⟨hfirst, ?_⟩
    unfold trim at h
    rw [hfirst] at h
    exact h
  · rintro ⟨hfirst, hlast⟩
    unfold trim
    rw [hfirst, hlast]

/-- What a text has before the blanks at its end stays. -/
theorem trimEnd_append {u : Text} (hlast : ∀ c, u.getLast? = some c → isBlank c = false)
    (s : Text) :
    trimEnd (u ++ s) = u ++ trimEnd s := by
  have hstop : u.reverse.dropWhile isBlank = u.reverse := by
    rw [dropWhile_isBlank_eq_self_iff, List.head?_reverse]
    exact hlast
  unfold trimEnd
  rw [List.reverse_append, List.dropWhile_append, hstop]
  split
  · -- nothing but blanks stands behind it
    next hnil => rw [List.isEmpty_iff.mp hnil, List.reverse_reverse, List.reverse_nil, List.append_nil]
  · rw [List.reverse_append, List.reverse_reverse]

theorem trim_append {u : Text} (hne : u ≠ [])
    (hfirst : ∀ c, u.head? = some c → isBlank c = false)
    (hlast : ∀ c, u.getLast? = some c → isBlank c = false) (s : Text) :
    trim (u ++ s) = u ++ trimEnd s := by
  have hstart : trimStart (u ++ s) = u ++ s := by
    unfold trimStart
    rw [dropWhile_isBlank_eq_self_iff, List.head?_append, List.head?_eq_some_head hne,
      Option.some_or, ← List.head?_eq_some_head hne]
    exact hfirst
  unfold trim
  rw [hstart, trimEnd_append hlast]

section Blanks

variable {blanks : Text} (hblanks : ∀ c ∈ blanks, isBlank c = true)
include hblanks

/-- Blanks at the end do not count. -/
theorem trimEnd_append_blanks (s : Text) : trimEnd (s ++ blanks) = trimEnd s := by
  unfold trimEnd
  rw [List.reverse_append, List.dropWhile_append_of_pos]
  intro c hc
  exact hblanks c (List.mem_reverse.mp hc)

theorem trim_append_blanks (s : Text) : trim (s ++ blanks) = trim s := by
  have hnone : blanks.dropWhile isBlank = [] := by
    rw [← List.append_nil blanks, List.dropWhile_append_of_pos hblanks]
    rfl
  unfold trim trimStart
  rw [List.dropWhile_append]
  split
  · next hnil =>
    -- the text is blank altogether
    rw [hnone, List.isEmpty_iff.mp hnil]
  · exact trimEnd_append_blanks hblanks _

/-- Nor do blanks at the beginning. -/
theorem trim_blanks_append (s : Text) : trim (blanks ++ s) = trim s := by
  unfold trim trimStart
  rw [List.dropWhile_append_of_pos hblanks]

end Blanks

/-- A text is its trimmed end and blanks. -/
theorem exists_trimEnd_append (s : Text) :
    ∃ blanks, (∀ c ∈ blanks, isBlank c = true) ∧ s = trimEnd s ++ blanks := by
  refine ⟨(s.reverse.takeWhile isBlank).reverse, ?_, ?_⟩
  · intro c hc
    exact List.all_eq_true.mp List.all_takeWhile c (List.mem_reverse.mp hc)
  · unfold trimEnd
    rw [← List.reverse_append, List.takeWhile_append_dropWhile, List.reverse_reverse]

theorem trim_trimEnd (s : Text) : trim (trimEnd s) = trim s := by
  obtain ⟨blanks, hblanks, hs⟩ := exists_trimEnd_append s
  calc trim (trimEnd s) = trim (trimEnd s ++ blanks) := (trim_append_blanks hblanks _).symm
    _ = trim s := by rw [← hs]

/-- What stands before a text that is not blank altogether stays, blanks included. -/
theorem trimEnd_append_of_not_blank {s : Text} (h : ∃ b ∈ s, isBlank b = false) (u : Text) :
    trimEnd (u ++ s) = u ++ trimEnd s := by
  have hsome : ¬ (s.reverse.dropWhile isBlank).isEmpty = true := by
    intro hnil
    obtain ⟨blanks, hblanks, hs⟩ := exists_trimEnd_append s
    rw [show trimEnd s = [] from by unfold trimEnd; rw [List.isEmpty_iff.mp hnil]; rfl,
      List.nil_append] at hs
    obtain ⟨b, hb, hnot⟩ := h
    rw [hblanks b (hs ▸ hb)] at hnot
    cases hnot
  unfold trimEnd
  rw [List.reverse_append, List.dropWhile_append, if_neg hsome, List.reverse_append,
    List.reverse_reverse]

/-- A trimmed text does not begin with a blank. -/
theorem isBlank_of_head?_trim {s : Text} {c : Char} (h : (trim s).head? = some c) :
    isBlank c = false := by
  obtain ⟨blanks, -, hs⟩ := exists_trimEnd_append (trimStart s)
  have hhead : (trimStart s).head? = some c := by
    rw [hs, List.head?_append]
    exact Option.or_eq_some_iff.mpr (.inl h)
  have hnot := List.head?_dropWhile_not isBlank s
  rw [show s.dropWhile isBlank = trimStart s from rfl, hhead] at hnot
  exact hnot

/-- Trimming leaves out characters, and adds none. -/
theorem length_trim_le (s : Text) : (trim s).length ≤ s.length := by
  obtain ⟨blanks, -, hs⟩ := exists_trimEnd_append (trimStart s)
  have hstart : (trimStart s).length ≤ s.length := (List.dropWhile_suffix isBlank).length_le
  have hlength := congrArg List.length hs
  rw [List.length_append] at hlength
  show (trimEnd (trimStart s)).length ≤ s.length
  omega

/-! ## Whole words -/

/-- Only letters of ASCII have another form. -/
theorem toLower_of_not_ascii {c : Char} (h : 128 ≤ c.toNat) : c.toLower = c := by
  unfold Char.toLower
  apply dif_neg
  rintro ⟨-, hz⟩
  have : c.toNat ≤ 90 := hz
  omega

/-- What tells no letter of ASCII from its other form does not depend on case. -/
theorem apply_toLower {β : Type} (f : Char → β)
    (hascii : ∀ n < 128, f (Char.ofNat n).toLower = f (Char.ofNat n)) (c : Char) :
    f c.toLower = f c := by
  by_cases h : c.toNat < 128
  · have hc := hascii c.toNat h
    rw [Char.ofNat_toNat] at hc
    exact hc
  · rw [toLower_of_not_ascii (Nat.le_of_not_lt h)]

/-- Case does not matter for what a word is made of. -/
theorem isWordChar_toLower (c : Char) : isWordChar c.toLower = isWordChar c :=
  apply_toLower isWordChar (by decide) c

theorem isWordChar_of_toLower_eq {c d : Char} (h : c.toLower = d.toLower) :
    isWordChar c = isWordChar d := by
  rw [← isWordChar_toLower c, h, isWordChar_toLower]

/-- A word has no blanks in it. -/
theorem isBlank_of_isWordChar {c : Char} (h : isWordChar c = true) : isBlank c = false := by
  have hc : c.toNat < 128 := by
    -- the last capital, the last small letter, the last digit and the underscore are in ASCII
    rcases Bool.or_eq_true_iff.mp h with h | h
    · rcases Bool.or_eq_true_iff.mp h with h | h
      · rcases Bool.or_eq_true_iff.mp h with h | h
        · have hz : c.val ≤ 'Z'.val := (of_decide_eq_true h).2
          exact Nat.lt_of_le_of_lt hz (by decide)
        · have hz : c.val ≤ 'z'.val := of_decide_eq_true (Bool.and_eq_true_iff.mp h).2
          exact Nat.lt_of_le_of_lt hz (by decide)
      · have h9 : c.val ≤ '9'.val := of_decide_eq_true (Bool.and_eq_true_iff.mp h).2
        exact Nat.lt_of_le_of_lt h9 (by decide)
    · rw [beq_iff_eq.mp h]
      decide
  have hascii : ∀ n < 128, isWordChar (Char.ofNat n) = true → isBlank (Char.ofNat n) = false := by
    decide
  have hblank := hascii c.toNat hc
  rw [Char.ofNat_toNat] at hblank
  exact hblank h

theorem takeWhile_isWordChar {word : Text} (hword : ∀ d ∈ word, isWordChar d = true) (rest : Text)
    (hrest : ∀ c, rest.head? = some c → isWordChar c = false) :
    (word ++ rest).takeWhile isWordChar = word := by
  rw [List.takeWhile_append_of_pos hword]
  cases rest with
  | nil => exact List.append_nil word
  | cons c rest =>
    rw [List.takeWhile_cons_of_neg (by rw [hrest c rfl]; exact Bool.false_ne_true)]
    exact List.append_nil word

/-- **The word at the head.** A text that repeats a name begins with that name, and no other word,
up to case. -/
theorem equalFolded_of_namesCommand {name word rest : Text}
    (hname : ∀ d ∈ name, isWordChar d = true) (hword : word.all isWordChar = true)
    (hrest : ∀ c, rest.head? = some c → isWordChar c = false)
    (h : namesCommand (word ++ rest) name = true) : equalFolded name word = true := by
  unfold namesCommand at h
  rw [Bool.and_eq_true] at h
  cases htail : afterFolded? name (word ++ rest) with
  | none =>
    rw [htail] at h
    cases h.2
  | some tail =>
    rw [htail] at h
    have htailhead : ∀ c, tail.head? = some c → isWordChar c = false := by
      intro c hc
      cases tail with
      | nil => cases hc
      | cons d tail =>
        cases hc
        simpa using h.2
    obtain ⟨front, hfront, hfold⟩ := afterFolded?_eq_some_iff.mp htail
    have hfrontword : ∀ d ∈ front, isWordChar d = true := by
      intro d hd
      have hmem : d.toLower ∈ name.map Char.toLower := hfold ▸ List.mem_map_of_mem hd
      obtain ⟨e, he, hed⟩ := List.mem_map.mp hmem
      rw [← isWordChar_of_toLower_eq hed]
      exact hname e he
    -- both ends of the text begin with the same word
    have hsame : word = front := by
      rw [← takeWhile_isWordChar (List.all_eq_true.mp hword) rest hrest, hfront,
        takeWhile_isWordChar hfrontword tail htailhead]
    unfold equalFolded
    rw [hsame, hfold]
    exact beq_self_eq_true _

theorem afterFolded?_append {name word : Text} (h : equalFolded name word = true) (rest : Text) :
    afterFolded? name (word ++ rest) = some rest := by
  rw [afterFolded?_eq_some_iff]
  exact ⟨word, rfl, (beq_iff_eq.mp h).symm⟩

/-- A text that begins with the name, up to case, and whose word ends there repeats the name. -/
theorem namesCommand_append {name word rest : Text} (hne : name ≠ [])
    (h : equalFolded name word = true)
    (hrest : ∀ c, rest.head? = some c → isWordChar c = false) :
    namesCommand (word ++ rest) name = true := by
  have hname : (!name.isEmpty) = true := by
    rw [Bool.not_eq_true', List.isEmpty_eq_false_iff]
    exact hne
  unfold namesCommand
  rw [afterFolded?_append h, hname]
  cases rest with
  | nil => rfl
  | cons c rest =>
    show (!isWordChar c) = true
    rw [hrest c rfl]
    rfl

end ModemLink.Text

namespace ModemLink.Command

/-- **The word behind the separator** is the name of the command. -/
theorem name_of_word {separators : List Char} {mark : Char} (hmark : mark ∈ separators)
    {word rest : Text} (hword : ∀ c ∈ word, Text.isWordChar c = true)
    (hlength : word.length ≤ nameLimit)
    (hrest : ∀ c, rest.head? = some c → Text.isWordChar c = false) :
    name separators ('A' :: 'T' :: mark :: (word ++ rest)) = word := by
  have hseparator : dropSeparator separators (mark :: (word ++ rest)) = word ++ rest :=
    if_pos hmark
  show ((dropSeparator separators (mark :: (word ++ rest))).takeWhile Text.isWordChar).take
    nameLimit = word
  rw [hseparator, Text.takeWhile_isWordChar hword rest hrest, List.take_of_length_le hlength]

/-- A name is made of word characters. -/
theorem isWordChar_of_mem_name {separators : List Char} {command : Text} {c : Char}
    (h : c ∈ name separators command) : Text.isWordChar c = true := by
  unfold name at h
  split at h
  · cases h
  · exact List.all_eq_true.mp List.all_takeWhile c (List.mem_of_mem_take h)

end ModemLink.Command
