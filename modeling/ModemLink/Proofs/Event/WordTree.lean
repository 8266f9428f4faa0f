/-
Trees of words.

A pattern is a path of words, and patterns make a tree of such words. Adding a path follows the
categories that are there and makes those that are not, so what the tree looks like depends on the
order in which paths are added. What it knows does not.

Two facts carry this. A path can be added exactly if neither it nor a row of the tree begins with the
other one, which is a condition on the two alone. And a word is no beginning of another one as far as
a lookup can see, because no word holds a delimiter: of the words of a level at most one heads a
text, so it does not matter which of them comes first.
-/
import ModemLink.Event.Build
import ModemLink.Proofs.Event.Lookup

set_option autoImplicit false

namespace ModemLink

/-! ## Words -/

/-- **A word,** as patterns are made of: not empty, and without a default delimiter. -/
structure IsWord (token : Text) : Prop where
  ne_nil : token ≠ []
  not_delimiter (c : Char) : c ∈ token → isDelimiter [] c = false

/-- Fields are runs of characters between separators. -/
theorem Text.of_mem_fields {isSeparator : Char → Bool} {s field : Text}
    (h : field ∈ Text.fields isSeparator s) :
    field ≠ [] ∧ ∀ c ∈ field, isSeparator c = false := by
  have hone {c : Char} (hc : ¬ isSeparator c = true) {run : Text}
      (hrun : ∀ x ∈ run, isSeparator x = false) :
      c :: run ≠ [] ∧ ∀ x ∈ c :: run, isSeparator x = false := by
    refine ⟨List.cons_ne_nil c run, fun x hx => ?_⟩
    rcases List.mem_cons.mp hx with rfl | hx
    · exact Bool.eq_false_iff.mpr hc
    · exact hrun x hx
  have hnone : ∀ x ∈ ([] : Text), isSeparator x = false := fun x hx => absurd hx List.not_mem_nil
  fun_induction Text.fields isSeparator s generalizing field with
  | case1 => cases h
  | case2 c s hc ih => exact ih h
  | case3 c hc =>
    rw [List.mem_singleton.mp h]
    exact hone hc hnone
  | case4 c hc d s hd ih =>
    rcases List.mem_cons.mp h with rfl | h
    · exact hone hc hnone
    · exact ih h
  | case5 c hc d s hd hnil ih =>
    rw [hnil] at h
    rw [List.mem_singleton.mp h]
    exact hone hc hnone
  | case6 c hc d s hd f fs hfs ih =>
    rw [hfs] at h ih
    -- the first run goes on
    rcases List.mem_cons.mp h with rfl | h
    · exact hone hc (ih List.mem_cons_self).2
    · exact ih (List.mem_cons_of_mem f h)

theorem isWord_of_mem_patternTokens {pattern token : Text} (h : token ∈ patternTokens pattern) :
    IsWord token :=
  ⟨(Text.of_mem_fields h).1, (Text.of_mem_fields h).2⟩

/-- A word up to a delimiter is the first word of a text. -/
theorem IsWord.takeWhile_append {token behind : Text} (h : IsWord token)
    (hbehind : ∀ c, behind.head? = some c → isDelimiter [] c = true) :
    (token ++ behind).takeWhile (fun c => !isDelimiter [] c) = token := by
  rw [List.takeWhile_append_of_pos fun c hc => by rw [h.not_delimiter c hc]; rfl]
  cases behind with
  | nil => exact List.append_nil token
  | cons c behind =>
    rw [List.takeWhile_cons_of_neg (by rw [hbehind c rfl]; exact Bool.false_ne_true)]
    exact List.append_nil token

/-- **Of the words only one** heads a text. -/
theorem IsWord.eq_of_heads {token other text left left' : Text} (h : IsWord token)
    (hother : IsWord other) (hheads : Heads [] token text left)
    (hheads' : Heads [] other text left') : token = other := by
  have hword {w l : Text} (hw : IsWord w) (hl : Heads [] w text l) :
      text.takeWhile (fun c => !isDelimiter [] c) = w := by
    cases hl with
    | ended =>
      have htake := hw.takeWhile_append
        (show ∀ c, ([] : Text).head? = some c → isDelimiter [] c = true from fun c hc => by cases hc)
      rw [List.append_nil] at htake
      exact htake
    | delimited c spaces left hc =>
      exact hw.takeWhile_append fun d hd => Option.some.inj hd ▸ hc
  rw [← hword h hheads, hword hother hheads']

/-! ## Spelling a path out -/

/-- **A text spells a path out** and has arguments. It consists of the words of the path, with a
default delimiter and any number of spaces between each two; it ends there, or goes on with a
default delimiter and the arguments, which are taken without their leading spaces. -/
inductive Spells : (text : Text) → List Text → (args : Text) → Prop where
  | ended (token : Text) : Spells token [token] []
  | followed (token : Text) (c : Char) (rest : Text) (hc : isDelimiter [] c = true) :
    Spells (token ++ c :: rest) [token] (rest.dropWhile (· == ' '))
  | step {token next text args : Text} {more : List Text} (c : Char) (spaces : Nat)
    (hc : isDelimiter [] c = true) (hmore : Spells text (next :: more) args) :
    Spells (token ++ c :: (List.replicate spaces ' ' ++ text)) (token :: next :: more) args

theorem spells_singleton_iff {token text args : Text} :
    Spells text [token] args ↔ Heads [] token text args := by
  constructor
  · rintro (_ | ⟨_, c, rest, hc⟩)
    · exact .ended
    · exact heads_dropWhile token hc rest
  · rintro (_ | ⟨c, spaces, left, hc, hspaces, hleft⟩)
    · exact .ended token
    · have hfollowed := Spells.followed token c (spaces ++ args) hc
      rw [dropWhile_space hspaces hleft] at hfollowed
      exact hfollowed

/-- A text that spells a path out begins with its first word. -/
theorem Spells.head?_eq {token text args : Text} {more : List Text} (hword : IsWord token)
    (h : Spells text (token :: more) args) : text.head? = token.head? := by
  have hhead (behind : Text) : (token ++ behind).head? = token.head? := by
    rw [List.head?_append, List.head?_eq_some_head hword.ne_nil, Option.some_or]
  cases h with
  | ended => rfl
  | followed => exact hhead _
  | step => exact hhead _

/-- A path of more than one word is spelled out by its first word and a text that spells the
others. -/
theorem spells_cons_iff {token next text args : Text} {more : List Text} (hnext : IsWord next) :
    Spells text (token :: next :: more) args
      ↔ ∃ left, Heads [] token text left ∧ Spells left (next :: more) args := by
  constructor
  · rintro (_ | _ | ⟨c, spaces, hc, hmore⟩)
    rename_i text
    refine ⟨text, .delimited c _ text hc (fun s hs => List.eq_of_mem_replicate hs) ?_, hmore⟩
    rw [hmore.head?_eq hnext]
    intro hspace
    have hdelimiter := hnext.not_delimiter ' ' (List.mem_of_mem_head? hspace)
    cases hdelimiter
  · rintro ⟨left, hheads, hmore⟩
    cases hheads with
    | ended =>
      -- nothing is left for the next word
      have hnil := hmore.head?_eq hnext
      rw [List.head?_nil, List.head?_eq_some_head hnext.ne_nil] at hnil
      cases hnil
    | delimited c spaces left hc hspaces hleft =>
      rw [List.eq_replicate_of_mem hspaces]
      exact .step c spaces.length hc hmore

/-- The first word of a path heads every text that spells it out. -/
theorem Spells.exists_heads {token text args : Text} {more : List Text}
    (hmore : ∀ w ∈ more, IsWord w) (h : Spells text (token :: more) args) :
    ∃ left, Heads [] token text left := by
  cases more with
  | nil => exact ⟨args, spells_singleton_iff.mp h⟩
  | cons next more =>
    obtain ⟨left, hheads, -⟩ := (spells_cons_iff (hmore next List.mem_cons_self)).mp h
    exact ⟨left, hheads⟩

/-! ## Trees of words -/

variable {ε : Type}

/-- The row with more tokens in front. -/
def Row.below (above : List Text) (row : Row ε) : Row ε := ⟨above ++ row.path, row.spec⟩

theorem otherwiseRow_append (above path : List Text) (otherwise : Option (EventSpec ε)) :
    otherwiseRow (above ++ path) otherwise = (otherwiseRow path otherwise).map (Row.below above) := by
  cases otherwise with
  | none => rfl
  | some spec =>
    simp only [otherwiseRow, List.map_cons, List.map_nil, Row.below, List.append_assoc]

namespace Entries

/-- Where a tree stands is in front of all its rows. -/
theorem rows_append (entries : Entries ε) (above path : List Text) :
    entries.rows (above ++ path) = (entries.rows path).map (Row.below above) := by
  induction entries generalizing path with
  | nil => rfl
  | event t s rest ih =>
    simp only [rows, List.map_cons, Row.below, List.append_assoc, ih]
  | category t ds o children rest ihchildren ih =>
    simp only [rows, List.map_append, List.append_assoc, ihchildren, ih, otherwiseRow_append]

/-- **A tree of words,** as patterns make it: all tokens are words, no two of a level are the same,
no category is empty, and no level has delimiters or an event for the rest of its own. -/
inductive Plain : Entries ε → Prop where
  | nil : Plain .nil
  | event {t : Text} {s : EventSpec ε} {rest : Entries ε} (hword : IsWord t)
    (hnew : t ∉ rest.tokens) (hrest : Plain rest) : Plain (.event t s rest)
  | category {t : Text} {children rest : Entries ε} (hword : IsWord t) (hnew : t ∉ rest.tokens)
    (hchildren : Plain children) (hsome : children ≠ .nil) (hrest : Plain rest) :
    Plain (.category t [] none children rest)

theorem mem_rows_event {t : Text} {s : EventSpec ε} {rest : Entries ε} {row : Row ε} :
    row ∈ (Entries.event t s rest).rows [] ↔ row = ⟨[t], s⟩ ∨ row ∈ rest.rows [] := by
  rw [rows, List.mem_cons]
  rfl

theorem mem_rows_category {t : Text} {ds : List Char} {children rest : Entries ε} {row : Row ε} :
    row ∈ (Entries.category t ds none children rest).rows []
      ↔ (∃ inner ∈ children.rows [], inner.below [t] = row) ∨ row ∈ rest.rows [] := by
  have hchildren : children.rows [t] = (children.rows []).map (Row.below [t]) :=
    children.rows_append [t] []
  show row ∈ children.rows [t] ++ [] ++ rest.rows [] ↔ _
  rw [List.append_nil, List.mem_append, hchildren, List.mem_map]

namespace Plain

/-- A row begins with a token of the top level, and consists of words. -/
theorem exists_path {entries : Entries ε} (h : entries.Plain) {row : Row ε}
    (hrow : row ∈ entries.rows []) :
    ∃ token more, row.path = token :: more ∧ token ∈ entries.tokens
      ∧ ∀ w ∈ token :: more, IsWord w := by
  induction h generalizing row with
  | nil => cases hrow
  | event hword _ _ ih =>
    rcases mem_rows_event.mp hrow with rfl | hrow
    · exact ⟨_, [], rfl, List.mem_cons_self, fun w hw => List.mem_singleton.mp hw ▸ hword⟩
    · obtain ⟨token, more, hpath, htoken, hwords⟩ := ih hrow
      exact ⟨token, more, hpath, List.mem_cons_of_mem _ htoken, hwords⟩
  | category hword _ _ _ _ ihchildren ih =>
    rcases mem_rows_category.mp hrow with ⟨inner, hinner, rfl⟩ | hrow
    · obtain ⟨token, more, hpath, -, hwords⟩ := ihchildren hinner
      refine ⟨_, token :: more, congrArg (_ :: ·) hpath, List.mem_cons_self, fun w hw => ?_⟩
      rcases List.mem_cons.mp hw with rfl | hw
      · exact hword
      · exact hwords w hw
    · obtain ⟨token, more, hpath, htoken, hwords⟩ := ih hrow
      exact ⟨token, more, hpath, List.mem_cons_of_mem _ htoken, hwords⟩

/-- A tree that is not empty has a row. -/
theorem exists_row {entries : Entries ε} (h : entries.Plain) (hne : entries ≠ .nil) :
    ∃ row, row ∈ entries.rows [] := by
  induction h with
  | nil => exact absurd rfl hne
  | event => exact ⟨_, mem_rows_event.mpr (.inl rfl)⟩
  | category _ _ _ hsome _ ihchildren _ =>
    obtain ⟨inner, hinner⟩ := ihchildren hsome
    exact ⟨_, mem_rows_category.mpr (.inl ⟨inner, hinner, rfl⟩)⟩

/-! ### Looking up -/

/-- No row behind an entry answers a text that the token of the entry heads. -/
theorem not_spells {rest : Entries ε} (h : rest.Plain) {t text left args : Text} (hword : IsWord t)
    (hnew : t ∉ rest.tokens) (hheads : Heads [] t text left) {row : Row ε}
    (hrow : row ∈ rest.rows []) : ¬ Spells text row.path args := by
  intro hspells
  obtain ⟨token, more, hpath, htoken, hwords⟩ := h.exists_path hrow
  rw [hpath] at hspells
  obtain ⟨left', hheads'⟩ :=
    hspells.exists_heads fun w hw => hwords w (List.mem_cons_of_mem token hw)
  apply hnew
  rw [hword.eq_of_heads (hwords token List.mem_cons_self) hheads hheads']
  exact htoken

/-- The row of a category is spelled out by the token of the category and a text that spells the
row out within. -/
theorem spells_below_iff {children : Entries ε} (h : children.Plain) {row : Row ε}
    (hrow : row ∈ children.rows []) {t text args : Text} :
    Spells text (row.below [t]).path args
      ↔ ∃ left, Heads [] t text left ∧ Spells left row.path args := by
  obtain ⟨token, more, hpath, -, hwords⟩ := h.exists_path hrow
  show Spells text (t :: row.path) args ↔ _
  rw [hpath]
  exact spells_cons_iff (hwords token List.mem_cons_self)

/-- **A tree of words answers** a text by the row that it spells out. Where the token of an entry
heads the text, only rows of this entry can be spelled out; where it does not, only other rows. -/
theorem resolve?_eq_some_iff {entries : Entries ε} (h : entries.Plain) (text : Text)
    (m : EventMatch ε) :
    entries.resolve? [] none text = some m
      ↔ ∃ row ∈ entries.rows [], Spells text row.path m.args ∧ row.spec.matched m.args = m := by
  induction h generalizing text m with
  | nil =>
    refine iff_of_false (fun h => by cases h) ?_
    rintro ⟨row, hrow, -⟩
    cases hrow
  | @event t s rest hword hnew hrest ih =>
    simp only [mem_rows_event]
    cases hheaded : headed? [] t text with
    | some left =>
      have hheads := headed?_eq_some_iff.mp hheaded
      simp only [resolve?, hheaded]
      constructor
      · rintro ⟨rfl⟩
        exact ⟨_, .inl rfl, spells_singleton_iff.mpr hheads, rfl⟩
      · rintro ⟨row, rfl | hrow, hspells, hm⟩
        · rw [← hm, hheads.left_unique (spells_singleton_iff.mp hspells)]
        · exact absurd hspells (hrest.not_spells hword hnew hheads hrow)
    | none =>
      have hno := headed?_eq_none_iff.mp hheaded
      simp only [resolve?, hheaded, ih]
      constructor
      · rintro ⟨row, hrow, hanswer⟩
        exact ⟨row, .inr hrow, hanswer⟩
      · rintro ⟨row, rfl | hrow, hspells, hm⟩
        · exact absurd (spells_singleton_iff.mp hspells) (hno m.args)
        · exact ⟨row, hrow, hspells, hm⟩
  | @category t children rest hword hnew hchildren hsome hrest ihchildren ih =>
    simp only [mem_rows_category]
    cases hheaded : headed? [] t text with
    | some left =>
      have hheads := headed?_eq_some_iff.mp hheaded
      simp only [resolve?, hheaded, ihchildren]
      constructor
      · rintro ⟨inner, hinner, hspells, hm⟩
        exact ⟨_, .inl ⟨inner, hinner, rfl⟩,
          (hchildren.spells_below_iff hinner).mpr ⟨left, hheads, hspells⟩, hm⟩
      · rintro ⟨row, ⟨inner, hinner, rfl⟩ | hrow, hspells, hm⟩
        · obtain ⟨left', hheads', hspells⟩ := (hchildren.spells_below_iff hinner).mp hspells
          rw [hheads.left_unique hheads']
          exact ⟨inner, hinner, hspells, hm⟩
        · exact absurd hspells (hrest.not_spells hword hnew hheads hrow)
    | none =>
      have hno := headed?_eq_none_iff.mp hheaded
      simp only [resolve?, hheaded, ih]
      constructor
      · rintro ⟨row, hrow, hanswer⟩
        exact ⟨row, .inr hrow, hanswer⟩
      · rintro ⟨row, ⟨inner, hinner, rfl⟩ | hrow, hspells, hm⟩
        · obtain ⟨left', hheads', -⟩ := (hchildren.spells_below_iff hinner).mp hspells
          exact absurd hheads' (hno left')
        · exact ⟨row, hrow, hspells, hm⟩

end Plain

end Entries

/-! ## Adding a path -/

/-- **Two paths clash** if they are the same, or one of them begins with the other. -/
def Clash (p q : List Text) : Prop := p <+: q ∨ q <+: p

theorem Clash.symm {p q : List Text} (h : Clash p q) : Clash q p := Or.symm h

theorem clash_cons_iff {t t' : Text} {p q : List Text} :
    Clash (t :: p) (t' :: q) ↔ t = t' ∧ Clash p q := by
  unfold Clash
  rw [List.cons_prefix_cons, List.cons_prefix_cons, and_or_left, eq_comm (a := t')]

namespace Entries

variable {spec : EventSpec ε}

/-! ### What comes to the level -/

theorem rows_branch (token : Text) (more : List Text) :
    (branch spec token more).rows [] = [⟨token :: more, spec⟩] := by
  induction more generalizing token with
  | nil => rfl
  | cons next more ih =>
    show (branch spec next more).rows ([token] ++ []) ++ [] ++ [] = _
    rw [List.append_nil, List.append_nil, rows_append, ih]
    rfl

theorem branch_ne_nil (token : Text) (more : List Text) : branch spec token more ≠ .nil := by
  cases more <;> exact fun h => by cases h

theorem branch_plain (token : Text) (more : List Text) (hwords : ∀ w ∈ token :: more, IsWord w) :
    (branch spec token more).Plain := by
  induction more generalizing token with
  | nil => exact .event (hwords token List.mem_cons_self) List.not_mem_nil .nil
  | cons next more ih =>
    exact .category (hwords token List.mem_cons_self) List.not_mem_nil
      (ih next fun w hw => hwords w (List.mem_cons_of_mem token hw)) (branch_ne_nil next more) .nil

theorem insert_ne_nil (entries : Entries ε) (token : Text) (more : List Text) :
    (insert spec entries token more).1 ≠ .nil := by
  fun_induction insert spec entries token more with
  | case1 token more => exact branch_ne_nil token more
  | case2 | case3 | case4 | case5 | case6 => exact fun h => by cases h

/-- No other token comes to the level that a path is added to than its first one. -/
theorem mem_tokens_insert {entries : Entries ε} {token w : Text} {more : List Text}
    (h : w ∈ (insert spec entries token more).1.tokens) : w = token ∨ w ∈ entries.tokens := by
  fun_induction insert spec entries token more with
  | case1 token more => cases more <;> exact .inl (List.mem_singleton.mp h)
  | case2 | case4 | case5 => exact .inr h
  | case3 t s rest token more ht rest' fault hins ih
  | case6 t ds o children rest token more ht rest' fault hins ih =>
    rw [hins] at ih
    rcases List.mem_cons.mp h with rfl | h
    · exact .inr List.mem_cons_self
    · exact (ih h).imp_right (List.mem_cons_of_mem t)

namespace Plain

/-- A path of words leaves a tree of words. -/
theorem insert {entries : Entries ε} (h : entries.Plain) {token : Text} {more : List Text}
    (hwords : ∀ w ∈ token :: more, IsWord w) : (insert spec entries token more).1.Plain := by
  fun_induction Entries.insert spec entries token more with
  | case1 token more => exact branch_plain token more hwords
  | case2 | case4 => exact h
  | case3 t s rest token more ht rest' fault hins ih =>
    obtain _ | ⟨hword, hnew, hrest⟩ := h
    have htokens : t ∉ (Entries.insert spec rest token more).1.tokens := fun hmem =>
      (mem_tokens_insert hmem).elim ht hnew
    rw [hins] at ih htokens
    exact .event hword htokens (ih hrest hwords)
  | case5 ds o children rest token next more children' fault hins ih =>
    obtain _ | _ | ⟨hword, hnew, hchildren, hsome, hrest⟩ := h
    have hne : (Entries.insert spec children next more).1 ≠ .nil := insert_ne_nil children next more
    rw [hins] at ih hne
    exact .category hword hnew (ih hchildren fun w hw => hwords w (List.mem_cons_of_mem token hw))
      hne hrest
  | case6 t ds o children rest token more ht rest' fault hins ih =>
    obtain _ | _ | ⟨hword, hnew, hchildren, hsome, hrest⟩ := h
    have htokens : t ∉ (Entries.insert spec rest token more).1.tokens := fun hmem =>
      (mem_tokens_insert hmem).elim ht hnew
    rw [hins] at ih htokens
    exact .category hword htokens hchildren hsome (ih hrest hwords)

/-! ### Faults and rows -/

/-- **A path can be added** exactly if it clashes with no row. The induction is along the path: it
ends behind a level, at an entry whose token is the next one on the path, or it goes on into a
category, whose rows are then the only ones that it can clash with. -/
theorem insert_fault_iff {entries : Entries ε} (h : entries.Plain) (token : Text)
    (more : List Text) :
    (Entries.insert spec entries token more).2 = none
      ↔ ∀ row ∈ entries.rows [], ¬ Clash row.path (token :: more) := by
  fun_induction Entries.insert spec entries token more with
  | case1 => exact iff_of_true rfl fun row hrow => absurd hrow List.not_mem_nil
  | case2 s rest token more =>
    refine iff_of_false (fun h => by cases h) fun hfree => ?_
    exact hfree _ (mem_rows_event.mpr (.inl rfl)) (.inl ⟨more, rfl⟩)
  | case3 t s rest token more ht rest' fault hins ih =>
    obtain _ | ⟨_, _, hrest⟩ := h
    rw [hins] at ih
    rw [ih hrest]
    constructor
    · intro hfree row hrow
      rcases mem_rows_event.mp hrow with rfl | hrow
      · exact fun hclash => ht (clash_cons_iff.mp hclash).1
      · exact hfree row hrow
    · exact fun hfree row hrow => hfree row (mem_rows_event.mpr (.inr hrow))
  | case4 ds o children rest token =>
    obtain _ | _ | ⟨_, _, hchildren, hsome, _⟩ := h
    refine iff_of_false (fun h => by cases h) fun hfree => ?_
    obtain ⟨inner, hinner⟩ := hchildren.exists_row hsome
    exact hfree _ (mem_rows_category.mpr (.inl ⟨inner, hinner, rfl⟩)) (.inr ⟨inner.path, rfl⟩)
  | case5 ds o children rest token next more children' fault hins ih =>
    obtain _ | _ | ⟨_, hnew, hchildren, _, hrest⟩ := h
    rw [hins] at ih
    rw [ih hchildren]
    constructor
    · intro hfree row hrow
      rcases mem_rows_category.mp hrow with ⟨inner, hinner, rfl⟩ | hrow
      · exact fun hclash => hfree inner hinner (clash_cons_iff.mp hclash).2
      · -- the other rows of the level begin with other tokens
        obtain ⟨other, path, hpath, hother, -⟩ := hrest.exists_path hrow
        rw [hpath]
        exact fun hclash => hnew ((clash_cons_iff.mp hclash).1 ▸ hother)
    · intro hfree inner hinner hclash
      exact hfree _ (mem_rows_category.mpr (.inl ⟨inner, hinner, rfl⟩))
        (clash_cons_iff.mpr ⟨rfl, hclash⟩)
  | case6 t ds o children rest token more ht rest' fault hins ih =>
    obtain _ | _ | ⟨_, _, _, _, hrest⟩ := h
    rw [hins] at ih
    rw [ih hrest]
    constructor
    · intro hfree row hrow
      rcases mem_rows_category.mp hrow with ⟨inner, hinner, rfl⟩ | hrow
      · exact fun hclash => ht (clash_cons_iff.mp hclash).1
      · exact hfree row hrow
    · exact fun hfree row hrow => hfree row (mem_rows_category.mpr (.inr hrow))

/-- **A path that is added** is a row, and the other rows are those that were there. -/
theorem mem_rows_insert {entries : Entries ε} (h : entries.Plain) {token : Text}
    {more : List Text} (hadded : (Entries.insert spec entries token more).2 = none) {row : Row ε} :
    row ∈ (Entries.insert spec entries token more).1.rows []
      ↔ row ∈ entries.rows [] ∨ row = ⟨token :: more, spec⟩ := by
  fun_induction Entries.insert spec entries token more generalizing row with
  | case1 token more =>
    show row ∈ (branch spec token more).rows [] ↔ _
    rw [rows_branch, List.mem_singleton]
    exact ⟨.inr, fun h => h.resolve_left List.not_mem_nil⟩
  | case2 | case4 => cases hadded
  | case3 t s rest token more ht rest' fault hins ih =>
    obtain _ | ⟨_, _, hrest⟩ := h
    rw [hins] at ih
    rw [mem_rows_event, mem_rows_event, ih hrest hadded, or_assoc]
  | case5 ds o children rest token next more children' fault hins ih =>
    obtain _ | _ | ⟨_, _, hchildren, _, _⟩ := h
    rw [hins] at ih
    rw [mem_rows_category, mem_rows_category]
    simp only [ih hchildren hadded, or_and_right, exists_or, exists_eq_left]
    rw [or_right_comm, eq_comm (a := row)]
    rfl
  | case6 t ds o children rest token more ht rest' fault hins ih =>
    obtain _ | _ | ⟨_, _, _, _, hrest⟩ := h
    rw [hins] at ih
    rw [mem_rows_category, mem_rows_category, ih hrest hadded, or_assoc]

end Plain

end Entries

end ModemLink
