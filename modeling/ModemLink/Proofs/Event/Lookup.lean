/-
How a line is looked up in a table.

A lookup goes down the tree. On each level it takes the first entry, in the order of the level, whose
token heads what is left of the text; a category passes on what is behind the token, and an event is
the answer. Where no entry heads the text the `otherwise` event of the level is the answer, and
without one there is none.

`Entries.resolve?` does all of this in one recursion. Here the same is said without it: `Heads` is
what it means that a token heads a text, `Takes` and `Passes` are what one level does with a text,
`Walk` leads down the tree, and `Ends` is the end of the way. `resolve?_eq_iff` says that the lookup
is this walk, and the rows of the listing are where it can end.
-/
import ModemLink.Event.Table

set_option autoImplicit false

namespace ModemLink

/-! ## Tokens at the head of a text -/

/-- **A token heads a text** and leaves the rest of it. The token is all of the text, or a delimiter
of its level stands behind it; with the delimiter go all spaces that follow it directly. -/
inductive Heads (own : List Char) (token : Text) : (text left : Text) → Prop where
  | ended : Heads own token token []
  | delimited (c : Char) (spaces left : Text) (hc : isDelimiter own c = true)
    (hspaces : ∀ s ∈ spaces, s = ' ') (hleft : left.head? ≠ some ' ') :
    Heads own token (token ++ c :: (spaces ++ left)) left

theorem dropWhile_space {spaces left : Text} (hspaces : ∀ s ∈ spaces, s = ' ')
    (hleft : left.head? ≠ some ' ') : (spaces ++ left).dropWhile (· == ' ') = left := by
  rw [List.dropWhile_append_of_pos fun s hs => beq_iff_eq.mpr (hspaces s hs)]
  cases left with
  | nil => rfl
  | cons c left =>
    apply List.dropWhile_cons_of_neg
    rw [beq_iff_eq]
    exact fun h => hleft (congrArg some h)

/-- Behind a delimiter all spaces go. -/
theorem heads_dropWhile {own : List Char} (token : Text) {c : Char} (hc : isDelimiter own c = true)
    (rest : Text) : Heads own token (token ++ c :: rest) (rest.dropWhile (· == ' ')) := by
  have hspaces : ∀ s ∈ rest.takeWhile (· == ' '), s = ' ' := fun s hs =>
    beq_iff_eq.mp (List.all_eq_true.mp List.all_takeWhile s hs)
  have hleft : (rest.dropWhile (· == ' ')).head? ≠ some ' ' := by
    intro h
    have hnot := List.head?_dropWhile_not (· == ' ') rest
    rw [h] at hnot
    cases hnot
  have hheads : Heads own token _ _ := .delimited c _ _ hc hspaces hleft
  rw [List.takeWhile_append_dropWhile] at hheads
  exact hheads

/-- The test of a level is just that. -/
theorem headed?_eq_some_iff {own : List Char} {token text left : Text} :
    headed? own token text = some left ↔ Heads own token text left := by
  unfold headed?
  constructor
  · intro h
    cases hafter : Text.after? token text with
    | none =>
      rw [hafter] at h
      cases h
    | some behind =>
      rw [hafter] at h
      rw [Text.after?_eq_some_iff] at hafter
      cases behind with
      | nil =>
        obtain rfl := Option.some.inj h
        rw [hafter, List.append_nil]
        exact .ended
      | cons c rest =>
        simp only [Option.ite_none_right_eq_some] at h
        obtain ⟨hc, hleft⟩ := h
        rw [hafter, ← Option.some.inj hleft]
        exact heads_dropWhile token hc rest
  · rintro (_ | ⟨c, spaces, left, hc, hspaces, hleft⟩)
    · rw [Text.after?_eq_some_iff.mpr (List.append_nil token).symm]
    · rw [Text.after?_eq_some_iff.mpr rfl]
      simp only [hc, if_true, dropWhile_space hspaces hleft]

theorem headed?_eq_none_iff {own : List Char} {token text : Text} :
    headed? own token text = none ↔ ∀ left, ¬ Heads own token text left := by
  simp only [← headed?_eq_some_iff, Option.eq_none_iff_forall_ne_some, ne_eq]

/-- What a token leaves of a text depends on the two alone. -/
theorem Heads.left_unique {own : List Char} {token text left left' : Text}
    (h : Heads own token text left) (h' : Heads own token text left') : left = left' := by
  rw [← headed?_eq_some_iff] at h h'
  exact Option.some.inj (h.symm.trans h')

/-! ## Levels as lists -/

/-- What a token of a level stands for. -/
inductive Entry (ε : Type) where
  | event (spec : EventSpec ε)
  | category (child : Level ε)

variable {ε : Type}

/-- The entries of one level, in order, each with its token. -/
def Entries.toList : Entries ε → List (Text × Entry ε)
  | .nil => []
  | .event t s rest => (t, .event s) :: rest.toList
  | .category t ds o children rest => (t, .category ⟨ds, o, children⟩) :: rest.toList

/-- What an entry makes of the text behind its token. -/
def Entry.resolve? : Entry ε → Text → Option (EventMatch ε)
  | .event spec, left => some (spec.matched left)
  | .category child, left => child.resolve? left

/-- **Induction on the tree.** What holds of a level as soon as it holds of its categories holds of
every level. -/
theorem Level.induction {P : Level ε → Prop}
    (step : ∀ l : Level ε,
      (∀ token child, (token, .category child) ∈ l.entries.toList → P child) → P l)
    (l : Level ε) : P l := by
  have below (entries : Entries ε) :
      ∀ token child, (token, .category child) ∈ entries.toList → P child := by
    induction entries with
    | nil =>
      intro token child h
      cases h
    | event t s rest ih =>
      intro token child h
      rcases List.mem_cons.mp h with h | h
      · cases h
      · exact ih token child h
    | category t ds o children rest ihchildren ih =>
      intro token child h
      rcases List.mem_cons.mp h with h | h
      · cases h
        exact step _ ihchildren
      · exact ih token child h
  exact step l (below l.entries)

/-! ## One level -/

namespace Level

/-- **A level takes a text** by the first of its entries whose token heads it. -/
structure Takes (l : Level ε) (text token : Text) (entry : Entry ε) (left : Text) : Prop where
  heads : Heads l.delimiters token text left
  first : ∃ before behind, l.entries.toList = before ++ (token, entry) :: behind
    ∧ ∀ e ∈ before, ∀ left', ¬ Heads l.delimiters e.1 text left'

/-- **A level passes a text over:** none of its entries heads it. -/
def Passes (l : Level ε) (text : Text) : Prop :=
  ∀ e ∈ l.entries.toList, ∀ left, ¬ Heads l.delimiters e.1 text left

theorem Takes.mem {l : Level ε} {text token left : Text} {entry : Entry ε}
    (h : l.Takes text token entry left) : (token, entry) ∈ l.entries.toList := by
  obtain ⟨before, behind, hlist, -⟩ := h.first
  rw [hlist]
  exact List.mem_append_right before List.mem_cons_self

/-- The test of one entry: the entry, and the text behind its token. -/
def test (own : List Char) (text : Text) (e : Text × Entry ε) :
    Option ((Text × Entry ε) × Text) :=
  (headed? own e.1 text).map fun left => (e, left)

theorem test_eq_some_iff {own : List Char} {text left : Text} {e e' : Text × Entry ε} :
    test own text e = some (e', left) ↔ e = e' ∧ Heads own e.1 text left := by
  unfold test
  rw [Option.map_eq_some_iff, ← headed?_eq_some_iff]
  constructor
  · rintro ⟨left', hleft', h⟩
    obtain ⟨rfl, rfl⟩ := Prod.mk.inj h
    exact ⟨rfl, hleft'⟩
  · rintro ⟨rfl, hleft⟩
    exact ⟨left, hleft, rfl⟩

theorem test_eq_none_iff {own : List Char} {text : Text} {e : Text × Entry ε} :
    test own text e = none ↔ ∀ left, ¬ Heads own e.1 text left := by
  unfold test
  rw [Option.map_eq_none_iff, headed?_eq_none_iff]

/-- The first entry of a level that heads a text, and the text behind its token. -/
def first? (l : Level ε) (text : Text) : Option ((Text × Entry ε) × Text) :=
  l.entries.toList.findSome? (test l.delimiters text)

theorem first?_eq_some_iff {l : Level ε} {text token left : Text} {entry : Entry ε} :
    l.first? text = some ((token, entry), left) ↔ l.Takes text token entry left := by
  unfold first?
  rw [List.findSome?_eq_some_iff]
  constructor
  · rintro ⟨before, e, behind, hlist, htest, hbefore⟩
    obtain ⟨rfl, hheads⟩ := test_eq_some_iff.mp htest
    exact ⟨hheads, before, behind, hlist, fun e' he' => test_eq_none_iff.mp (hbefore e' he')⟩
  · rintro ⟨hheads, before, behind, hlist, hbefore⟩
    exact ⟨before, (token, entry), behind, hlist, test_eq_some_iff.mpr ⟨rfl, hheads⟩,
      fun e' he' => test_eq_none_iff.mpr (hbefore e' he')⟩

theorem first?_eq_none_iff {l : Level ε} {text : Text} : l.first? text = none ↔ l.Passes text := by
  unfold first? Passes
  rw [List.findSome?_eq_none_iff]
  exact forall_congr' fun e => imp_congr_right fun _ => test_eq_none_iff

end Level

/-- One pass over a level, entry by entry, is the search for the first entry that heads the text. -/
theorem Entries.resolve?_eq_findSome? (entries : Entries ε) (own : List Char)
    (otherwise : Option (EventSpec ε)) (text : Text) :
    entries.resolve? own otherwise text
      = (entries.toList.findSome? (Level.test own text)).elim (otherwise.map (·.matched text))
          fun found => found.1.2.resolve? found.2 := by
  induction entries with
  | nil => rfl
  | event t s rest ih =>
    simp only [resolve?, toList, List.findSome?_cons, Level.test]
    cases headed? own t text with
    | some left => rfl
    | none => exact ih
  | category t ds o children rest _ ih =>
    simp only [resolve?, toList, List.findSome?_cons, Level.test]
    cases headed? own t text with
    | some left => rfl
    | none => exact ih

namespace Level

/-- **What a level does with a text.** -/
theorem resolve?_eq_first? (l : Level ε) (text : Text) :
    l.resolve? text
      = (l.first? text).elim (l.otherwise.map (·.matched text))
          fun found => found.1.2.resolve? found.2 :=
  l.entries.resolve?_eq_findSome? l.delimiters l.otherwise text

theorem Takes.resolve?_eq {l : Level ε} {text token left : Text} {entry : Entry ε}
    (h : l.Takes text token entry left) : l.resolve? text = entry.resolve? left := by
  rw [resolve?_eq_first?, first?_eq_some_iff.mpr h, Option.elim_some]

theorem Passes.resolve?_eq {l : Level ε} {text : Text} (h : l.Passes text) :
    l.resolve? text = l.otherwise.map (·.matched text) := by
  rw [resolve?_eq_first?, first?_eq_none_iff.mpr h, Option.elim_none]

/-! ## Down the tree -/

/-- **The way down.** A text is led from a level to one below it by the tokens of the categories
that take it, and what is left of it arrives there. -/
inductive Walk : Level ε → Text → List Text → Level ε → Text → Prop where
  | here (l : Level ε) (text : Text) : Walk l text [] l text
  | into {l child l' : Level ε} {text token left left' : Text} {path : List Text}
    (htakes : l.Takes text token (.category child) left) (hmore : Walk child left path l' left') :
    Walk l text (token :: path) l' left'

/-- **The end of the way:** an event, the event for whatever the level passes over, or none. -/
inductive Ends (l : Level ε) (text : Text) : Option (EventMatch ε) → Prop where
  | event (token : Text) (spec : EventSpec ε) (left : Text)
    (htakes : l.Takes text token (.event spec) left) : Ends l text (some (spec.matched left))
  | otherwise (spec : EventSpec ε) (hpasses : l.Passes text) (hspec : l.otherwise = some spec) :
    Ends l text (some (spec.matched text))
  | unknown (hpasses : l.Passes text) (hnone : l.otherwise = none) : Ends l text none

theorem Walk.resolve?_eq {l l' : Level ε} {text left : Text} {path : List Text}
    (h : l.Walk text path l' left) : l.resolve? text = l'.resolve? left := by
  induction h with
  | here => rfl
  | into htakes _ ih => rw [htakes.resolve?_eq, Entry.resolve?, ih]

theorem Ends.resolve?_eq {l : Level ε} {text : Text} {answer : Option (EventMatch ε)}
    (h : l.Ends text answer) : l.resolve? text = answer := by
  cases h with
  | event token spec left htakes => rw [htakes.resolve?_eq, Entry.resolve?]
  | otherwise spec hpasses hspec => rw [hpasses.resolve?_eq, hspec, Option.map_some]
  | unknown hpasses hnone => rw [hpasses.resolve?_eq, hnone, Option.map_none]

/-- Every way has an end. -/
theorem exists_walk (l : Level ε) (text : Text) :
    ∃ path l' left answer, l.Walk text path l' left ∧ l'.Ends left answer := by
  induction l using Level.induction generalizing text with
  | step l ih =>
    cases hfirst : l.first? text with
    | some found =>
      obtain ⟨⟨token, entry⟩, left⟩ := found
      have htakes := first?_eq_some_iff.mp hfirst
      -- only a category leads further down
      cases entry with
      | event spec => exact ⟨[], l, text, _, .here l text, .event token spec left htakes⟩
      | category child =>
        obtain ⟨path, l', left', answer, hwalk, hends⟩ := ih token child htakes.mem left
        exact ⟨token :: path, l', left', answer, .into htakes hwalk, hends⟩
    | none =>
      have hpasses := first?_eq_none_iff.mp hfirst
      cases hotherwise : l.otherwise with
      | some spec => exact ⟨[], l, text, _, .here l text, .otherwise spec hpasses hotherwise⟩
      | none => exact ⟨[], l, text, _, .here l text, .unknown hpasses hotherwise⟩

/-- **The lookup is the walk down to its end.** -/
theorem resolve?_eq_iff (l : Level ε) (text : Text) (answer : Option (EventMatch ε)) :
    l.resolve? text = answer
      ↔ ∃ path l' left, l.Walk text path l' left ∧ l'.Ends left answer := by
  constructor
  · rintro rfl
    obtain ⟨path, l', left, answer, hwalk, hends⟩ := l.exists_walk text
    refine ⟨path, l', left, hwalk, ?_⟩
    rw [hwalk.resolve?_eq, hends.resolve?_eq]
    exact hends
  · rintro ⟨path, l', left, hwalk, hends⟩
    rw [hwalk.resolve?_eq, hends.resolve?_eq]

end Level

/-! ## Rows -/

namespace Entries

theorem mem_rows_of_event {entries : Entries ε} {token : Text} {spec : EventSpec ε}
    (h : (token, .event spec) ∈ entries.toList) (path : List Text) :
    ⟨path ++ [token], spec⟩ ∈ entries.rows path := by
  induction entries with
  | nil => cases h
  | event t s rest ih =>
    rcases List.mem_cons.mp h with h | h
    · cases h
      exact List.mem_cons_self
    · exact List.mem_cons_of_mem _ (ih h)
  | category t ds o children rest _ ih =>
    rcases List.mem_cons.mp h with h | h
    · cases h
    · exact List.mem_append_right _ (ih h)

end Entries

namespace Level

/-- The rows of a level that is reached by a path. -/
def rowsBelow (l : Level ε) (path : List Text) : List (Row ε) :=
  l.entries.rows path ++ otherwiseRow path l.otherwise

/-- The rows of a category are among those of its level. -/
theorem rowsBelow_subset {entries : Entries ε} {token : Text} {child : Level ε}
    (h : (token, .category child) ∈ entries.toList) (path : List Text) :
    child.rowsBelow (path ++ [token]) ⊆ entries.rows path := by
  induction entries with
  | nil => cases h
  | event t s rest ih =>
    rcases List.mem_cons.mp h with h | h
    · cases h
    · exact List.subset_cons_of_subset _ (ih h)
  | category t ds o children rest _ ih =>
    rcases List.mem_cons.mp h with h | h
    · cases h
      exact List.subset_append_left _ _
    · exact List.subset_append_of_subset_right _ (ih h)

theorem Walk.rowsBelow_subset {l l' : Level ε} {text left : Text} {path : List Text}
    (h : l.Walk text path l' left) (above : List Text) :
    l'.rowsBelow (above ++ path) ⊆ l.rowsBelow above := by
  induction h generalizing above with
  | here =>
    rw [List.append_nil]
    exact List.Subset.refl _
  | into htakes _ ih =>
    rw [List.append_cons]
    exact List.Subset.trans (ih (above ++ [_]))
      (List.Subset.trans (Level.rowsBelow_subset htakes.mem above) (List.subset_append_left _ _))

end Level

/-! ## Tables -/

namespace EventTable

theorem resolve_eq_ok_iff (t : EventTable ε) (text : Text) (m : EventMatch ε) :
    t.resolve text = .ok m ↔ t.root.resolve? text = some m := by
  unfold resolve
  cases t.root.resolve? text with
  | none => simp only [reduceCtorEq]
  | some found => simp only [Except.ok.injEq, Option.some.injEq]

theorem resolve_eq_error_iff (t : EventTable ε) (text : Text) (err : Error) :
    t.resolve text = .error err ↔ err = .unknownEvent text ∧ t.root.resolve? text = none := by
  unfold resolve
  cases t.root.resolve? text with
  | none => simp only [Except.error.injEq, and_true, eq_comm]
  | some found => simp only [reduceCtorEq, and_false]

/-- **What a table answers.** From the top level the text is led down by the tokens of categories,
each of them the first on its level to head what is left.

* The answer is an event exactly if the way ends at an event, or at a level that passes over what
  is left and has an event for that. The tokens of the way are a row of the listing, and the
  arguments are what is left behind them.
* Otherwise the text is unknown, and the error carries all of it: the way ends at a level that
  passes over what is left and has no event for that. -/
theorem resolve_iff_walk (t : EventTable ε) (text : Text) :
    (∀ m, t.resolve text = .ok m ↔ ∃ path level left, t.root.Walk text path level left ∧
        ((∃ token spec, level.Takes left token (.event spec) m.args
            ∧ ⟨path ++ [token], spec⟩ ∈ t.root.rows
            ∧ m.event = spec.event ∧ m.trailing = spec.trailing)
          ∨ ∃ spec, level.Passes left ∧ level.otherwise = some spec
            ∧ ⟨path ++ [['*']], spec⟩ ∈ t.root.rows
            ∧ m.event = spec.event ∧ m.trailing = spec.trailing ∧ m.args = left))
      ∧ ∀ err, t.resolve text = .error err ↔ err = .unknownEvent text ∧
          ∃ path level left, t.root.Walk text path level left
            ∧ level.Passes left ∧ level.otherwise = none := by
  constructor
  · intro m
    rw [t.resolve_eq_ok_iff, Level.resolve?_eq_iff]
    constructor
    · rintro ⟨path, level, left, hwalk, hends⟩
      refine ⟨path, level, left, hwalk, ?_⟩
      have hrows : level.rowsBelow path ⊆ t.root.rows := hwalk.rowsBelow_subset []
      cases hends with
      | event token spec args htakes =>
        have hrow := List.mem_append_left (otherwiseRow path level.otherwise)
          (Entries.mem_rows_of_event htakes.mem path)
        exact .inl ⟨token, spec, htakes, hrows hrow, rfl, rfl⟩
      | otherwise spec hpasses hspec =>
        have hrow : ⟨path ++ [['*']], spec⟩ ∈ level.rowsBelow path := by
          unfold Level.rowsBelow
          rw [hspec]
          exact List.mem_append_right _ List.mem_cons_self
        exact .inr ⟨spec, hpasses, hspec, hrows hrow, rfl, rfl, rfl⟩
    · obtain ⟨event, args, trailing⟩ := m
      rintro ⟨path, level, left, hwalk, ⟨token, spec, htakes, -, rfl, rfl⟩ |
        ⟨spec, hpasses, hspec, -, rfl, rfl, rfl⟩⟩
      · exact ⟨path, level, left, hwalk, .event token spec args htakes⟩
      · exact ⟨path, level, args, hwalk, .otherwise spec hpasses hspec⟩
  · intro err
    rw [t.resolve_eq_error_iff, Level.resolve?_eq_iff]
    apply and_congr_right
    intro _
    constructor
    · rintro ⟨path, level, left, hwalk, hends⟩
      cases hends with
      | unknown hpasses hnone => exact ⟨path, level, left, hwalk, hpasses, hnone⟩
    · rintro ⟨path, level, left, hwalk, hpasses, hnone⟩
      exact ⟨path, level, left, hwalk, .unknown hpasses hnone⟩

end EventTable

end ModemLink
