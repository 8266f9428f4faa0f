/-
The levels of a tree.

A level stands in a tree at the end of a path of categories. In a proper tree there is one level at most for each
path, so what is to hold of all levels can be said path by path: the tokens of the level, whether it has
delimiters of its own, and how deep it stands.
-/
import Mathlib
import ModemLink.Proofs.Event.Places

set_option autoImplicit false

namespace ModemLink

variable {ε : Type}

/-! ## The entries of a level -/

namespace Entries

@[simp] theorem toList_append (entries more : Entries ε) :
    (entries.append more).toList = entries.toList ++ more.toList := by
  induction entries with
  | nil => rfl
  | event t s rest ih => rw [append, toList, toList, ih, List.cons_append]
  | category t ds o children rest _ ih => rw [append, toList, toList, ih, List.cons_append]

theorem tokens_eq_map (entries : Entries ε) : entries.tokens = entries.toList.map Prod.fst := by
  induction entries with
  | nil => rfl
  | event t s rest ih => rw [tokens, toList, ih, List.map_cons]
  | category t ds o children rest _ ih => rw [tokens, toList, ih, List.map_cons]

theorem mem_tokens_of_mem {entries : Entries ε} {e : Text × Entry ε} (h : e ∈ entries.toList) :
    e.1 ∈ entries.tokens := by
  rw [tokens_eq_map]
  exact List.mem_map_of_mem h

namespace Proper

variable {entries : Entries ε}

theorem tokens_nodup (h : entries.Proper) : entries.tokens.Nodup := by
  induction h with
  | nil => exact List.nodup_nil
  | event _ hnew _ ih => exact List.nodup_cons.mpr ⟨hnew, ih⟩
  | category _ hnew _ _ _ ih => exact List.nodup_cons.mpr ⟨hnew, ih⟩

theorem nil_not_mem_tokens (h : entries.Proper) : [] ∉ entries.tokens := by
  induction h with
  | nil => exact List.not_mem_nil
  | event hne _ _ ih => exact List.not_mem_cons_of_ne_of_not_mem hne.symm ih
  | category hne _ _ _ _ ih => exact List.not_mem_cons_of_ne_of_not_mem hne.symm ih

theorem of_category (h : entries.Proper) {token : Text} {child : Level ε}
    (hentry : (token, .category child) ∈ entries.toList) : child.entries.Proper := by
  induction h with
  | nil => cases hentry
  | event _ _ _ ih =>
    rcases List.mem_cons.mp hentry with hentry | hentry
    · cases hentry
    · exact ih hentry
  | category _ _ hchildren _ _ ih =>
    rcases List.mem_cons.mp hentry with hentry | hentry
    · cases hentry
      exact hchildren
    · exact ih hentry

/-- One more entry, with a token of its own. -/
theorem append_entry (h : entries.Proper) {token : Text} {entry : Entries ε} (hentry : entry.Proper)
    (htokens : entry.tokens = [token]) (hnew : token ∉ entries.tokens) :
    (entries.append entry).Proper := by
  apply h.append hentry
  intro t ht hmem
  rw [htokens, List.mem_singleton] at hmem
  rw [hmem] at ht
  exact hnew ht

/-- A token stands for one entry. -/
theorem entry_unique (h : entries.Proper) {token : Text} {entry entry' : Entry ε}
    (hentry : (token, entry) ∈ entries.toList) (hentry' : (token, entry') ∈ entries.toList) :
    entry = entry' := by
  have hnodup := h.tokens_nodup
  rw [tokens_eq_map] at hnodup
  exact congrArg Prod.snd (List.inj_on_of_nodup_map hnodup hentry hentry' rfl)

end Proper

end Entries

/-! ## Where a level stands -/

namespace Level

/-- **The levels of a tree,** each with the tokens of the categories that lead to it. -/
inductive Has : Level ε → List Text → Level ε → Prop where
  | here (l : Level ε) : Has l [] l
  | into {l child l' : Level ε} {token : Text} {path : List Text}
    (hentry : (token, .category child) ∈ l.entries.toList) (hmore : Has child path l') :
    Has l (token :: path) l'

/-- A lookup goes from level to level. -/
theorem Walk.has {l l' : Level ε} {text left : Text} {path : List Text}
    (h : l.Walk text path l' left) : l.Has path l' := by
  induction h with
  | here l => exact .here l
  | into htakes _ ih => exact .into htakes.mem ih

theorem Has.proper {l l' : Level ε} {path : List Text} (h : l.Has path l')
    (hproper : l.entries.Proper) : l'.entries.Proper := by
  induction h with
  | here => exact hproper
  | into hentry _ ih => exact ih (hproper.of_category hentry)

/-- **In a proper tree a path leads to one level.** -/
theorem Has.unique {l l' l'' : Level ε} {path : List Text} (h : l.Has path l')
    (hproper : l.entries.Proper) (h' : l.Has path l'') : l' = l'' := by
  induction h with
  | here =>
    cases h'
    rfl
  | into hentry _ ih =>
    obtain _ | ⟨hentry', hmore'⟩ := h'
    cases hproper.entry_unique hentry hentry'
    exact ih (hproper.of_category hentry) hmore'

end Level

/-! ## Depth -/

/-- How many categories stand below each other. -/
def Entries.depth : Entries ε → Nat
  | .nil => 0
  | .event _ _ rest => rest.depth
  | .category _ _ _ children rest => max (children.depth + 1) rest.depth

namespace Level

/-- The depth of a tree. -/
def depth (l : Level ε) : Nat := l.entries.depth

theorem depth_lt_of_category {entries : Entries ε} {token : Text} {child : Level ε}
    (h : (token, .category child) ∈ entries.toList) : child.depth < entries.depth := by
  induction entries with
  | nil => cases h
  | event t s rest ih =>
    rcases List.mem_cons.mp h with h | h
    · cases h
    · exact ih h
  | category t ds o children rest _ ih =>
    rcases List.mem_cons.mp h with h | h
    · cases h
      exact Nat.le_max_left _ _
    · exact lt_of_lt_of_le (ih h) (Nat.le_max_right _ _)

theorem Has.length_le_depth {l l' : Level ε} {path : List Text} (h : l.Has path l') :
    path.length ≤ l.depth := by
  induction h with
  | here => exact Nat.zero_le _
  | into hentry _ ih => exact lt_of_le_of_lt ih (depth_lt_of_category hentry)

/-- The category that the depth comes from. -/
theorem exists_category_of_depth {entries : Entries ε} (h : 0 < entries.depth) :
    ∃ token child, (token, .category child) ∈ entries.toList ∧ child.depth + 1 = entries.depth := by
  induction entries with
  | nil => exact absurd h (Nat.lt_irrefl 0)
  | event t s rest ih =>
    obtain ⟨token, child, hmem, hdepth⟩ := ih h
    exact ⟨token, child, List.mem_cons_of_mem _ hmem, hdepth⟩
  | category t ds o children rest _ ih =>
    by_cases hrest : rest.depth ≤ children.depth + 1
    · exact ⟨t, ⟨ds, o, children⟩, List.mem_cons_self, (Nat.max_eq_left hrest).symm⟩
    · have hlt : children.depth + 1 < rest.depth := Nat.lt_of_not_le hrest
      obtain ⟨token, child, hmem, hdepth⟩ := ih (Nat.zero_lt_of_lt hlt)
      refine ⟨token, child, List.mem_cons_of_mem _ hmem, ?_⟩
      rw [hdepth, Entries.depth, Nat.max_eq_right hlt.le]

/-- **The depth is reached:** some level stands that far down. -/
theorem exists_has_depth (l : Level ε) : ∃ path l', l.Has path l' ∧ path.length = l.depth := by
  induction l using Level.induction with
  | step l ih =>
    rcases Nat.eq_zero_or_pos l.depth with hzero | hpos
    · exact ⟨[], l, .here l, hzero.symm⟩
    · obtain ⟨token, child, hentry, hdepth⟩ := exists_category_of_depth hpos
      obtain ⟨path, l', hhas, hlength⟩ := ih token child hentry
      refine ⟨token :: path, l', .into hentry hhas, ?_⟩
      rw [List.length_cons, hlength]
      exact hdepth

end Level

/-! ## Delimiters -/

/-- The path of a level, if it has delimiters of its own. -/
def ownPath (delimiters : List Char) : List (List Text) := if delimiters = [] then [] else [[]]

/-- The paths of the levels below that have delimiters of their own. -/
def Entries.restricted : Entries ε → List (List Text)
  | .nil => []
  | .event _ _ rest => rest.restricted
  | .category t ds _ children rest =>
    (ownPath ds ++ children.restricted).map (t :: ·) ++ rest.restricted

/-- The paths of the levels that have delimiters of their own. -/
def Level.restricted (l : Level ε) : List (List Text) :=
  ownPath l.delimiters ++ l.entries.restricted

theorem mem_ownPath_iff {delimiters : List Char} {path : List Text} :
    path ∈ ownPath delimiters ↔ path = [] ∧ delimiters ≠ [] := by
  unfold ownPath
  split <;> simp_all

namespace Entries

@[simp] theorem restricted_append (entries more : Entries ε) :
    (entries.append more).restricted = entries.restricted ++ more.restricted := by
  induction entries with
  | nil => rfl
  | event t s rest ih => rw [append, restricted, restricted, ih]
  | category t ds o children rest _ ih =>
    rw [append, restricted, restricted, ih, List.append_assoc]

/-- A path brings no delimiters with it. -/
theorem restricted_insert (entries : Entries ε) (spec : EventSpec ε) (token : Text)
    (more : List Text) : (insert spec entries token more).1.restricted = entries.restricted := by
  have hbranch (token : Text) (more : List Text) : (branch spec token more).restricted = [] := by
    induction more generalizing token with
    | nil => rfl
    | cons next more ih => simp [branch, restricted, ownPath, ih]
  fun_induction insert spec entries token more with
  | case1 token more => exact hbranch token more
  | case2 | case4 => rfl
  | case3 t s rest token more ht rest' fault hins ih =>
    rw [hins] at ih
    rw [restricted, restricted, ih]
  | case5 ds o children rest token next more children' fault hins ih =>
    rw [hins] at ih
    rw [restricted, restricted, ih]
  | case6 t ds o children rest token more ht rest' fault hins ih =>
    rw [hins] at ih
    rw [restricted, restricted, ih]

theorem mem_restricted_iff {entries : Entries ε} {path : List Text} :
    path ∈ entries.restricted
      ↔ ∃ token child inner, (token, .category child) ∈ entries.toList
          ∧ inner ∈ child.restricted ∧ token :: inner = path := by
  induction entries with
  | nil => simp [restricted, toList]
  | event t s rest ih => simp [restricted, toList, ih]
  | category t ds o children rest _ ih =>
    rw [restricted, List.mem_append, List.mem_map, ih, toList]
    constructor
    · rintro (⟨inner, hinner, rfl⟩ | ⟨token, child, inner, hentry, hinner, rfl⟩)
      · exact ⟨t, ⟨ds, o, children⟩, inner, List.mem_cons_self, hinner, rfl⟩
      · exact ⟨token, child, inner, List.mem_cons_of_mem _ hentry, hinner, rfl⟩
    · rintro ⟨token, child, inner, hentry, hinner, rfl⟩
      rcases List.mem_cons.mp hentry with hentry | hentry
      · cases hentry
        exact .inl ⟨inner, hinner, rfl⟩
      · exact .inr ⟨token, child, inner, hentry, hinner, rfl⟩

end Entries

/-- **Which levels have delimiters of their own.** -/
theorem Level.mem_restricted_iff {l : Level ε} {path : List Text} :
    path ∈ l.restricted ↔ ∃ l', l.Has path l' ∧ l'.delimiters ≠ [] := by
  induction l using Level.induction generalizing path with
  | step l ih =>
    rw [restricted, List.mem_append, mem_ownPath_iff, Entries.mem_restricted_iff]
    constructor
    · rintro (⟨rfl, hown⟩ | ⟨token, child, inner, hentry, hinner, rfl⟩)
      · exact ⟨l, .here l, hown⟩
      · obtain ⟨l', hhas, hown⟩ := (ih token child hentry).mp hinner
        exact ⟨l', .into hentry hhas, hown⟩
    · rintro ⟨l', hhas, hown⟩
      cases hhas with
      | here => exact .inl ⟨rfl, hown⟩
      | @into _ child _ token inner hentry hmore =>
        exact .inr ⟨token, child, inner, hentry, (ih token child hentry).mpr ⟨l', hmore, hown⟩, rfl⟩

end ModemLink
