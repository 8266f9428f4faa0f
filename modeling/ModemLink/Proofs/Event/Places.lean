/-
The places of a table.

A place is a path of tokens with an event or a category at its end. What a table can still take in depends on
its places alone: an entry needs a token that is free on its level, and a path needs categories on the way,
as far as something stands there, and a free end.

Entries come to a level by being put behind its last one or along a path. Either way no place is lost, and
the places that come are those of the entry or of the path.
-/
import Mathlib
import ModemLink.Proofs.Event.WordTree

set_option autoImplicit false

namespace ModemLink

variable {ε : Type}

/-! ## Places -/

/-- What stands at the end of a path. -/
inductive PlaceKind where
  | event
  | category
deriving DecidableEq, Repr

/-- **A place** in a table. -/
structure Place where
  path : List Text
  kind : PlaceKind
deriving DecidableEq, Repr

/-- The place below one more token. -/
def Place.below (token : Text) (p : Place) : Place := ⟨token :: p.path, p.kind⟩

/-- The places that a path takes: an event at its end, and categories on the way. -/
def pathPlaces : List Text → List Place
  | [] => []
  | [token] => [⟨[token], .event⟩]
  | token :: next :: more =>
    ⟨[token], .category⟩ :: (pathPlaces (next :: more)).map (Place.below token)

/-- **Why a path cannot be added** where these places are taken. It passes through the first event that
stands on the way, or something stands at its end. -/
def pathFault? (places : List Place) (path : List Text) : Option PathFault :=
  let onWay := path.dropLast.inits.findSome? fun way =>
    if ⟨way, .event⟩ ∈ places then way.getLast? else none
  match onWay with
  | some token => some (.through token)
  | none => if path ∈ places.map Place.path then some .taken else none

/-- Why an entry cannot be put on a level where these places are taken. -/
def tokenFault? (places : List Place) (token : Text) : Option TableFault :=
  if token = [] then some .tokenEmpty
  else if [token] ∈ places.map Place.path then some (.tokenTwice token)
  else none

theorem Place.mem_map_below_iff {places : List Place} {t token : Text} {path : List Text}
    {kind : PlaceKind} :
    (⟨token :: path, kind⟩ : Place) ∈ places.map (below t) ↔ t = token ∧ ⟨path, kind⟩ ∈ places := by
  rw [List.mem_map]
  constructor
  · rintro ⟨p, hp, hbelow⟩
    cases hbelow
    exact ⟨rfl, hp⟩
  · rintro ⟨rfl, hp⟩
    exact ⟨_, hp, rfl⟩

theorem mem_paths_iff {places : List Place} {path : List Text} :
    path ∈ places.map Place.path ↔ ∃ kind, (⟨path, kind⟩ : Place) ∈ places := by
  rw [List.mem_map]
  constructor
  · rintro ⟨p, hp, rfl⟩
    exact ⟨p.kind, hp⟩
  · rintro ⟨kind, hkind⟩
    exact ⟨⟨path, kind⟩, hkind, rfl⟩

section

variable {places other : List Place} {token : Text}

theorem pathFault?_nil (path : List Text) : pathFault? [] path = none := by
  have hnone : path.dropLast.inits.findSome? (fun _ => (none : Option Text)) = none :=
    List.findSome?_eq_none_iff.mpr fun _ _ => rfl
  simp [pathFault?, hnone]

theorem pathFault?_singleton :
    pathFault? places [token] = if [token] ∈ places.map Place.path then some .taken else none := by
  simp [pathFault?]

/-- An event at the first token is in the way. -/
theorem pathFault?_through (h : (⟨[token], .event⟩ : Place) ∈ places) (next : Text)
    (more : List Text) : pathFault? places (token :: next :: more) = some (.through token) := by
  unfold pathFault?
  rw [List.dropLast_cons_cons, List.inits_cons, List.findSome?_cons, List.findSome?_map]
  cases more <;> simp [h]

/-- Only the places behind the first token matter. -/
theorem pathFault?_congr
    (h : ∀ path kind, (⟨token :: path, kind⟩ : Place) ∈ places ↔ ⟨token :: path, kind⟩ ∈ other)
    (more : List Text) : pathFault? places (token :: more) = pathFault? other (token :: more) := by
  have hend : token :: more ∈ places.map Place.path ↔ token :: more ∈ other.map Place.path := by
    simp only [mem_paths_iff, h]
  cases more with
  | nil => simp only [pathFault?_singleton, hend]
  | cons next more =>
    unfold pathFault?
    rw [List.dropLast_cons_cons, List.inits_cons, List.findSome?_cons, List.findSome?_cons,
      List.findSome?_map, List.findSome?_map]
    simp only [List.getLast?_nil, ite_self, Function.comp_def, hend, h]

/-- Where a category stands, a path through it can be added as the rest of it can be added within. -/
theorem pathFault?_below (hcategory : (⟨[token], .event⟩ : Place) ∉ places)
    (h : ∀ (first : Text) (path : List Text) (kind : PlaceKind),
      (⟨token :: first :: path, kind⟩ : Place) ∈ places ↔ ⟨first :: path, kind⟩ ∈ other)
    (next : Text) (more : List Text) :
    pathFault? places (token :: next :: more) = pathFault? other (next :: more) := by
  have hway (way : List Text) :
      (if (⟨token :: way, .event⟩ : Place) ∈ places then (token :: way).getLast? else none)
        = if ⟨way, .event⟩ ∈ other then way.getLast? else none := by
    cases way with
    | nil => simp [hcategory]
    | cons first way => simp only [h, List.getLast?_cons_cons]
  have hend : token :: next :: more ∈ places.map Place.path ↔ next :: more ∈ other.map Place.path := by
    simp only [mem_paths_iff, h]
  unfold pathFault?
  rw [List.dropLast_cons_cons, List.inits_cons, List.findSome?_cons, List.findSome?_map]
  simp only [List.getLast?_nil, ite_self, Function.comp_def, hway, hend]

end

namespace Entries

/-! ## Trees without doubles -/

/-- **A proper tree:** no token is empty, and no two of a level are the same. -/
inductive Proper : Entries ε → Prop where
  | nil : Proper .nil
  | event {t : Text} {s : EventSpec ε} {rest : Entries ε} (hne : t ≠ []) (hnew : t ∉ rest.tokens)
    (hrest : Proper rest) : Proper (.event t s rest)
  | category {t : Text} {ds : List Char} {o : Option (EventSpec ε)} {children rest : Entries ε}
    (hne : t ≠ []) (hnew : t ∉ rest.tokens) (hchildren : Proper children) (hrest : Proper rest) :
    Proper (.category t ds o children rest)

@[simp] theorem tokens_append (entries more : Entries ε) :
    (entries.append more).tokens = entries.tokens ++ more.tokens := by
  induction entries with
  | nil => rfl
  | event t s rest ih => simp only [append, tokens, ih, List.cons_append]
  | category t ds o children rest _ ih => simp only [append, tokens, ih, List.cons_append]

theorem Proper.append {entries more : Entries ε} (h : entries.Proper) (hmore : more.Proper)
    (hnew : ∀ t ∈ entries.tokens, t ∉ more.tokens) : (entries.append more).Proper := by
  induction h with
  | nil => exact hmore
  | event hne htoken _ ih =>
    obtain ⟨hfirst, hnew⟩ := List.forall_mem_cons.mp hnew
    refine .event hne ?_ (ih hnew)
    rw [tokens_append, List.mem_append, not_or]
    exact ⟨htoken, hfirst⟩
  | category hne htoken hchildren _ _ ih =>
    obtain ⟨hfirst, hnew⟩ := List.forall_mem_cons.mp hnew
    refine .category hne ?_ hchildren (ih hnew)
    rw [tokens_append, List.mem_append, not_or]
    exact ⟨htoken, hfirst⟩

/-- A path without empty tokens leaves a proper tree. -/
theorem Proper.insert {entries : Entries ε} (h : entries.Proper) {spec : EventSpec ε} {token : Text}
    {more : List Text} (htokens : ∀ w ∈ token :: more, w ≠ []) :
    (Entries.insert spec entries token more).1.Proper := by
  fun_induction Entries.insert spec entries token more with
  | case1 token more =>
    induction more generalizing token with
    | nil => exact .event (htokens token List.mem_cons_self) List.not_mem_nil .nil
    | cons next more ih =>
      obtain ⟨hfirst, htokens⟩ := List.forall_mem_cons.mp htokens
      exact .category hfirst List.not_mem_nil (ih next htokens) .nil
  | case2 | case4 => exact h
  | case3 t s rest token more ht rest' fault hins ih =>
    obtain _ | ⟨hne, hnew, hrest⟩ := h
    have hother : t ∉ (Entries.insert spec rest token more).1.tokens := fun hmem =>
      (mem_tokens_insert hmem).elim ht hnew
    rw [hins] at ih hother
    exact .event hne hother (ih hrest htokens)
  | case5 ds o children rest token next more children' fault hins ih =>
    obtain _ | _ | ⟨hne, hnew, hchildren, hrest⟩ := h
    rw [hins] at ih
    exact .category hne hnew (ih hchildren (List.forall_mem_cons.mp htokens).2) hrest
  | case6 t ds o children rest token more ht rest' fault hins ih =>
    obtain _ | _ | ⟨hne, hnew, hchildren, hrest⟩ := h
    have hother : t ∉ (Entries.insert spec rest token more).1.tokens := fun hmem =>
      (mem_tokens_insert hmem).elim ht hnew
    rw [hins] at ih hother
    exact .category hne hother hchildren (ih hrest htokens)

/-! ## The places of a tree -/

/-- The places of a level and of everything below it. -/
def places : Entries ε → List Place
  | .nil => []
  | .event t _ rest => ⟨[t], .event⟩ :: rest.places
  | .category t _ _ children rest =>
    ⟨[t], .category⟩ :: (children.places.map (Place.below t) ++ rest.places)

@[simp] theorem places_append (entries more : Entries ε) :
    (entries.append more).places = entries.places ++ more.places := by
  induction entries with
  | nil => rfl
  | event t s rest ih => simp only [append, places, ih, List.cons_append]
  | category t ds o children rest _ ih =>
    simp only [append, places, ih, List.cons_append, List.append_assoc]

theorem places_branch (spec : EventSpec ε) (token : Text) (more : List Text) :
    (branch spec token more).places = pathPlaces (token :: more) := by
  induction more generalizing token with
  | nil => rfl
  | cons next more ih => simp only [branch, places, pathPlaces, ih, List.append_nil]

/-- The path of a place begins with a token of the level. -/
theorem exists_path_of_mem_places {entries : Entries ε} {p : Place} (h : p ∈ entries.places) :
    ∃ token more, p.path = token :: more ∧ token ∈ entries.tokens := by
  induction entries with
  | nil => cases h
  | event t s rest ih =>
    rcases List.mem_cons.mp h with rfl | h
    · exact ⟨t, [], rfl, List.mem_cons_self⟩
    · obtain ⟨token, more, hpath, htoken⟩ := ih h
      exact ⟨token, more, hpath, List.mem_cons_of_mem t htoken⟩
  | category t ds o children rest _ ih =>
    rcases List.mem_cons.mp h with rfl | h
    · exact ⟨t, [], rfl, List.mem_cons_self⟩
    · rcases List.mem_append.mp h with h | h
      · obtain ⟨inner, -, rfl⟩ := List.mem_map.mp h
        exact ⟨t, inner.path, rfl, List.mem_cons_self⟩
      · obtain ⟨token, more, hpath, htoken⟩ := ih h
        exact ⟨token, more, hpath, List.mem_cons_of_mem t htoken⟩

theorem path_ne_nil_of_mem_places {entries : Entries ε} {p : Place} (h : p ∈ entries.places) :
    p.path ≠ [] := by
  obtain ⟨token, more, hpath, -⟩ := exists_path_of_mem_places h
  rw [hpath]
  exact List.cons_ne_nil token more

/-- A token of the level is one that a path of one token leads to. -/
theorem mem_tokens_iff {entries : Entries ε} {token : Text} :
    token ∈ entries.tokens ↔ [token] ∈ entries.places.map Place.path := by
  constructor
  · intro h
    induction entries with
    | nil => cases h
    | event t s rest ih =>
      rcases List.mem_cons.mp h with rfl | h
      · exact List.mem_cons_self
      · exact List.mem_cons_of_mem _ (ih h)
    | category t ds o children rest _ ih =>
      rcases List.mem_cons.mp h with rfl | h
      · exact List.mem_cons_self
      · rw [places, List.map_cons, List.map_append]
        exact List.mem_cons_of_mem _ (List.mem_append_right _ (ih h))
  · intro h
    obtain ⟨p, hp, hpath⟩ := List.mem_map.mp h
    obtain ⟨first, more, hfirst, htoken⟩ := exists_path_of_mem_places hp
    rw [hpath, List.cons.injEq] at hfirst
    rw [hfirst.1]
    exact htoken

/-- No place behind an entry begins with the token of the entry. -/
theorem not_mem_places_of_not_mem_tokens {rest : Entries ε} {t : Text} (hnew : t ∉ rest.tokens)
    (path : List Text) (kind : PlaceKind) : (⟨t :: path, kind⟩ : Place) ∉ rest.places := by
  intro h
  obtain ⟨token, more, hpath, htoken⟩ := exists_path_of_mem_places h
  rw [(List.cons.inj hpath).1] at hnew
  exact hnew htoken

/-! ## Adding a path -/

/-- **A path that is added** takes its places, and all others are as they were. -/
theorem mem_places_insert {entries : Entries ε} {spec : EventSpec ε} {token : Text} {more : List Text}
    (hadded : (insert spec entries token more).2 = none) (p : Place) :
    p ∈ (insert spec entries token more).1.places
      ↔ p ∈ entries.places ∨ p ∈ pathPlaces (token :: more) := by
  fun_induction insert spec entries token more generalizing p with
  | case1 token more => simp [places_branch, places]
  | case2 | case4 => cases hadded
  | case3 t s rest token more ht rest' fault hins ih =>
    rw [hins] at ih
    simp only [places, List.mem_cons, ih hadded, or_assoc]
  | case5 ds o children rest token next more children' fault hins ih =>
    rw [hins] at ih
    have hbelow : p ∈ children'.places.map (Place.below token)
        ↔ p ∈ children.places.map (Place.below token)
          ∨ p ∈ (pathPlaces (next :: more)).map (Place.below token) := by
      simp only [List.mem_map, ih hadded, or_and_right, exists_or]
    simp only [places, pathPlaces, List.mem_cons, List.mem_append, hbelow]
    tauto
  | case6 t ds o children rest token more ht rest' fault hins ih =>
    rw [hins] at ih
    simp only [places, List.mem_cons, List.mem_append, ih hadded, or_assoc]

/-- **Whether a path can be added,** and why not, is told by the places. The induction is along the path;
in a proper tree the first entry with a token is the only one, so nothing that comes behind it on its level
is in the way. -/
theorem insert_fault_eq {entries : Entries ε} (h : entries.Proper) (spec : EventSpec ε) (token : Text)
    (more : List Text) :
    (Entries.insert spec entries token more).2 = pathFault? entries.places (token :: more) := by
  fun_induction Entries.insert spec entries token more with
  | case1 token more => exact (pathFault?_nil _).symm
  | case2 s rest token more =>
    have hplace : (⟨[token], .event⟩ : Place) ∈ (Entries.event token s rest).places :=
      List.mem_cons_self
    cases more with
    | nil =>
      rw [pathFault?_singleton, if_pos (mem_paths_iff.mpr ⟨_, hplace⟩)]
      rfl
    | cons next more =>
      rw [pathFault?_through hplace]
      rfl
  | case3 t s rest token more ht rest' fault hins ih =>
    obtain _ | ⟨_, _, hrest⟩ := h
    rw [hins] at ih
    rw [ih hrest]
    apply pathFault?_congr
    intro path kind
    simp [places, Ne.symm ht]
  | case4 ds o children rest token =>
    have hplace : (⟨[token], .category⟩ : Place) ∈ (Entries.category token ds o children rest).places :=
      List.mem_cons_self
    rw [pathFault?_singleton, if_pos (mem_paths_iff.mpr ⟨_, hplace⟩)]
  | case5 ds o children rest token next more children' fault hins ih =>
    obtain _ | _ | ⟨_, hnew, hchildren, _⟩ := h
    have hrest := not_mem_places_of_not_mem_tokens hnew
    rw [hins] at ih
    rw [ih hchildren]
    symm
    apply pathFault?_below
    · have hchild : (⟨[], .event⟩ : Place) ∉ children.places := fun hmem =>
        path_ne_nil_of_mem_places hmem rfl
      simp [places, Place.mem_map_below_iff, hrest, hchild]
    · intro first path kind
      simp [places, Place.mem_map_below_iff, hrest]
  | case6 t ds o children rest token more ht rest' fault hins ih =>
    obtain _ | _ | ⟨_, _, _, hrest⟩ := h
    rw [hins] at ih
    rw [ih hrest]
    apply pathFault?_congr
    intro path kind
    simp [places, Place.mem_map_below_iff, ht, Ne.symm ht]

end Entries

end ModemLink
