/-
In which order the entries of a level were created.

A category is created by the call that adds it or by the first pattern that leads through it, and an event by
its call. So the order of the entries can be read off the calls, level by level: `created` lists the tokens
that calls set on the level at a path, each where it comes first. A later pattern that goes through a category
again does not move it.
-/
import Mathlib
import ModemLink.Proofs.Event.WellFormed

set_option autoImplicit false

namespace ModemLink

variable {ε : Type}

/-! ## The tokens of one level -/

/-- The token that a path sets on the level at the end of the way, if it ends on this level. -/
def tokenBehind? : (way path : List Text) → Option Text
  | [], [token] => some token
  | step :: way, token :: path => if step = token then tokenBehind? way path else none
  | _, _ => none

/-- The tokens that places have on the level at the end of the way. -/
def tokensAt (way : List Text) (places : List Place) : List Text :=
  places.filterMap fun p => tokenBehind? way p.path

theorem tokensAt_append (way : List Text) (places more : List Place) :
    tokensAt way (places ++ more) = tokensAt way places ++ tokensAt way more := by
  unfold tokensAt
  exact List.filterMap_append

/-- A place on the top level. -/
theorem tokensAt_top_cons (token : Text) (kind : PlaceKind) (places : List Place) :
    tokensAt [] (⟨[token], kind⟩ :: places) = token :: tokensAt [] places := rfl

/-- It is of no level further down. -/
theorem tokensAt_below_cons (step : Text) (way : List Text) (token : Text) (kind : PlaceKind)
    (places : List Place) :
    tokensAt (step :: way) (⟨[token], kind⟩ :: places) = tokensAt (step :: way) places := by
  have hnone : tokenBehind? (step :: way) [token] = none := by
    unfold tokenBehind?
    split
    · cases way <;> rfl
    · rfl
  exact List.filterMap_cons_none hnone

/-- The places below a token are on the levels below it. -/
theorem tokensAt_map_below (step : Text) (way : List Text) (token : Text) (places : List Place) :
    tokensAt (step :: way) (places.map (Place.below token))
      = if step = token then tokensAt way places else [] := by
  unfold tokensAt
  rw [List.filterMap_map]
  by_cases hstep : step = token
  · rw [if_pos hstep]
    apply List.filterMap_congr
    intro p _
    exact if_pos hstep
  · rw [if_neg hstep, List.filterMap_eq_nil_iff]
    intro p _
    exact if_neg hstep

/-- None of them is on the top level. -/
theorem tokensAt_top_map_below (token : Text) {places : List Place}
    (hplaces : ∀ p ∈ places, p.path ≠ []) : tokensAt [] (places.map (Place.below token)) = [] := by
  unfold tokensAt
  rw [List.filterMap_map, List.filterMap_eq_nil_iff]
  intro p hp
  show tokenBehind? [] (token :: p.path) = none
  cases hpath : p.path with
  | nil => exact absurd hpath (hplaces p hp)
  | cons next more => rfl

theorem path_ne_nil_of_mem_pathPlaces {path : List Text} {p : Place} (h : p ∈ pathPlaces path) :
    p.path ≠ [] := by
  match path with
  | [] => cases h
  | [token] =>
    rw [List.mem_singleton.mp h]
    exact List.cons_ne_nil token []
  | token :: next :: more =>
    rcases List.mem_cons.mp h with rfl | h
    · exact List.cons_ne_nil token []
    · obtain ⟨inner, -, rfl⟩ := List.mem_map.mp h
      exact List.cons_ne_nil token inner.path

/-- A path sets its first token on the top level. -/
theorem tokensAt_top_pathPlaces (token : Text) (more : List Text) :
    tokensAt [] (pathPlaces (token :: more)) = [token] := by
  cases more with
  | nil => rfl
  | cons next more =>
    rw [pathPlaces, tokensAt_top_cons,
      tokensAt_top_map_below token fun p hp => path_ne_nil_of_mem_pathPlaces hp]

/-- And the others on the levels below this token. -/
theorem tokensAt_below_pathPlaces (step : Text) (way : List Text) (token : Text) (more : List Text) :
    tokensAt (step :: way) (pathPlaces (token :: more))
      = if step = token then tokensAt way (pathPlaces more) else [] := by
  cases more with
  | nil =>
    show tokensAt (step :: way) [⟨[token], .event⟩] = if step = token then [] else []
    rw [tokensAt_below_cons, ite_self]
    rfl
  | cons next more => rw [pathPlaces, tokensAt_below_cons, tokensAt_map_below]

/-- No level gets more than one token of a path. -/
theorem nodup_tokensAt_pathPlaces (way path : List Text) : (tokensAt way (pathPlaces path)).Nodup := by
  induction path generalizing way with
  | nil => exact List.nodup_nil
  | cons token more ih =>
    cases way with
    | nil =>
      rw [tokensAt_top_pathPlaces]
      exact List.nodup_singleton token
    | cons step way =>
      rw [tokensAt_below_pathPlaces]
      split
      · exact ih way
      · exact List.nodup_nil

/-! ## The order in a tree -/

namespace Entries

theorem tokensAt_top (entries : Entries ε) : tokensAt [] entries.places = entries.tokens := by
  induction entries with
  | nil => rfl
  | event t s rest ih => rw [places, tokensAt_top_cons, ih, tokens]
  | category t ds o children rest _ ih =>
    rw [places, tokensAt_top_cons, tokensAt_append,
      tokensAt_top_map_below t fun p hp => path_ne_nil_of_mem_places hp, ih, List.nil_append, tokens]

/-- Below a token that the level does not have there is nothing. -/
theorem tokensAt_below_eq_nil {entries : Entries ε} {step : Text} (h : step ∉ entries.tokens)
    (way : List Text) : tokensAt (step :: way) entries.places = [] := by
  unfold tokensAt
  rw [List.filterMap_eq_nil_iff]
  intro p hp
  obtain ⟨token, more, hpath, htoken⟩ := exists_path_of_mem_places hp
  rw [hpath]
  apply if_neg
  rintro rfl
  exact h htoken

/-- The levels below a category are those of the category. -/
theorem tokensAt_of_category {entries : Entries ε} (h : entries.Proper) {token : Text}
    {child : Level ε} (hentry : (token, .category child) ∈ entries.toList) (way : List Text) :
    tokensAt (token :: way) entries.places = tokensAt way child.entries.places := by
  induction h with
  | nil => cases hentry
  | event _ _ _ ih =>
    rcases List.mem_cons.mp hentry with hentry | hentry
    · cases hentry
    · rw [places, tokensAt_below_cons, ih hentry]
  | @category t ds o children rest _ hnew _ _ _ ih =>
    rw [places, tokensAt_below_cons, tokensAt_append, tokensAt_map_below]
    rcases List.mem_cons.mp hentry with hentry | hentry
    · cases hentry
      rw [if_pos rfl, tokensAt_below_eq_nil hnew, List.append_nil]
    · have hmem : token ∈ rest.tokens := mem_tokens_of_mem hentry
      have hother : token ≠ t := fun h => hnew (h ▸ hmem)
      rw [if_neg hother, ih hentry, List.nil_append]

/-- **A path that is added** sets the tokens that are not there yet, behind those that are. The induction is
along the path; the cases of an entry with another token differ by what is before the rest of the level. -/
theorem tokensAt_insert {entries : Entries ε} (h : entries.Proper) {spec : EventSpec ε} {token : Text}
    {more : List Text} (hadded : (Entries.insert spec entries token more).2 = none)
    (way : List Text) :
    tokensAt way (Entries.insert spec entries token more).1.places
      = tokensAt way entries.places
        ++ (tokensAt way (pathPlaces (token :: more))).filter (· ∉ tokensAt way entries.places) := by
  fun_induction Entries.insert spec entries token more generalizing way with
  | case1 token more =>
    rw [places_branch, places]
    simp [tokensAt]
  | case2 | case4 => cases hadded
  | case3 t s rest token more ht rest' fault hins ih =>
    obtain _ | ⟨_, _, hrest⟩ := h
    rw [hins] at ih
    rw [places, places]
    cases way with
    | nil =>
      have hother : token ≠ t := Ne.symm ht
      rw [tokensAt_top_cons, tokensAt_top_cons, ih hrest hadded, tokensAt_top_pathPlaces]
      simp [List.filter_cons, hother]
    | cons step way => rw [tokensAt_below_cons, tokensAt_below_cons, ih hrest hadded]
  | case5 ds o children rest token next more children' fault hins ih =>
    obtain _ | _ | ⟨_, hnew, hchildren, _⟩ := h
    rw [hins] at ih
    rw [places, places]
    cases way with
    | nil =>
      have hbelow : ∀ entries : Entries ε, tokensAt [] (entries.places.map (Place.below token)) = [] :=
        fun entries => tokensAt_top_map_below token fun p hp => path_ne_nil_of_mem_places hp
      rw [tokensAt_top_cons, tokensAt_top_cons, tokensAt_append, tokensAt_append, hbelow, hbelow,
        tokensAt_top_pathPlaces]
      simp
    | cons step way =>
      rw [tokensAt_below_cons, tokensAt_below_cons, tokensAt_append, tokensAt_append,
        tokensAt_map_below, tokensAt_map_below, tokensAt_below_pathPlaces]
      by_cases hstep : step = token
      · rw [hstep, tokensAt_below_eq_nil hnew]
        simp [ih hchildren hadded]
      · simp [hstep]
  | case6 t ds o children rest token more ht rest' fault hins ih =>
    obtain _ | _ | ⟨_, _, _, hrest⟩ := h
    have hother : token ≠ t := Ne.symm ht
    rw [hins] at ih
    rw [places, places]
    cases way with
    | nil =>
      rw [tokensAt_top_cons, tokensAt_top_cons, tokensAt_append, tokensAt_append,
        tokensAt_top_map_below t fun p hp => path_ne_nil_of_mem_places hp, ih hrest hadded,
        tokensAt_top_pathPlaces]
      simp [List.filter_cons, hother]
    | cons step way =>
      rw [tokensAt_below_cons, tokensAt_below_cons, tokensAt_append, tokensAt_append,
        tokensAt_map_below, ih hrest hadded, tokensAt_below_pathPlaces]
      by_cases hstep : step = token
      · simp [hstep, hother]
      · simp [hstep]

end Entries

/-- The tokens of a level are those that the tree has there. -/
theorem Level.Has.tokens_eq {l l' : Level ε} {path : List Text} (h : l.Has path l')
    (hproper : l.entries.Proper) : l'.entries.tokens = tokensAt path l.entries.places := by
  induction h with
  | here => exact (Entries.tokensAt_top _).symm
  | into hentry _ ih =>
    rw [ih (hproper.of_category hentry), Entries.tokensAt_of_category hproper hentry]

/-! ## The order of the calls -/

theorem eraseDups_of_nodup {tokens : List Text} (h : tokens.Nodup) : tokens.eraseDups = tokens := by
  induction tokens with
  | nil => rfl
  | cons token tokens ih =>
    obtain ⟨hnew, hnodup⟩ := List.nodup_cons.mp h
    have hkept : tokens.filter (fun other => !other == token) = tokens := by
      rw [List.filter_eq_self]
      intro other hother
      have hne : other ≠ token := fun heq => hnew (heq ▸ hother)
      simp [hne]
    rw [List.eraseDups_cons, hkept, ih hnodup]

/-- **The tokens that calls create** on the level at a path, in the order in which they come first. -/
def TableCall.created (path : List Text) (calls : List (TableCall ε)) : List Text :=
  (tokensAt path (calls.flatMap TableCall.places)).eraseDups

theorem LevelCall.path_ne_nil_of_mem_places {call : LevelCall ε} {p : Place} (h : p ∈ call.places) :
    p.path ≠ [] := by
  cases call with
  | event token event trailing =>
    rw [LevelCall.places, List.mem_singleton] at h
    rw [h]
    exact List.cons_ne_nil token []
  | category token calls =>
    rw [LevelCall.places] at h
    rcases List.mem_cons.mp h with rfl | h
    · exact List.cons_ne_nil token []
    · obtain ⟨inner, -, rfl⟩ := List.mem_map.mp h
      exact List.cons_ne_nil token inner.path
  | otherwise event =>
    rw [LevelCall.places] at h
    cases h
  | delimiters chars =>
    rw [LevelCall.places] at h
    cases h

theorem LevelCall.path_ne_nil_of_mem_placesOfAll {calls : List (LevelCall ε)} {p : Place}
    (h : p ∈ placesOfAll calls) : p.path ≠ [] := by
  rw [← flatMap_places, List.mem_flatMap] at h
  obtain ⟨call, hcall, hp⟩ := h
  obtain ⟨call, -, rfl⟩ := List.mem_map.mp hcall
  exact call.path_ne_nil_of_mem_places hp

namespace TableCall

variable {calls : List (TableCall ε)} {call : TableCall ε}

/-- A call creates what was not created before. -/
theorem created_concat (path : List Text) (calls : List (TableCall ε)) (call : TableCall ε) :
    created path (calls ++ [call])
      = created path calls
        ++ ((tokensAt path call.places).filter (· ∉ created path calls)).eraseDups := by
  have hnew : (tokensAt path call.places).removeAll (tokensAt path (calls.flatMap places))
      = (tokensAt path call.places).filter (· ∉ created path calls) := by
    unfold List.removeAll
    apply List.filter_congr
    intro token _
    simp [created]
  unfold created at hnew ⊢
  rw [List.flatMap_append, List.flatMap_singleton, tokensAt_append, List.eraseDups_append, hnew]

/-- All that a call sets on a level is created, if none of it was there. -/
theorem created_concat_of_new {path : List Text}
    (hnew : ∀ token ∈ tokensAt path call.places, token ∉ created path calls) :
    created path (calls ++ [call])
      = created path calls ++ (tokensAt path call.places).eraseDups := by
  rw [created_concat]
  congr 2
  rw [List.filter_eq_self]
  intro token htoken
  exact decide_eq_true (hnew token htoken)

/-- Nothing is created where a call sets no token. -/
theorem created_concat_of_nil {path : List Text} (hnil : tokensAt path call.places = []) :
    created path (calls ++ [call]) = created path calls := by
  rw [created_concat, hnil]
  exact List.append_nil _

end TableCall

namespace Level.Made

/-- **One more entry.** Below its token nothing was there before, so the order there is that of what it brings
along. -/
theorem tokensAt_append_entry {calls : List (TableCall ε)} {l : Level ε}
    (h : ∀ path, tokensAt path l.entries.places = TableCall.created path calls) {token : Text}
    (hnew : token ∉ l.entries.tokens) {entry : Entries ε} {call : TableCall ε} {kind : PlaceKind}
    (below inner : List Place)
    (hentry : entry.places = ⟨[token], kind⟩ :: below.map (Place.below token))
    (hcall : call.places = ⟨[token], kind⟩ :: inner.map (Place.below token))
    (hbelow : ∀ p ∈ below, p.path ≠ []) (hinner : ∀ p ∈ inner, p.path ≠ [])
    (hsame : ∀ way, tokensAt way below = (tokensAt way inner).eraseDups) (path : List Text) :
    tokensAt path (l.entries.append entry).places = TableCall.created path (calls ++ [call]) := by
  rw [Entries.places_append, tokensAt_append, h, hentry]
  cases path with
  | nil =>
    have htoken : tokensAt [] call.places = [token] := by
      rw [hcall, tokensAt_top_cons, tokensAt_top_map_below token hinner]
    rw [TableCall.created_concat_of_new, htoken, tokensAt_top_cons,
      tokensAt_top_map_below token hbelow]
    · rfl
    · intro t ht
      rw [htoken, List.mem_singleton] at ht
      rw [← h, Entries.tokensAt_top, ht]
      exact hnew
  | cons step way =>
    rw [tokensAt_below_cons, tokensAt_map_below]
    have htokens : tokensAt (step :: way) call.places
        = if step = token then tokensAt way inner else [] := by
      rw [hcall, tokensAt_below_cons, tokensAt_map_below]
    by_cases hstep : step = token
    · rw [if_pos hstep] at htokens ⊢
      have hnone : TableCall.created (step :: way) calls = [] := by
        rw [← h, hstep, Entries.tokensAt_below_eq_nil hnew]
      rw [TableCall.created_concat_of_new, htokens, hsame]
      rw [hnone]
      exact fun _ _ => List.not_mem_nil
    · rw [if_neg hstep] at htokens ⊢
      rw [TableCall.created_concat_of_nil htokens, List.append_nil]

/-- **The tokens of every level** are those that the calls have created there, in this order. -/
theorem tokensAt_eq_created {calls : List (TableCall ε)} {l : Level ε} (h : l.Made calls)
    (path : List Text) : tokensAt path l.entries.places = TableCall.created path calls := by
  induction h generalizing path with
  | nil => rfl
  | event _ _ hnew ih =>
    apply tokensAt_append_entry ih hnew [] []
    · rfl
    · rfl
    · exact fun p hp => absurd hp List.not_mem_nil
    · exact fun p hp => absurd hp List.not_mem_nil
    · exact fun way => rfl
  | @category calls inner l child token _ _ _ hnew ih ihchild =>
    apply tokensAt_append_entry ih hnew child.entries.places (LevelCall.placesOfAll inner)
    · rw [Entries.places, Entries.places, List.append_nil]
    · rw [TableCall.places, LevelCall.places]
    · exact fun p hp => Entries.path_ne_nil_of_mem_places hp
    · exact fun p hp => LevelCall.path_ne_nil_of_mem_placesOfAll hp
    · intro way
      rw [ihchild, TableCall.created, LevelCall.flatMap_places]
  | otherwise _ _ ih => rw [ih, TableCall.created_concat_of_nil rfl]
  | delimiters _ _ ih => rw [ih, TableCall.created_concat_of_nil rfl]
  | @pattern calls l pattern token more event trailing hmade htokens hadded ih =>
    have hnodup := (nodup_tokensAt_pathPlaces path (token :: more)).filter
      (· ∉ TableCall.created path calls)
    rw [Entries.tokensAt_insert hmade.proper hadded, ih, TableCall.created_concat, TableCall.places,
      htokens, eraseDups_of_nodup hnodup]
  | bare _ ih => rw [ih, TableCall.created_concat_of_nil rfl]

end Level.Made

end ModemLink
