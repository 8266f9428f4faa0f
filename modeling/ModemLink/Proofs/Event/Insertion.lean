/-
Adding a path, all of it or nothing.

A path is followed category by category, and a category that is missing is made before the path goes on into
it, when nobody knows yet whether the end of the path is free. Nothing is left behind where it is not: below a
category that has just been made nothing stands that could be in the way, so whatever refuses a path does so
before anything is made. `addPath` takes these steps one by one, and it comes to the same as `insert`.

What an added path does to a tree is said by the list of everything in it (`nodes`), which tells trees apart.
One event comes to it, right behind the categories on the way that were missing, and nothing else changes.
-/
import Mathlib
import ModemLink.Proofs.Event.WellFormed

set_option autoImplicit false

namespace ModemLink

variable {ε : Type}

/-! ## Everything in a tree -/

/-- What an entry is, apart from what is below it. -/
inductive Node (ε : Type) where
  | event (spec : EventSpec ε)
  | category (delimiters : List Char) (otherwise : Option (EventSpec ε))
deriving DecidableEq, Repr

/-- The node below one more token. -/
def Node.below (token : Text) (n : List Text × Node ε) : List Text × Node ε := (token :: n.1, n.2)

/-- The categories on the way of a path, from the top. -/
def waypoints : List Text → List (List Text)
  | [] => []
  | [_] => []
  | token :: next :: more => [token] :: (waypoints (next :: more)).map (token :: ·)

theorem exists_of_mem_waypoints {token : Text} {more way : List Text}
    (h : way ∈ waypoints (token :: more)) : ∃ rest, way = token :: rest := by
  cases more with
  | nil => cases h
  | cons next more =>
    rcases List.mem_cons.mp h with rfl | h
    · exact ⟨[], rfl⟩
    · obtain ⟨rest, -, rfl⟩ := List.mem_map.mp h
      exact ⟨rest, rfl⟩

namespace Entries

/-- **Everything in a tree,** with the paths that lead there. What is below a category stands behind it. -/
def nodes : Entries ε → List (List Text × Node ε)
  | .nil => []
  | .event t s rest => ([t], .event s) :: rest.nodes
  | .category t ds o children rest =>
    ([t], .category ds o) :: (children.nodes.map (Node.below t) ++ rest.nodes)

/-- A tree lists an entry of its top level first. -/
theorem length_path_of_head?_nodes {entries : Entries ε} {n : List Text × Node ε}
    (h : entries.nodes.head? = some n) : n.1.length = 1 := by
  cases entries with
  | nil => cases h
  | event | category =>
    cases h
    rfl

theorem path_ne_nil_of_mem_nodes {entries : Entries ε} {n : List Text × Node ε}
    (h : n ∈ entries.nodes) : n.1 ≠ [] := by
  induction entries with
  | nil => cases h
  | event t s rest ih =>
    rcases List.mem_cons.mp h with rfl | h
    · exact List.cons_ne_nil t []
    · exact ih h
  | category t ds o children rest _ ih =>
    rcases List.mem_cons.mp h with rfl | h
    · exact List.cons_ne_nil t []
    · rcases List.mem_append.mp h with h | h
      · obtain ⟨inner, -, rfl⟩ := List.mem_map.mp h
        exact List.cons_ne_nil t inner.1
      · exact ih h

/-- What is below a category ends where the next entry of the level stands. -/
theorem takeWhile_nodes (t : Text) (children rest : Entries ε) :
    (children.nodes.map (Node.below t) ++ rest.nodes).takeWhile (1 < ·.1.length)
      = children.nodes.map (Node.below t) := by
  rw [List.takeWhile_append_of_pos]
  · have hnone : rest.nodes.takeWhile (1 < ·.1.length) = [] := by
      cases hnodes : rest.nodes with
      | nil => rfl
      | cons n more =>
        have hone : n.1.length = 1 := length_path_of_head?_nodes (by rw [hnodes]; rfl)
        exact List.takeWhile_cons_of_neg (by simp [hone])
    rw [hnone, List.append_nil]
  · intro n hn
    obtain ⟨inner, hinner, rfl⟩ := List.mem_map.mp hn
    have hpos := List.length_pos_iff.mpr (path_ne_nil_of_mem_nodes hinner)
    simpa [Node.below] using hpos

/-- **The list tells trees apart.** -/
theorem nodes_injective {entries entries' : Entries ε} (h : entries.nodes = entries'.nodes) :
    entries = entries' := by
  have hbelow (t : Text) : Function.Injective (Node.below (ε := ε) t) := by
    rintro ⟨path, n⟩ ⟨path', n'⟩ hsame
    cases hsame
    rfl
  induction entries generalizing entries' with
  | nil =>
    cases entries' with
    | nil => rfl
    | event | category => cases h
  | event t s rest ih =>
    cases entries' with
    | event t' s' rest' =>
      obtain ⟨hfirst, hrest⟩ := List.cons.inj h
      cases hfirst
      rw [ih hrest]
    | nil | category => cases h
  | category t ds o children rest ihchildren ihrest =>
    cases entries' with
    | category t' ds' o' children' rest' =>
      obtain ⟨hfirst, hmore⟩ := List.cons.inj h
      cases hfirst
      -- both lists are cut where the next entry of the level stands
      have hchildren := congrArg (List.takeWhile (1 < ·.1.length)) hmore
      rw [takeWhile_nodes, takeWhile_nodes] at hchildren
      rw [hchildren] at hmore
      rw [ihchildren (List.map_injective_iff.mpr (hbelow t) hchildren),
        ihrest (List.append_cancel_left hmore)]
    | nil | event => cases h

/-! ## Step by step -/

/-- Does something to the level of the first entry with this token. An event has none, and is in the way. -/
def within (token : Text) (f : Entries ε → Entries ε × Option PathFault) :
    Entries ε → Entries ε × Option PathFault
  | .nil => (.nil, none)
  | .event t s rest =>
    if t = token then (.event t s rest, some (.through token))
    else
      let (rest', fault) := within token f rest
      (.event t s rest', fault)
  | .category t ds o children rest =>
    if t = token then
      let (children', fault) := f children
      (.category t ds o children' rest, fault)
    else
      let (rest', fault) := within token f rest
      (.category t ds o children rest', fault)

/-- **Adding a path step by step.** A category that is missing is made first, and then the path goes on into
it; at its end the last token must be free. -/
def addPath (spec : EventSpec ε) : List Text → Entries ε → Entries ε × Option PathFault
  | [], entries => (entries, none)
  | [last], entries =>
    if entries.tokens.contains last then (entries, some .taken)
    else (entries.append (.event last spec .nil), none)
  | token :: next :: more, entries =>
    within token (addPath spec (next :: more))
      (if entries.tokens.contains token then entries
        else entries.append (.category token [] none .nil .nil))

/-- In a category that has just been made at the end of the level, what is done is done to nothing. -/
theorem within_append_new {entries : Entries ε} {token : Text} (hnew : token ∉ entries.tokens)
    (f : Entries ε → Entries ε × Option PathFault) :
    within token f (entries.append (.category token [] none .nil .nil))
      = (entries.append (.category token [] none (f .nil).1 .nil), (f .nil).2) := by
  induction entries with
  | nil => simp only [append, within, if_true]
  | event t s rest ih | category t ds o children rest _ ih =>
    obtain ⟨hne, hnew⟩ := not_or.mp (mt List.mem_cons.mpr hnew)
    simp only [append, within, if_neg (Ne.symm hne), ih hnew]

theorem insert_of_not_mem {entries : Entries ε} {spec : EventSpec ε} {token : Text}
    (hnew : token ∉ entries.tokens) (more : List Text) :
    entries.insert spec token more = (entries.append (branch spec token more), none) := by
  induction entries with
  | nil => rfl
  | event t s rest ih | category t ds o children rest _ ih =>
    obtain ⟨hne, hnew⟩ := not_or.mp (mt List.mem_cons.mpr hnew)
    simp only [append, insert, if_neg (Ne.symm hne), ih hnew]

theorem insert_last_of_mem {entries : Entries ε} {spec : EventSpec ε} {token : Text}
    (h : token ∈ entries.tokens) : entries.insert spec token [] = (entries, some .taken) := by
  induction entries with
  | nil => cases h
  | event t s rest ih | category t ds o children rest _ ih =>
    rw [insert]
    by_cases ht : t = token
    · simp only [if_pos ht, List.isEmpty_nil, if_true]
    · have hrest := (List.mem_cons.mp h).resolve_left (Ne.symm ht)
      simp only [if_neg ht, ih hrest]

/-- Where a first step leads, the rest of the path is added. -/
theorem insert_of_mem {entries : Entries ε} {spec : EventSpec ε} {token : Text}
    (h : token ∈ entries.tokens) (next : Text) (more : List Text) :
    entries.insert spec token (next :: more)
      = within token (fun children => children.insert spec next more) entries := by
  induction entries with
  | nil => cases h
  | event t s rest ih | category t ds o children rest _ ih =>
    rw [insert, within]
    by_cases ht : t = token
    · simp only [if_pos ht, List.isEmpty_cons, Bool.false_eq_true, if_false]
    · have hrest := (List.mem_cons.mp h).resolve_left (Ne.symm ht)
      simp only [if_neg ht, ih hrest]

/-- **Step by step or at once:** it comes to the same. The induction is along the path; what has been made on
the way is never refused. -/
theorem addPath_eq_insert (spec : EventSpec ε) (token : Text) (more : List Text) (entries : Entries ε) :
    entries.addPath spec (token :: more) = entries.insert spec token more := by
  induction more generalizing token entries with
  | nil =>
    unfold addPath
    by_cases h : token ∈ entries.tokens
    · rw [if_pos (List.contains_iff_mem.mpr h), insert_last_of_mem h]
    · rw [if_neg (mt List.contains_iff_mem.mp h), insert_of_not_mem h]
      rfl
  | cons next more ih =>
    have hmore : addPath spec (next :: more) = fun children => children.insert spec next more :=
      funext (ih next)
    rw [addPath, hmore]
    by_cases h : token ∈ entries.tokens
    · rw [if_pos (List.contains_iff_mem.mpr h), insert_of_mem h]
    · -- the category has just been made, so there is nothing in it to refuse the rest
      rw [if_neg (mt List.contains_iff_mem.mp h), within_append_new h, insert_of_not_mem h]
      rfl

/-! ## What becomes of the tree -/

/-- **A path that is refused** has changed nothing. -/
theorem insert_of_fault {entries : Entries ε} {spec : EventSpec ε} {token : Text} {more : List Text}
    (hrefused : (entries.insert spec token more).2 ≠ none) :
    (entries.insert spec token more).1 = entries := by
  fun_induction insert spec entries token more with
  | case1 => exact absurd rfl hrefused
  | case2 | case4 => rfl
  | case3 t s rest token more ht rest' fault hins ih =>
    rw [hins] at ih
    exact congrArg (event t s) (ih hrefused)
  | case5 ds o children rest token next more children' fault hins ih =>
    rw [hins] at ih
    exact congrArg (category token ds o · rest) (ih hrefused)
  | case6 t ds o children rest token more ht rest' fault hins ih =>
    rw [hins] at ih
    exact congrArg (category t ds o children) (ih hrefused)

/-- The categories on the way of a path that a tree does not have. -/
def missing (entries : Entries ε) (path : List Text) : List (List Text) :=
  (waypoints path).filter fun way => (⟨way, .category⟩ : Place) ∉ entries.places

/-- **One path more.** Everything in the tree is as it was, in the same order; what has come are the
categories on the way that were missing, without delimiters and `otherwise` event, and one event. -/
def Gains (spec : EventSpec ε) (path : List Text) (entries entries' : Entries ε) : Prop :=
  ∃ front behind, entries.nodes = front ++ behind
    ∧ entries'.nodes = front ++ ((entries.missing path).map fun way => (way, .category [] none))
        ++ (path, .event spec) :: behind

theorem nodes_branch (spec : EventSpec ε) (token : Text) (more : List Text) :
    (branch spec token more).nodes
      = ((waypoints (token :: more)).map fun way => (way, .category [] none))
        ++ [(token :: more, .event spec)] := by
  induction more generalizing token with
  | nil => rfl
  | cons next more ih =>
    rw [branch, nodes, ih, waypoints]
    simp [nodes, Node.below]

/-- Only the places behind the first token matter for what is missing. -/
theorem missing_congr {entries rest : Entries ε} {token : Text}
    (h : ∀ way, (⟨token :: way, .category⟩ : Place) ∈ entries.places
      ↔ (⟨token :: way, .category⟩ : Place) ∈ rest.places) (more : List Text) :
    entries.missing (token :: more) = rest.missing (token :: more) := by
  unfold missing
  apply List.filter_congr
  intro way hway
  obtain ⟨below, rfl⟩ := exists_of_mem_waypoints hway
  rw [decide_eq_decide, h]

/-- Where the first step leads, what is missing is missing there. -/
theorem missing_category {token : Text} {ds : List Char} {o : Option (EventSpec ε)}
    {children rest : Entries ε} (hnew : token ∉ rest.tokens) (next : Text) (more : List Text) :
    (category token ds o children rest).missing (token :: next :: more)
      = (children.missing (next :: more)).map (token :: ·) := by
  have hhere : (⟨[token], .category⟩ : Place) ∈ (category token ds o children rest).places :=
    List.mem_cons_self
  unfold missing
  rw [waypoints, List.filter_cons_of_neg (by simp [hhere]), List.filter_map]
  congr 1
  apply List.filter_congr
  intro way hway
  obtain ⟨below, rfl⟩ := exists_of_mem_waypoints hway
  have hsame : (⟨token :: next :: below, .category⟩ : Place) ∈ (category token ds o children rest).places
      ↔ (⟨next :: below, .category⟩ : Place) ∈ children.places := by
    simp only [places, List.mem_cons, List.mem_append, Place.mem_map_below_iff,
      not_mem_places_of_not_mem_tokens hnew]
    simp
  rw [Function.comp_apply, decide_eq_decide, hsame]

/-- **A path that is added** brings its event and the missing categories. The induction is along the path. -/
theorem Proper.gains_insert {entries : Entries ε} (h : entries.Proper) {spec : EventSpec ε} {token : Text}
    {more : List Text} (hadded : (Entries.insert spec entries token more).2 = none) :
    Gains spec (token :: more) entries (Entries.insert spec entries token more).1 := by
  fun_induction Entries.insert spec entries token more with
  | case1 token more =>
    have hall : (Entries.nil : Entries ε).missing (token :: more) = waypoints (token :: more) :=
      List.filter_eq_self.mpr fun _ _ => rfl
    refine ⟨[], [], rfl, ?_⟩
    rw [nodes_branch, hall, List.nil_append]
  | case2 | case4 => cases hadded
  | case3 t s rest token more ht rest' fault hins ih =>
    obtain _ | ⟨_, _, hrest⟩ := h
    rw [hins] at ih
    obtain ⟨front, behind, hnodes, hnodes'⟩ := ih hrest hadded
    have hmissing : (Entries.event t s rest).missing (token :: more) = rest.missing (token :: more) := by
      apply missing_congr
      intro way
      simp [places]
    refine ⟨([t], .event s) :: front, behind, congrArg _ hnodes, ?_⟩
    rw [hmissing]
    exact congrArg _ hnodes'
  | case5 ds o children rest token next more children' fault hins ih =>
    obtain _ | _ | ⟨_, hnew, hchildren, _⟩ := h
    rw [hins] at ih
    obtain ⟨front, behind, hnodes, hnodes'⟩ := ih hchildren hadded
    -- what stands behind the category on its level stays behind all that comes into it
    refine ⟨([token], .category ds o) :: front.map (Node.below token),
      behind.map (Node.below token) ++ rest.nodes, ?_, ?_⟩
    · rw [nodes, hnodes, List.map_append, List.append_assoc, List.cons_append]
    · rw [nodes, hnodes', missing_category hnew]
      simp [Node.below]
  | case6 t ds o children rest token more ht rest' fault hins ih =>
    obtain _ | _ | ⟨_, _, _, hrest⟩ := h
    rw [hins] at ih
    obtain ⟨front, behind, hnodes, hnodes'⟩ := ih hrest hadded
    have hmissing : (Entries.category t ds o children rest).missing (token :: more)
        = rest.missing (token :: more) := by
      apply missing_congr
      intro way
      simp [places, Place.mem_map_below_iff, ht, Ne.symm ht]
    refine ⟨([t], .category ds o) :: (children.nodes.map (Node.below t) ++ front), behind, ?_, ?_⟩
    · rw [nodes, hnodes, List.cons_append, List.append_assoc]
    · rw [nodes, hnodes', hmissing]
      simp

end Entries

/-! ## Every tree on the way to a table

A call that fails is remembered, and more calls may follow it. The tree is proper all the same. -/

namespace Draft

theorem proper_addEntry {d : Draft ε} (h : d.level.entries.Proper) {token : Text} {entry : Entries ε}
    (htokens : entry.tokens = [token]) (hentry : token ≠ [] → entry.Proper) :
    (d.addEntry token entry).level.entries.Proper := by
  unfold addEntry
  split
  · exact h
  · next hne =>
    split
    · exact h
    · next hnew => exact h.append_entry (hentry hne) htokens hnew

mutual

theorem proper_apply {d : Draft ε} (h : d.level.entries.Proper) :
    (call : LevelCall ε) → (apply call d).level.entries.Proper
  | .event token event trailing => by
    rw [apply]
    exact proper_addEntry h rfl fun hne => .event hne List.not_mem_nil .nil
  | .category token calls => by
    -- the category is a draft of its own, and it is not added if that has failed
    have hinside := proper_applyAll (d := {}) (.nil : Entries.Proper (ε := ε) .nil) calls
    rw [apply, addCategory]
    split
    · exact h
    · exact proper_addEntry h rfl fun hne => .category hne List.not_mem_nil hinside .nil
  | .otherwise event => by
    rw [apply, setOtherwise]
    split <;> exact h
  | .delimiters chars => by
    rw [apply, setDelimiters]
    split <;> exact h

theorem proper_applyAll {d : Draft ε} (h : d.level.entries.Proper) :
    (calls : List (LevelCall ε)) → (applyAll calls d).level.entries.Proper
  | [] => h
  | call :: calls => by
    rw [applyAll]
    exact proper_applyAll (proper_apply h call) calls

end

end Draft

namespace TableDraft

theorem proper_addPattern {d : Draft ε} (h : d.level.entries.Proper) (pattern : Text)
    (spec : EventSpec ε) : (addPattern pattern spec d).level.entries.Proper := by
  unfold addPattern
  cases htokens : patternTokens pattern with
  | nil => exact h
  | cons token more =>
    have hinsert : (d.level.entries.insert spec token more).1.Proper := by
      apply h.insert
      intro w hw
      rw [← htokens] at hw
      exact (isWord_of_mem_patternTokens hw).ne_nil
    simp only
    split <;> exact hinsert

/-- **Whatever calls have been made,** the tree is proper. -/
theorem proper_root (calls : List (TableCall ε)) : (applyAll calls {}).root.level.entries.Proper := by
  induction calls using List.reverseRecOn with
  | nil => exact .nil
  | append_singleton calls call ih =>
    rw [applyAll_concat]
    cases call with
    | level call => exact Draft.proper_apply ih call
    | pattern path event trailing => exact proper_addPattern ih path _
    | bare text event trailing => exact ih

/-! ## One pattern more -/

/-- **What a pattern does** does not depend on what has failed before. -/
theorem addPattern_eq (pattern : Text) (spec : EventSpec ε) (d : Draft ε) :
    addPattern pattern spec d
      = ⟨(addPattern pattern spec ⟨d.level, none⟩).level,
          d.fault <|> (addPattern pattern spec ⟨d.level, none⟩).fault⟩ := by
  unfold addPattern
  cases patternTokens pattern with
  | nil => rfl
  | cons token more =>
    simp only
    rcases (d.level.entries.insert spec token more).2 with - | (_ | _)
    · simp
    · rfl
    · rfl

/-- A pattern that is refused leaves the level as it is. -/
theorem level_of_refused {l : Level ε} {pattern : Text} {spec : EventSpec ε} {f : TableFault}
    (h : (addPattern pattern spec ⟨l, none⟩).fault = some f) :
    (addPattern pattern spec ⟨l, none⟩).level = l := by
  unfold addPattern at h ⊢
  cases htokens : patternTokens pattern with
  | nil => rfl
  | cons token more =>
    rw [htokens] at h
    simp only at h ⊢
    have hentries (hrefused : (l.entries.insert spec token more).2 ≠ none) :
        ({ l with entries := (l.entries.insert spec token more).1 } : Level ε) = l := by
      rw [Entries.insert_of_fault hrefused]
    cases hfault : (l.entries.insert spec token more).2 with
    | none =>
      rw [hfault] at h
      cases h
    | some fault =>
      have hsame := hentries (by rw [hfault]; exact Option.some_ne_none fault)
      cases fault <;> exact hsame

/-- A pattern that is added brings its event and the missing categories. -/
theorem gains_of_added {l : Level ε} (hproper : l.entries.Proper) {pattern : Text} {spec : EventSpec ε}
    (h : (addPattern pattern spec ⟨l, none⟩).fault = none) :
    (addPattern pattern spec ⟨l, none⟩).level.delimiters = l.delimiters
      ∧ (addPattern pattern spec ⟨l, none⟩).level.otherwise = l.otherwise
      ∧ l.entries.Gains spec (patternTokens pattern)
          (addPattern pattern spec ⟨l, none⟩).level.entries := by
  unfold addPattern at h ⊢
  cases htokens : patternTokens pattern with
  | nil =>
    rw [htokens] at h
    cases h
  | cons token more =>
    rw [htokens] at h
    simp only at h ⊢
    cases hfault : (l.entries.insert spec token more).2 with
    | none => exact ⟨rfl, rfl, hproper.gains_insert hfault⟩
    | some fault =>
      rw [hfault] at h
      cases fault <;> cases h

/-- **A pattern is added completely or not at all,** whatever calls have been made before. If it is refused, the
tree is exactly as it was. If it is added, the tree has one event more and the categories on its way that were
missing, and everything else in it is as it was and in the same order; a list of all that is in a tree is that
of this tree only. Making the missing categories one by one on the way comes to the same. -/
theorem pattern_all_or_nothing (calls : List (TableCall ε)) (pattern : Text) (spec : EventSpec ε) :
    let d := (applyAll calls {}).root
    let d' := addPattern pattern spec ⟨d.level, none⟩
    addPattern pattern spec d = ⟨d'.level, d.fault <|> d'.fault⟩
      ∧ (∀ f, d'.fault = some f → d'.level = d.level)
      ∧ (d'.fault = none → d'.level.delimiters = d.level.delimiters
          ∧ d'.level.otherwise = d.level.otherwise
          ∧ d.level.entries.Gains spec (patternTokens pattern) d'.level.entries)
      ∧ (∀ entries : Entries ε, entries.nodes = d'.level.entries.nodes → entries = d'.level.entries)
      ∧ ∀ token more, d.level.entries.addPath spec (token :: more)
          = d.level.entries.insert spec token more := by
  intro d d'
  refine ⟨addPattern_eq pattern spec d, fun f hf => level_of_refused hf, fun hnone => ?_,
    fun entries h => Entries.nodes_injective h,
    fun token more => Entries.addPath_eq_insert spec token more d.level.entries⟩
  exact gains_of_added (proper_root calls) hnone

/-- A pattern through an event is refused, and one through a category that is there makes another one below
it. -/
theorem pattern_all_or_nothing_shared :
    let calls : List (TableCall Nat) :=
      [.category "EVT".toList [.delimiters [':'], .event "JOINED".toList 1], .event "CREG".toList 2]
    let l := (applyAll calls {}).root.level
    (addPattern "+CREG,1,2".toList ⟨3, 0⟩ ⟨l, none⟩).level = l
      ∧ l.entries.Gains ⟨3, 0⟩ ["EVT".toList, "RX".toList, "1".toList]
          (addPattern "+EVT,RX,1".toList ⟨3, 0⟩ ⟨l, none⟩).level.entries := by
  intro calls l
  constructor
  · obtain ⟨-, hrefused, -⟩ := pattern_all_or_nothing calls "+CREG,1,2".toList ⟨3, 0⟩
    exact hrefused (.patternThroughEvent "+CREG,1,2" "CREG") (by decide +kernel)
  · obtain ⟨-, -, hadded, -⟩ := pattern_all_or_nothing calls "+EVT,RX,1".toList ⟨3, 0⟩
    have htokens : patternTokens "+EVT,RX,1".toList = ["EVT".toList, "RX".toList, "1".toList] := by decide
    rw [← htokens]
    exact (hadded (by decide +kernel)).2.2

end TableDraft

end ModemLink
