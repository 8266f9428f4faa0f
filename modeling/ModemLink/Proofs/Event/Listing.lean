/-
What a table lists.

A call that adds an event, a pattern, a bare line or the event for the rest of a level is listed by one row, and
nothing else is listed. Patterns go into categories that earlier calls have made, so the rows of the tree are not
in the order of the calls: the listing is a rearrangement of them. What the order is can be said level by level.
The entries of a level follow each other as they were created, each with all that is below it, and the event for
the rest of the level comes last.
-/
import Mathlib
import ModemLink.Proofs.Event.Creation

set_option autoImplicit false

namespace ModemLink

variable {ε : Type}

/-! ## The rows of the calls -/

mutual

/-- **The rows that a call adds** to the level that it is made on. -/
def LevelCall.rows : LevelCall ε → List (Row ε)
  | .event token ev trailing => [⟨[token], ⟨ev, trailing⟩⟩]
  | .category token calls => (rowsOfAll calls).map (Row.below [token])
  | .otherwise ev => [⟨[['*']], ⟨ev, 0⟩⟩]
  | .delimiters _ => []

/-- The rows that several calls add. -/
def LevelCall.rowsOfAll : List (LevelCall ε) → List (Row ε)
  | [] => []
  | call :: calls => call.rows ++ rowsOfAll calls

end

mutual

/-- How many calls add an event, among a call and those that are made within it. -/
def LevelCall.eventCalls : LevelCall ε → Nat
  | .event _ _ _ => 1
  | .category _ calls => eventCallsOfAll calls
  | .otherwise _ => 1
  | .delimiters _ => 0

/-- How many of several calls do. -/
def LevelCall.eventCallsOfAll : List (LevelCall ε) → Nat
  | [] => 0
  | call :: calls => call.eventCalls + eventCallsOfAll calls

end

namespace TableCall

/-- The rows that a call adds to the tree. -/
def treeRows : TableCall ε → List (Row ε)
  | .level call => call.rows
  | .pattern path event trailing => [⟨patternTokens path, ⟨event, trailing⟩⟩]
  | .bare _ _ _ => []

/-- The row that a call adds to the bare lines. -/
def bareRows : TableCall ε → List (Row ε)
  | .bare text event trailing => [⟨[text], ⟨event, trailing⟩⟩]
  | _ => []

/-- **The rows that a call adds** to a table. -/
def rows (call : TableCall ε) : List (Row ε) := call.treeRows ++ call.bareRows

/-- How many calls add an event, among a call on a table and those that are made within it. -/
def eventCalls : TableCall ε → Nat
  | .level call => call.eventCalls
  | .pattern _ _ _ => 1
  | .bare _ _ _ => 1

end TableCall

namespace LevelCall

theorem flatMap_treeRows (calls : List (LevelCall ε)) :
    (calls.map TableCall.level).flatMap TableCall.treeRows = rowsOfAll calls := by
  induction calls with
  | nil => rfl
  | cons call calls ih =>
    rw [List.map_cons, List.flatMap_cons, ih, rowsOfAll, TableCall.treeRows]

mutual

theorem length_rows : (call : LevelCall ε) → call.rows.length = call.eventCalls
  | .event _ _ _ => by
    rw [rows, eventCalls]
    rfl
  | .category _ calls => by rw [rows, eventCalls, List.length_map, length_rowsOfAll]
  | .otherwise _ => by
    rw [rows, eventCalls]
    rfl
  | .delimiters _ => by
    rw [rows, eventCalls]
    rfl

theorem length_rowsOfAll :
    (calls : List (LevelCall ε)) → (rowsOfAll calls).length = eventCallsOfAll calls
  | [] => by
    rw [rowsOfAll, eventCallsOfAll]
    rfl
  | call :: calls => by
    rw [rowsOfAll, eventCallsOfAll, List.length_append, length_rows, length_rowsOfAll]

end

end LevelCall

namespace TableCall

/-- A call adds one row for each event. -/
theorem length_rows (call : TableCall ε) : call.rows.length = call.eventCalls := by
  cases call with
  | level call =>
    show (call.rows ++ []).length = call.eventCalls
    rw [List.append_nil, call.length_rows]
  | pattern path event trailing => rfl
  | bare text event trailing => rfl

theorem length_flatMap_rows (calls : List (TableCall ε)) :
    (calls.flatMap rows).length = (calls.map eventCalls).sum := by
  rw [List.length_flatMap]
  simp only [length_rows]

end TableCall

/-! ## The rows of a level -/

/-- The rows of one entry of a level, its own token at the end of the path. -/
def Entry.rows (path : List Text) : Entry ε → List (Row ε)
  | .event spec => [⟨path, spec⟩]
  | .category child => child.rowsBelow path

theorem TableCall.flatMap_rows_bareEntry? (calls : List (TableCall ε)) :
    (calls.filterMap bareEntry?).flatMap (fun e => e.2.rows [e.1]) = calls.flatMap bareRows := by
  induction calls with
  | nil => rfl
  | cons call calls ih =>
    rw [List.flatMap_cons, ← ih]
    cases call <;> rfl

namespace Entries

/-- The rows of a level, entry by entry. -/
theorem rows_eq_flatMap (entries : Entries ε) (path : List Text) :
    entries.rows path = entries.toList.flatMap fun e => e.2.rows (path ++ [e.1]) := by
  induction entries with
  | nil => rfl
  | event t s rest ih =>
    rw [rows, toList, List.flatMap_cons, ih]
    rfl
  | category t ds o children rest _ ih =>
    rw [rows, toList, List.flatMap_cons, ih]
    rfl

theorem rows_of_append (entries more : Entries ε) (path : List Text) :
    (entries.append more).rows path = entries.rows path ++ more.rows path := by
  rw [rows_eq_flatMap, toList_append, List.flatMap_append, ← rows_eq_flatMap, ← rows_eq_flatMap]

/-- **A path that is added** adds one row, somewhere among the others. -/
theorem rows_insert_perm {entries : Entries ε} {spec : EventSpec ε} {token : Text} {more : List Text}
    (hadded : (insert spec entries token more).2 = none) :
    ((insert spec entries token more).1.rows []).Perm (⟨token :: more, spec⟩ :: entries.rows []) := by
  fun_induction insert spec entries token more with
  | case1 token more =>
    rw [rows_branch]
    exact .refl _
  | case2 | case4 => cases hadded
  | case3 t s rest token more ht rest' fault hins ih =>
    rw [hins] at ih
    exact ((ih hadded).cons _).trans (.swap _ _ _)
  | case5 ds o children rest token next more children' fault hins ih =>
    rw [hins] at ih
    -- the new row comes with those of the category, all of them below its token
    have hchildren : (children'.rows [token]).Perm
        (⟨token :: next :: more, spec⟩ :: children.rows [token]) := by
      have hbelow (entries : Entries ε) : entries.rows [token]
          = (entries.rows []).map (Row.below [token]) := entries.rows_append [token] []
      rw [hbelow, hbelow]
      exact (ih hadded).map (Row.below [token])
    exact (hchildren.append_right _).append_right _
  | case6 t ds o children rest token more ht rest' fault hins ih =>
    rw [hins] at ih
    exact ((ih hadded).append_left _).trans List.perm_middle

end Entries

namespace Level

/-- A level that stands below a path lists its rows behind it. -/
theorem rowsBelow_eq_map (l : Level ε) (path : List Text) :
    l.rowsBelow path = l.rows.map (Row.below path) := by
  have hentries := l.entries.rows_append path []
  have hotherwise := otherwiseRow_append path [] l.otherwise
  rw [List.append_nil] at hentries hotherwise
  rw [rowsBelow, rows, List.map_append, hentries, hotherwise]

/-- The rows of a category stand together among those of its level. -/
theorem rowsBelow_infix {entries : Entries ε} {token : Text} {child : Level ε}
    (h : (token, .category child) ∈ entries.toList) (path : List Text) :
    child.rowsBelow (path ++ [token]) <:+: entries.rows path := by
  obtain ⟨before, behind, hlist⟩ := List.append_of_mem h
  rw [Entries.rows_eq_flatMap, hlist, List.flatMap_append, List.flatMap_cons]
  exact ⟨_, _, List.append_assoc _ _ _⟩

/-- So do the rows of every level. -/
theorem Has.rowsBelow_infix {l l' : Level ε} {path : List Text} (h : l.Has path l')
    (above : List Text) : l'.rowsBelow (above ++ path) <:+: l.rowsBelow above := by
  induction h generalizing above with
  | here => rw [List.append_nil]
  | @into l child l' token path hentry _ ih =>
    rw [List.append_cons]
    have hcategory : child.rowsBelow (above ++ [token]) <:+: l.rowsBelow above :=
      (Level.rowsBelow_infix hentry above).trans (List.prefix_append _ _).isInfix
    exact (ih (above ++ [token])).trans hcategory

/-- **The rows of the tree** are those that its calls add, in an order of their own. -/
theorem Made.rows_perm {calls : List (TableCall ε)} {l : Level ε} (h : l.Made calls) :
    l.rows.Perm (calls.flatMap TableCall.treeRows) := by
  -- the rows of a further entry come before the one for the rest of the level
  have hentry {calls : List (TableCall ε)} {l : Level ε}
      (ih : l.rows.Perm (calls.flatMap TableCall.treeRows)) (more : List (Row ε)) :
      (l.entries.rows [] ++ more ++ otherwiseRow [] l.otherwise).Perm
        (calls.flatMap TableCall.treeRows ++ more) := by
    rw [List.append_assoc]
    refine (List.perm_append_comm.append_left _).trans ?_
    rw [← List.append_assoc]
    exact ih.append_right more
  induction h with
  | nil => exact .nil
  | event _ _ _ ih =>
    rw [List.flatMap_append, rows, Entries.rows_of_append]
    exact hentry ih _
  | @category calls inner l child token _ _ _ _ ih ihchild =>
    rw [List.flatMap_append, rows, Entries.rows_of_append]
    refine (hentry ih _).trans (.append_left _ ?_)
    have hrows : (Entries.category token child.delimiters child.otherwise child.entries .nil).rows []
        = child.rows.map (Row.below [token]) := by
      rw [← rowsBelow_eq_map]
      exact List.append_nil _
    rw [hrows, List.flatMap_singleton, TableCall.treeRows, LevelCall.rows]
    rw [LevelCall.flatMap_treeRows] at ihchild
    exact ihchild.map _
  | @otherwise calls l event _ hnone ih =>
    rw [rows, hnone, otherwiseRow, List.append_nil] at ih
    rw [List.flatMap_append, List.flatMap_singleton, TableCall.treeRows, LevelCall.rows, rows]
    exact ih.append_right _
  | delimiters _ _ ih =>
    rw [List.flatMap_append, List.flatMap_singleton, TableCall.treeRows, LevelCall.rows,
      List.append_nil]
    exact ih
  | @pattern calls l path token more event trailing _ htokens hadded ih =>
    rw [List.flatMap_append, List.flatMap_singleton, TableCall.treeRows, htokens, rows]
    refine ((Entries.rows_insert_perm hadded).append_right _).trans ?_
    exact (ih.cons _).trans (List.perm_append_singleton _ _).symm
  | bare _ ih =>
    rw [List.flatMap_append, List.flatMap_singleton, TableCall.treeRows, List.append_nil]
    exact ih

/-- **The bare lines** are listed in the order of their calls. -/
theorem BareOf.rows_eq {calls : List (TableCall ε)} {l : Level ε} (h : l.BareOf calls) :
    l.rows = calls.flatMap TableCall.bareRows := by
  rw [rows, h.otherwise_eq, otherwiseRow, List.append_nil, Entries.rows_eq_flatMap, h.toList_eq]
  exact TableCall.flatMap_rows_bareEntry? calls

end Level

namespace EventTable

variable {calls : List (TableCall ε)} {t : EventTable ε}

/-- **The listing loses and invents nothing.** The rows of the tree are those that the calls add to it, in another
order; the bare lines come behind them, in the order of their calls. On every level of the tree the entries follow
each other as the calls have created them, the rows of each standing together, and the event for the rest of the
level is the last one. -/
theorem listing_of_ofCalls (h : ofCalls calls = .ok t) :
    t.listing.Perm (calls.flatMap TableCall.rows)
      ∧ (t.listing.map fun r => (r.text, r.spec)).Perm
          ((calls.flatMap TableCall.rows).map fun r => (List.intercalate [':'] r.path, r.spec))
      ∧ t.listing = t.root.rows ++ calls.flatMap TableCall.bareRows
      ∧ t.root.rows.Perm (calls.flatMap TableCall.treeRows)
      ∧ (∀ path l, t.root.Has path l →
          l.entries.tokens = TableCall.created path calls
            ∧ (l.entries.toList.flatMap fun e => e.2.rows (path ++ [e.1]))
                ++ otherwiseRow path l.otherwise <:+: t.root.rows)
      ∧ t.size = (calls.map TableCall.eventCalls).sum := by
  obtain ⟨hroot, hbare⟩ := made_of_ofCalls h
  have hlisting : t.listing = t.root.rows ++ calls.flatMap TableCall.bareRows := by
    rw [listing, hbare.rows_eq]
  have hperm : t.listing.Perm (calls.flatMap TableCall.rows) := by
    rw [hlisting]
    exact (hroot.rows_perm.append_right _).trans (List.flatMap_append_perm _ _ _)
  refine ⟨hperm, hperm.map _, hlisting, hroot.rows_perm, ?_, ?_⟩
  · intro path l hl
    refine ⟨?_, ?_⟩
    · rw [hl.tokens_eq hroot.proper, hroot.tokensAt_eq_created]
    · rw [← Entries.rows_eq_flatMap]
      exact hl.rowsBelow_infix []
  · rw [size, hperm.length_eq, TableCall.length_flatMap_rows]

/-- A pattern is listed within the category that it leads through, before the entries that come after it. -/
theorem listing_with_patterns :
    let calls : List (TableCall Nat) :=
      [.category "EVT".toList [.event "JOINED".toList 1, .otherwise 2], .event "UP".toList 3,
        .bare "ready".toList 4, .pattern "+EVT:RX,1".toList 5 2, .otherwise 6, .bare "busy".toList 7 1]
    ∃ t, ofCalls calls = .ok t ∧ t.size = 7 ∧ t.listing.Perm (calls.flatMap TableCall.rows)
      ∧ t.listing.map Row.text = ["EVT:JOINED".toList, "EVT:RX:1".toList, "EVT:*".toList, "UP".toList,
          "*".toList, "ready".toList, "busy".toList] := by
  intro calls
  have hbuilt : ∃ t, ofCalls calls = .ok t
      ∧ t.listing.map Row.text = ["EVT:JOINED".toList, "EVT:RX:1".toList, "EVT:*".toList,
          "UP".toList, "*".toList, "ready".toList, "busy".toList] := by
    refine ⟨_, rfl, ?_⟩
    decide +kernel
  obtain ⟨t, ht, htexts⟩ := hbuilt
  obtain ⟨hperm, -, -, -, -, hsize⟩ := listing_of_ofCalls ht
  refine ⟨t, ht, ?_, hperm, htexts⟩
  rw [hsize]
  decide

end EventTable

end ModemLink
