/-
Tables made of patterns.

A table that only patterns are added to is a tree of words whose rows are the patterns. Whether it is
built, and what it answers, can therefore be said about the patterns alone, whatever their order.
-/
import ModemLink.Proofs.Event.WordTree

set_option autoImplicit false

namespace ModemLink

variable {ε : Type}

/-! ## Adding patterns -/

/-- A pattern and what it announces. -/
structure Pattern (ε : Type) where
  path : Text
  spec : EventSpec ε
deriving DecidableEq, Repr

namespace Pattern

/-- The call that adds the pattern to a table. -/
def call (p : Pattern ε) : TableCall ε := .pattern p.path p.spec.event p.spec.trailing

/-- The words of the pattern. -/
def tokens (p : Pattern ε) : List Text := patternTokens p.path

/-- The row of the pattern. -/
def row (p : Pattern ε) : Row ε := ⟨p.tokens, p.spec⟩

/-- **Patterns that go together:** each has a word, and no two of them clash. -/
def Fit (ps : List (Pattern ε)) : Prop :=
  (∀ p ∈ ps, p.tokens ≠ []) ∧ ps.Pairwise fun p q => ¬ Clash p.tokens q.tokens

theorem fit_nil : Fit ([] : List (Pattern ε)) :=
  ⟨fun _ hp => absurd hp List.not_mem_nil, .nil⟩

theorem Fit.left {ps more : List (Pattern ε)} (h : Fit (ps ++ more)) : Fit ps :=
  ⟨fun p hp => h.1 p (List.mem_append_left more hp), (List.pairwise_append.mp h.2).1⟩

theorem fit_concat_iff {ps : List (Pattern ε)} {p : Pattern ε} :
    Fit (ps ++ [p]) ↔ Fit ps ∧ p.tokens ≠ [] ∧ ∀ q ∈ ps, ¬ Clash q.tokens p.tokens := by
  unfold Fit
  simp only [List.pairwise_append, List.mem_append, List.mem_singleton, List.pairwise_singleton,
    true_and, forall_eq, or_imp, forall_and]
  constructor
  · rintro ⟨⟨hps, hp⟩, hpairs, hfree⟩
    exact ⟨⟨hps, hpairs⟩, hp, hfree⟩
  · rintro ⟨⟨hps, hpairs⟩, hp, hfree⟩
    exact ⟨⟨hps, hp⟩, hpairs, hfree⟩

/-- The order does not matter. -/
theorem fit_perm {ps qs : List (Pattern ε)} (h : qs.Perm ps) : Fit qs ↔ Fit ps := by
  unfold Fit
  refine and_congr (forall_congr' fun p => imp_congr_left h.mem_iff) ?_
  exact h.pairwise_iff fun hfree hclash => hfree hclash.symm

end Pattern

/-- **A draft lists patterns:** no call has failed, and its tree of words has the rows of these
patterns and no others. -/
structure Draft.Lists (d : Draft ε) (ps : List (Pattern ε)) : Prop where
  fault_eq : d.fault = none
  delimiters_eq : d.level.delimiters = []
  otherwise_eq : d.level.otherwise = none
  plain : d.level.entries.Plain
  mem_rows (row : Row ε) : row ∈ d.level.entries.rows [] ↔ ∃ p ∈ ps, row = p.row

theorem Draft.lists_nil : ({} : Draft ε).Lists [] where
  fault_eq := rfl
  delimiters_eq := rfl
  otherwise_eq := rfl
  plain := .nil
  mem_rows _ := iff_of_false List.not_mem_nil fun ⟨_, hp, _⟩ => List.not_mem_nil hp

/-- **The first fault is kept.** -/
theorem Draft.fail_fault {d : Draft ε} {f : TableFault} (h : d.fault = some f) (g : TableFault) :
    (d.fail g).fault = some f := by
  unfold fail
  rw [h]
  rfl

theorem Draft.fail_fault_of_none {d : Draft ε} (h : d.fault = none) (f : TableFault) :
    (d.fail f).fault = some f := by
  unfold fail
  rw [h]
  rfl

theorem Draft.fault_fail (f : TableFault) (d : Draft ε) : (d.fail f).fault ≠ none := by
  cases hd : d.fault with
  | none =>
    rw [fail_fault_of_none hd]
    exact Option.some_ne_none f
  | some g =>
    rw [fail_fault hd]
    exact Option.some_ne_none g

namespace TableDraft

theorem addPattern_fault {d : Draft ε} {f : TableFault} (h : d.fault = some f) (path : Text)
    (spec : EventSpec ε) : (addPattern path spec d).fault = some f := by
  unfold addPattern
  split
  · exact Draft.fail_fault h _
  · next token more _ =>
    simp only
    split
    · exact h
    · exact Draft.fail_fault (by exact h) _
    · exact Draft.fail_fault (by exact h) _

/-- Once a call has failed, the table will not be built. -/
theorem addPattern_of_fault {d : Draft ε} (p : Pattern ε) (hd : d.fault ≠ none) :
    (addPattern p.path p.spec d).fault ≠ none := by
  obtain ⟨f, hf⟩ := Option.ne_none_iff_exists'.mp hd
  rw [addPattern_fault hf]
  exact Option.some_ne_none f

theorem addPattern_of_added {d : Draft ε} {p : Pattern ε} {token : Text} {more : List Text}
    (htokens : p.tokens = token :: more)
    (hadded : (d.level.entries.insert p.spec token more).2 = none) :
    addPattern p.path p.spec d
      = { d with level :=
          { d.level with entries := (d.level.entries.insert p.spec token more).1 } } := by
  have hpath : patternTokens p.path = token :: more := htokens
  unfold addPattern
  rw [hpath]
  simp only [hadded]

theorem addPattern_of_refused {d : Draft ε} {p : Pattern ε} {token : Text} {more : List Text}
    (htokens : p.tokens = token :: more)
    (hrefused : (d.level.entries.insert p.spec token more).2 ≠ none) :
    (addPattern p.path p.spec d).fault ≠ none := by
  have hpath : patternTokens p.path = token :: more := htokens
  unfold addPattern
  rw [hpath]
  simp only
  split
  · next hnone => exact absurd hnone hrefused
  · exact Draft.fault_fail _ _
  · exact Draft.fault_fail _ _

end TableDraft

namespace Draft.Lists

variable {d : Draft ε} {ps : List (Pattern ε)}

/-- Adding a path fails exactly if it clashes with one of the patterns so far. -/
theorem insert_fault_iff (h : d.Lists ps) {spec : EventSpec ε} (token : Text) (more : List Text) :
    (d.level.entries.insert spec token more).2 = none
      ↔ ∀ q ∈ ps, ¬ Clash q.tokens (token :: more) := by
  rw [h.plain.insert_fault_iff]
  constructor
  · intro hfree q hq
    exact hfree q.row ((h.mem_rows q.row).mpr ⟨q, hq, rfl⟩)
  · intro hfree row hrow
    obtain ⟨q, hq, rfl⟩ := (h.mem_rows row).mp hrow
    exact hfree q hq

/-- **A pattern is added** if it has a word and clashes with none of those before. -/
theorem added (h : d.Lists ps) {p : Pattern ε} (hne : p.tokens ≠ [])
    (hfree : ∀ q ∈ ps, ¬ Clash q.tokens p.tokens) :
    (TableDraft.addPattern p.path p.spec d).Lists (ps ++ [p]) := by
  obtain ⟨token, more, htokens⟩ := List.exists_cons_of_ne_nil hne
  have hadded : (d.level.entries.insert p.spec token more).2 = none := by
    rw [h.insert_fault_iff, ← htokens]
    exact hfree
  have hwords : ∀ w ∈ token :: more, IsWord w := by
    rw [← htokens]
    exact fun w hw => isWord_of_mem_patternTokens hw
  rw [TableDraft.addPattern_of_added htokens hadded]
  refine ⟨h.fault_eq, h.delimiters_eq, h.otherwise_eq, h.plain.insert hwords, ?_⟩
  intro row
  have hrow : (⟨token :: more, p.spec⟩ : Row ε) = p.row := by
    rw [Pattern.row, htokens]
  rw [h.plain.mem_rows_insert hadded, h.mem_rows, hrow]
  simp only [List.mem_append, List.mem_singleton, or_and_right, exists_or, exists_eq_left]

/-- Otherwise it is a fault. -/
theorem refused (h : d.Lists ps) {p : Pattern ε}
    (hnot : ¬ (p.tokens ≠ [] ∧ ∀ q ∈ ps, ¬ Clash q.tokens p.tokens)) :
    (TableDraft.addPattern p.path p.spec d).fault ≠ none := by
  cases htokens : p.tokens with
  | nil =>
    have hpath : patternTokens p.path = [] := htokens
    unfold TableDraft.addPattern
    rw [hpath]
    exact fault_fail _ d
  | cons token more =>
    apply TableDraft.addPattern_of_refused htokens
    intro hadded
    rw [h.insert_fault_iff, ← htokens] at hadded
    refine hnot ⟨?_, hadded⟩
    rw [htokens]
    exact List.cons_ne_nil token more

end Draft.Lists

namespace TableDraft

/-- Patterns in a row. -/
def addPatterns (ps : List (Pattern ε)) (d : Draft ε) : Draft ε :=
  ps.foldl (fun d p => addPattern p.path p.spec d) d

theorem addPatterns_of_fault (ps : List (Pattern ε)) {d : Draft ε} (hd : d.fault ≠ none) :
    (addPatterns ps d).fault ≠ none := by
  induction ps generalizing d with
  | nil => exact hd
  | cons p ps ih => exact ih (addPattern_of_fault p hd)

/-- **Patterns in a row** are all added exactly if they go together, and with those that were there
before. The induction is on the patterns still to come. -/
theorem addPatterns_lists {d : Draft ε} {listed : List (Pattern ε)} (h : d.Lists listed)
    (hlisted : Pattern.Fit listed) (ps : List (Pattern ε)) :
    ((addPatterns ps d).fault = none ↔ Pattern.Fit (listed ++ ps))
      ∧ (Pattern.Fit (listed ++ ps) → (addPatterns ps d).Lists (listed ++ ps)) := by
  induction ps generalizing d listed with
  | nil =>
    rw [List.append_nil]
    exact ⟨iff_of_true h.fault_eq hlisted, fun _ => h⟩
  | cons p ps ih =>
    rw [List.append_cons]
    by_cases hfits : p.tokens ≠ [] ∧ ∀ q ∈ listed, ¬ Clash q.tokens p.tokens
    -- either it is one more that is listed, or it spoils everything that comes after it
    · exact ih (h.added hfits.1 hfits.2) (Pattern.fit_concat_iff.mpr ⟨hlisted, hfits⟩)
    · have hnot : ¬ Pattern.Fit (listed ++ [p] ++ ps) := fun hfit =>
        hfits (Pattern.fit_concat_iff.mp hfit.left).2
      exact ⟨iff_of_false (addPatterns_of_fault ps (h.refused hfits)) hnot,
        fun hfit => absurd hfit hnot⟩

theorem build_eq_ok_iff (d : TableDraft ε) (t : EventTable ε) :
    d.build = .ok t
      ↔ d.bare.fault = none ∧ d.root.fault = none ∧ ⟨d.root.level, d.bare.level⟩ = t := by
  unfold build
  cases d.bare.fault with
  | some f => simp
  | none => cases d.root.fault <;> simp

/-- Calls that add patterns touch nothing but the tree. -/
theorem applyAll_patterns (ps : List (Pattern ε)) (d : TableDraft ε) :
    applyAll (ps.map Pattern.call) d = { d with root := addPatterns ps d.root } := by
  induction ps generalizing d with
  | nil => rfl
  | cons p ps ih => exact ih (apply p.call d)

end TableDraft

namespace EventTable

theorem ofCalls_patterns_eq_ok_iff (ps : List (Pattern ε)) (t : EventTable ε) :
    ofCalls (ps.map Pattern.call) = .ok t
      ↔ (TableDraft.addPatterns ps {}).fault = none
        ∧ ⟨(TableDraft.addPatterns ps {}).level, {}⟩ = t := by
  unfold ofCalls
  rw [TableDraft.applyAll_patterns, TableDraft.build_eq_ok_iff]
  exact and_iff_right rfl

/-- **A table of patterns** is built exactly if the patterns go together. -/
theorem exists_ofCalls_patterns_iff (ps : List (Pattern ε)) :
    (∃ t, ofCalls (ps.map Pattern.call) = .ok t) ↔ Pattern.Fit ps := by
  have hfault := (TableDraft.addPatterns_lists Draft.lists_nil Pattern.fit_nil ps).1
  rw [List.nil_append] at hfault
  rw [← hfault]
  simp only [ofCalls_patterns_eq_ok_iff, exists_and_left, exists_eq', and_true]

/-- **It knows its patterns,** and nothing else. -/
theorem resolve_patterns_iff {ps : List (Pattern ε)} {t : EventTable ε}
    (h : ofCalls (ps.map Pattern.call) = .ok t) (text : Text) (m : EventMatch ε) :
    t.resolve text = .ok m
      ↔ ∃ p ∈ ps, Spells text p.tokens m.args ∧ p.spec.matched m.args = m := by
  obtain ⟨hfault, rfl⟩ := (ofCalls_patterns_eq_ok_iff ps t).mp h
  obtain ⟨hfit, hlists⟩ := TableDraft.addPatterns_lists Draft.lists_nil Pattern.fit_nil ps
  have hd := hlists (hfit.mp hfault)
  have hresolve : (⟨(TableDraft.addPatterns ps {}).level, {}⟩ : EventTable ε).root.resolve? text
      = (TableDraft.addPatterns ps {}).level.entries.resolve? [] none text := by
    unfold Level.resolve?
    rw [hd.delimiters_eq, hd.otherwise_eq]
  rw [resolve_eq_ok_iff, hresolve, hd.plain.resolve?_eq_some_iff]
  constructor
  · rintro ⟨row, hrow, hspells, hm⟩
    obtain ⟨p, hp, rfl⟩ := (hd.mem_rows row).mp hrow
    exact ⟨p, hp, hspells, hm⟩
  · rintro ⟨p, hp, hspells, hm⟩
    exact ⟨p.row, (hd.mem_rows p.row).mpr ⟨p, hp, rfl⟩, hspells, hm⟩

/-- Two tables that know the same texts say the same of every text. -/
theorem resolve_congr {t u : EventTable ε}
    (h : ∀ text m, t.resolve text = .ok m ↔ u.resolve text = .ok m) (text : Text) :
    t.resolve text = u.resolve text := by
  simp only [resolve_eq_ok_iff] at h
  have hroot : t.root.resolve? text = u.root.resolve? text := Option.ext (h text)
  unfold resolve
  rw [hroot]

/-- **Tables of patterns.** In whatever order the patterns are added, a table is built exactly if
each of them has a word and no two of them clash.

* In whatever order they have been added, the tables answer every text alike.
* A text is answered by the pattern that it spells out, with the arguments behind it; a text that
  spells out none of the patterns is unknown. -/
theorem pattern_tables_exact (ps : List (Pattern ε)) :
    (∀ qs : List (Pattern ε), qs.Perm ps →
        ((∃ t, ofCalls (qs.map Pattern.call) = .ok t)
          ↔ (∀ p ∈ ps, p.tokens ≠ [])
            ∧ ps.Pairwise fun p q => ¬ p.tokens <+: q.tokens ∧ ¬ q.tokens <+: p.tokens))
      ∧ ∀ t, ofCalls (ps.map Pattern.call) = .ok t →
          (∀ qs : List (Pattern ε), qs.Perm ps → ∃ u, ofCalls (qs.map Pattern.call) = .ok u
            ∧ ∀ text, u.resolve text = t.resolve text)
          ∧ (∀ p ∈ ps, ∀ text args, Spells text p.tokens args →
              t.resolve text = .ok ⟨p.spec.event, args, p.spec.trailing⟩)
          ∧ ∀ text, (∀ p ∈ ps, ∀ args, ¬ Spells text p.tokens args) →
              t.resolve text = .error (.unknownEvent text) := by
  have hfit : Pattern.Fit ps ↔ (∀ p ∈ ps, p.tokens ≠ [])
      ∧ ps.Pairwise fun p q => ¬ p.tokens <+: q.tokens ∧ ¬ q.tokens <+: p.tokens := by
    simp only [Pattern.Fit, Clash, not_or]
  refine ⟨fun qs hperm => ?_, fun t ht => ⟨fun qs hperm => ?_, ?_, ?_⟩⟩
  · rw [exists_ofCalls_patterns_iff, Pattern.fit_perm hperm, hfit]
  · have hps := (exists_ofCalls_patterns_iff ps).mp ⟨t, ht⟩
    obtain ⟨u, hu⟩ := (exists_ofCalls_patterns_iff qs).mpr ((Pattern.fit_perm hperm).mpr hps)
    refine ⟨u, hu, resolve_congr fun text m => ?_⟩
    rw [resolve_patterns_iff hu, resolve_patterns_iff ht]
    exact exists_congr fun p => and_congr_left' hperm.mem_iff
  · intro p hp text args hspells
    exact (resolve_patterns_iff ht text _).mpr ⟨p, hp, hspells, rfl⟩
  · intro text hnone
    cases hresolve : t.resolve text with
    | ok m =>
      obtain ⟨p, hp, hspells, -⟩ := (resolve_patterns_iff ht text m).mp hresolve
      exact absurd hspells (hnone p hp m.args)
    | error err => rw [((t.resolve_eq_error_iff text err).mp hresolve).1]

/-- Two patterns that share a category, in one order and in the other. -/
theorem pattern_tables_exact_shared :
    ∃ t u : EventTable Nat,
      ofCalls [.pattern "+A,1".toList 1, .pattern "+A,2".toList 2 1] = .ok t
        ∧ ofCalls [.pattern "+A,2".toList 2 1, .pattern "+A,1".toList 1] = .ok u
        ∧ u.resolve "A: 2,x".toList = .ok ⟨2, ['x'], 1⟩
        ∧ u.resolve ['B'] = .error (.unknownEvent ['B']) := by
  obtain ⟨hbuilt, hexact⟩ :=
    pattern_tables_exact [(⟨"+A,1".toList, ⟨1, 0⟩⟩ : Pattern Nat), ⟨"+A,2".toList, ⟨2, 1⟩⟩]
  obtain ⟨t, ht⟩ := (hbuilt _ (.refl _)).mpr (by decide)
  obtain ⟨hsame, hspelled, hunknown⟩ := hexact t ht
  obtain ⟨u, hu, halike⟩ := hsame [⟨"+A,2".toList, ⟨2, 1⟩⟩, ⟨"+A,1".toList, ⟨1, 0⟩⟩] (.swap _ _ _)
  refine ⟨t, u, ht, hu, ?_, ?_⟩
  · have hspells : Spells (['A'] ++ ':' :: (List.replicate 1 ' ' ++ (['2'] ++ ',' :: ['x'])))
        [['A'], ['2']] ['x'] := .step ':' 1 rfl (.followed ['2'] ',' ['x'] rfl)
    rw [halike]
    exact hspelled ⟨"+A,2".toList, ⟨2, 1⟩⟩ (by decide) _ _ hspells
  · rw [halike]
    apply hunknown
    intro p hp args hspells
    have htokens : ∃ more, p.tokens = ['A'] :: more := by
      rcases List.mem_cons.mp hp with rfl | hp
      · exact ⟨[['1']], rfl⟩
      · obtain rfl := List.mem_singleton.mp hp
        exact ⟨[['2']], rfl⟩
    obtain ⟨more, htokens⟩ := htokens
    have hword : ['A'] ∈ p.tokens := by
      rw [htokens]
      exact List.mem_cons_self
    rw [htokens] at hspells
    have hhead := hspells.head?_eq (isWord_of_mem_patternTokens hword)
    cases hhead

end EventTable

end ModemLink
