/-
Rows that nothing hides.

A level takes the first of its entries that heads a text, so an entry may hide another one that stands
behind it. Whether it does seems to depend on the text. It does not where the path of the row is written
with colons and no token has a colon in it: then a token heads the text exactly if it heads the token
that is written there, and the arguments, however they go on, come too late to matter.

`Level.isClear` is the check that this leads to. It looks at the tokens of the tree only, and
`Level.resolve?_of_isClear` says that it settles the lookup of every row with all its arguments.
-/
import ModemLink.Proofs.Event.WordTree

set_option autoImplicit false

namespace ModemLink

variable {ε : Type}

/-! ## Paths written with colons -/

/-- A row of an event. The others stand for what no entry heads. -/
def Row.IsNamed (r : Row ε) : Prop := r.path.getLast? ≠ some ['*']

instance (r : Row ε) : Decidable r.IsNamed :=
  inferInstanceAs (Decidable (r.path.getLast? ≠ some ['*']))

/-- With more tokens in front, a row is that of an event as before. -/
theorem Row.IsNamed.of_below {above : List Text} {r : Row ε} (h : (r.below above).IsNamed) :
    r.IsNamed := by
  intro hlast
  apply h
  show (above ++ r.path).getLast? = some ['*']
  rw [List.getLast?_append, hlast, Option.some_or]

/-- The named rows of a level are those of its entries. -/
theorem Level.mem_rows_of_isNamed {l : Level ε} {row : Row ε} (h : row ∈ l.rows)
    (hnamed : row.IsNamed) : row ∈ l.entries.rows [] := by
  rcases List.mem_append.mp h with h | h
  · exact h
  · cases hotherwise : l.otherwise with
    | none =>
      rw [hotherwise] at h
      cases h
    | some spec =>
      rw [hotherwise] at h
      rw [List.mem_singleton.mp h] at hnamed
      exact absurd rfl hnamed

/-- A row begins with its first token, and a colon stands behind it. -/
theorem Row.text_append (token : Text) (more : List Text) (spec : EventSpec ε) (args : Text) :
    Row.text ⟨token :: more, spec⟩ ++ ':' :: args
      = token ++ ':' :: if more = [] then args else Row.text ⟨more, spec⟩ ++ ':' :: args := by
  cases more with
  | nil =>
    rw [if_pos rfl]
    show List.intercalate [':'] [token] ++ ':' :: args = _
    rw [List.intercalate_singleton]
  | cons next more =>
    rw [if_neg (List.cons_ne_nil next more)]
    show List.intercalate [':'] (token :: next :: more) ++ ':' :: args = _
    rw [List.intercalate_cons_cons, List.append_assoc, List.append_assoc]
    rfl

/-- A token heads a text if nothing but a delimiter follows it directly. -/
theorem exists_heads_iff {own : List Char} {token text : Text} :
    (∃ left, Heads own token text left)
      ↔ ∃ behind, text = token ++ behind
          ∧ ∀ c, behind.head? = some c → isDelimiter own c = true := by
  constructor
  · rintro ⟨left, hheads⟩
    cases hheads with
    | ended => exact ⟨[], (List.append_nil token).symm, fun c hc => by cases hc⟩
    | delimited d spaces left hd =>
      exact ⟨_, rfl, fun c hc => Option.some.inj hc ▸ hd⟩
  · rintro ⟨behind, rfl, hbehind⟩
    cases behind with
    | nil =>
      rw [List.append_nil]
      exact ⟨[], .ended⟩
    | cons c behind => exact ⟨_, heads_dropWhile token (hbehind c rfl) behind⟩

/-- **What is written before a colon decides.** A token without a colon that heads a text heads what
is written before the first colon. -/
theorem exists_heads_of_colon {own : List Char} {token written behind : Text}
    (htoken : ':' ∉ token) (h : ∃ left, Heads own token (written ++ ':' :: behind) left) :
    ∃ left, Heads own token written left := by
  rw [exists_heads_iff] at h ⊢
  obtain ⟨after, htext, hafter⟩ := h
  rcases List.append_eq_append_iff.mp htext with ⟨more, rfl, hmore⟩ | ⟨more, rfl, rfl⟩
  · -- the token would go on behind the colon
    cases more with
    | nil => exact ⟨[], by rw [List.append_nil, List.append_nil], fun c hc => by cases hc⟩
    | cons c more =>
      obtain ⟨rfl, -⟩ := List.cons.inj hmore
      exact absurd (List.mem_append_right written List.mem_cons_self) htoken
  · refine ⟨more, rfl, fun c hc => hafter c ?_⟩
    rw [List.head?_append, hc, Option.some_or]

/-- A token before a colon leaves what stands behind it. -/
theorem headed?_colon {own : List Char} (hcolon : isDelimiter own ':' = true) (token : Text)
    {behind : Text} (hbehind : behind.head? ≠ some ' ') :
    headed? own token (token ++ ':' :: behind) = some behind := by
  rw [headed?_eq_some_iff]
  exact .delimited ':' [] behind hcolon (fun s hs => absurd hs List.not_mem_nil) hbehind

/-! ## Clear levels -/

/-- Whether an entry with this token leaves later ones alone. -/
def Entries.isAside (own : List Char) (token : Text) (later : Entries ε) : Bool :=
  !token.contains ':' && later.tokens.all fun other => (headed? own token other).isNone

/-- **The check of a level.** No token has a colon in it or heads a later one, a colon delimits the
tokens, and below a category no token begins with a space, which would go with the colon. -/
def Entries.isClear (own : List Char) : Entries ε → Bool
  | .nil => true
  | .event t _ rest => rest.isAside own t && rest.isClear own
  | .category t ds _ children rest =>
    rest.isAside own t && (isDelimiter ds ':' && children.tokens.all (fun c => c.head? != some ' ')
      && children.isClear ds) && rest.isClear own

/-- The check of a level with delimiters of its own. -/
def Level.isClear (l : Level ε) : Bool :=
  isDelimiter l.delimiters ':' && l.entries.isClear l.delimiters

namespace Entries

theorem mem_rows_category_iff {t : Text} {ds : List Char} {o : Option (EventSpec ε)}
    {children rest : Entries ε} {row : Row ε} :
    row ∈ (Entries.category t ds o children rest).rows []
      ↔ (∃ inner ∈ (Level.mk ds o children).rows, inner.below [t] = row) ∨ row ∈ rest.rows [] := by
  have hchildren : children.rows [t] ++ otherwiseRow [t] o
      = (Level.mk ds o children).rows.map (Row.below [t]) := by
    unfold Level.rows
    rw [List.map_append, ← rows_append, ← otherwiseRow_append, List.append_nil]
  show row ∈ children.rows [t] ++ otherwiseRow [t] o ++ rest.rows [] ↔ _
  rw [hchildren, List.mem_append, List.mem_map]

/-- A row begins with a token of its level. -/
theorem exists_token {entries : Entries ε} {row : Row ε} (h : row ∈ entries.rows []) :
    ∃ token ∈ entries.tokens, ∃ more, row.path = token :: more := by
  induction entries with
  | nil => cases h
  | event t s rest ih =>
    rcases mem_rows_event.mp h with rfl | h
    · exact ⟨t, List.mem_cons_self, [], rfl⟩
    · obtain ⟨token, htoken, hpath⟩ := ih h
      exact ⟨token, List.mem_cons_of_mem t htoken, hpath⟩
  | category t ds o children rest _ ih =>
    rcases mem_rows_category_iff.mp h with ⟨inner, -, rfl⟩ | h
    · exact ⟨t, List.mem_cons_self, inner.path, rfl⟩
    · obtain ⟨token, htoken, hpath⟩ := ih h
      exact ⟨token, List.mem_cons_of_mem t htoken, hpath⟩

/-- An entry that stands aside heads no text that a later row begins. -/
theorem headed?_of_isAside {own : List Char} {token : Text} {later : Entries ε}
    (haside : later.isAside own token = true) {row : Row ε} (hrow : row ∈ later.rows [])
    (args : Text) : headed? own token (row.text ++ ':' :: args) = none := by
  unfold isAside at haside
  rw [Bool.and_eq_true, Bool.not_eq_true', List.all_eq_true] at haside
  obtain ⟨hcolon, hall⟩ := haside
  obtain ⟨written, hwritten, more, hpath⟩ := exists_token hrow
  obtain ⟨path, spec⟩ := row
  obtain rfl : path = written :: more := hpath
  have hnone := Option.isNone_iff_eq_none.mp (hall written hwritten)
  have hmem : ':' ∉ token := by
    intro hmem
    rw [List.contains_iff_mem.mpr hmem] at hcolon
    cases hcolon
  rw [Row.text_append]
  rw [headed?_eq_none_iff, ← not_exists] at hnone ⊢
  exact fun h => hnone (exists_heads_of_colon hmem h)

/-- **A clear level finds every row,** whatever its arguments. -/
theorem resolve?_of_isClear {entries : Entries ε} {own : List Char}
    (hcolon : isDelimiter own ':' = true) (hclear : entries.isClear own = true)
    (otherwise : Option (EventSpec ε)) {row : Row ε} (hrow : row ∈ entries.rows [])
    (hnamed : row.IsNamed) {args : Text} (hargs : args.head? ≠ some ' ') :
    entries.resolve? own otherwise (row.text ++ ':' :: args) = some (row.spec.matched args) := by
  induction entries generalizing own otherwise row with
  | nil => cases hrow
  | event t s rest ih =>
    unfold isClear at hclear
    rw [Bool.and_eq_true] at hclear
    obtain ⟨haside, hrest⟩ := hclear
    unfold resolve?
    rcases mem_rows_event.mp hrow with rfl | hrow
    · rw [Row.text_append, if_pos rfl, headed?_colon hcolon t hargs]
    · rw [headed?_of_isAside haside hrow args]
      exact ih hcolon hrest otherwise hrow hnamed
  | category t ds o children rest ihchildren ih =>
    unfold isClear at hclear
    rw [Bool.and_eq_true, Bool.and_eq_true, Bool.and_eq_true, Bool.and_eq_true] at hclear
    obtain ⟨⟨haside, ⟨hds, hspaces⟩, hchildren⟩, hrest⟩ := hclear
    unfold resolve?
    rcases mem_rows_category_iff.mp hrow with ⟨inner, hinner, rfl⟩ | hrow
    · have hinner := Level.mem_rows_of_isNamed hinner hnamed.of_below
      obtain ⟨token, htoken, more, hpath⟩ := exists_token hinner
      have hfound := ihchildren hds hchildren o hinner hnamed.of_below
      -- what is left for the category begins with one of its tokens, so no space goes with the colon
      have hhead : (inner.text ++ ':' :: args).head? ≠ some ' ' := by
        obtain ⟨path, spec⟩ := inner
        obtain rfl : path = token :: more := hpath
        rw [Row.text_append]
        have hfirst := List.all_eq_true.mp hspaces token htoken
        cases token with
        | nil => exact fun h => by cases h
        | cons c token => exact bne_iff_ne.mp hfirst
      have hne : inner.path ≠ [] := by
        rw [hpath]
        exact List.cons_ne_nil token more
      have hself : headed? own t ((inner.below [t]).text ++ ':' :: args)
          = some (inner.text ++ ':' :: args) := by
        show headed? own t (Row.text ⟨t :: inner.path, inner.spec⟩ ++ ':' :: args) = _
        rw [Row.text_append, if_neg hne, headed?_colon hcolon t hhead]
      rw [hself]
      exact hfound
    · rw [headed?_of_isAside haside hrow args]
      exact ih hcolon hrest otherwise hrow hnamed

end Entries

/-- The same for a level with what it says of the rest. -/
theorem Level.resolve?_of_isClear {l : Level ε} (hclear : l.isClear = true) {row : Row ε}
    (hrow : row ∈ l.rows) (hnamed : row.IsNamed) {args : Text} (hargs : args.head? ≠ some ' ') :
    l.resolve? (row.text ++ ':' :: args) = some (row.spec.matched args) := by
  unfold isClear at hclear
  rw [Bool.and_eq_true] at hclear
  obtain ⟨hcolon, hentries⟩ := hclear
  exact Entries.resolve?_of_isClear hcolon hentries l.otherwise (l.mem_rows_of_isNamed hrow hnamed)
    hnamed hargs

end ModemLink
