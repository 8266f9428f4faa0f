/-
Event tables: which lines announce which event.

A table is a tree. A level lists entries in order; an entry is an event or a category, and a
category is a level of its own. A line is looked up one token after the other: the first entry of
the level that heads the line is taken, and a category passes on what is left. Where no entry
heads the line, the level's `otherwise` event takes it whole, and without one the line is unknown.

The entries of a level are one inductive type: an entry is followed by the rest of its level, and
a category also holds the level below it. Every walk over the tree is then a structural recursion.
-/
import ModemLink.Error

set_option autoImplicit false

namespace ModemLink

/-! ## Events -/

/-- What an entry stands for: an event, and how many of the following lines belong to it. -/
structure EventSpec (ε : Type) where
  event : ε
  trailing : Nat := 0
deriving DecidableEq, Repr

/-- A line that was looked up: its event, what is left of the line, and how many of the following
lines belong to it. -/
structure EventMatch (ε : Type) where
  event : ε
  args : Text
  trailing : Nat
deriving DecidableEq, Repr

/-- An event as the application receives it. -/
structure Notification (ε : Type) where
  event : ε
  args : Text
deriving DecidableEq, Repr

/-- The match of an entry with what is left of the line. -/
def EventSpec.matched {ε : Type} (s : EventSpec ε) (args : Text) : EventMatch ε :=
  ⟨s.event, args, s.trailing⟩

/-! ## Tokens -/

/-- The delimiters of a level that has none of its own. -/
def defaultDelimiters : List Char := [':', ',', '=', ' ']

/-- Whether a character delimits the tokens of a level with these delimiters of its own. -/
def isDelimiter (own : List Char) (c : Char) : Bool :=
  if own.isEmpty then c ∈ defaultDelimiters else c ∈ own

/-- What is left of a line that a token heads. The token has to be followed by a delimiter or by
the end of the line; the delimiter and the spaces after it are consumed. -/
def headed? (own : List Char) (token text : Text) : Option Text :=
  match Text.after? token text with
  | none => none
  | some [] => some []
  | some (c :: rest) => if isDelimiter own c then some (rest.dropWhile (· == ' ')) else none

/-! ## Levels -/

/-- The entries of a level. -/
inductive Entries (ε : Type) where
  | nil
  | event (token : Text) (spec : EventSpec ε) (rest : Entries ε)
  | category (token : Text) (delimiters : List Char) (otherwise : Option (EventSpec ε))
      (children : Entries ε) (rest : Entries ε)
deriving DecidableEq, Repr

/-- One level of a table. -/
structure Level (ε : Type) where
  /-- the delimiters of this level, none for the default ones -/
  delimiters : List Char := []
  otherwise : Option (EventSpec ε) := none
  entries : Entries ε := .nil
deriving DecidableEq, Repr

/-- A row of a listing: the tokens on the way to an event, and the event. -/
structure Row (ε : Type) where
  path : List Text
  spec : EventSpec ε
deriving DecidableEq, Repr

/-- The tokens of a row joined by colons. -/
def Row.text {ε : Type} (r : Row ε) : Text := List.intercalate [':'] r.path

/-- The row of an `otherwise` event, marked by an asterisk. -/
def otherwiseRow {ε : Type} (path : List Text) : Option (EventSpec ε) → List (Row ε)
  | none => []
  | some spec => [⟨path ++ [['*']], spec⟩]

namespace Entries

variable {ε : Type}

/-- The tokens of one level, in order. -/
def tokens : Entries ε → List Text
  | .nil => []
  | .event t _ rest => t :: rest.tokens
  | .category t _ _ _ rest => t :: rest.tokens

/-- One level after another. -/
def append : Entries ε → Entries ε → Entries ε
  | .nil, more => more
  | .event t s rest, more => .event t s (rest.append more)
  | .category t ds o ch rest, more => .category t ds o ch (rest.append more)

/-- Looks a line up, given the delimiters and the `otherwise` event of the level. -/
def resolve? : Entries ε → List Char → Option (EventSpec ε) → Text → Option (EventMatch ε)
  | .nil, _, otherwise, text => otherwise.map (·.matched text)
  | .event t s rest, own, otherwise, text =>
    match headed? own t text with
    | some args => some (s.matched args)
    | none => rest.resolve? own otherwise text
  | .category t ds o children rest, own, otherwise, text =>
    match headed? own t text with
    | some left => children.resolve? ds o left
    | none => rest.resolve? own otherwise text

/-- The rows of a level and of everything below it, in the order of the lookup. -/
def rows : Entries ε → List Text → List (Row ε)
  | .nil, _ => []
  | .event t s rest, path => ⟨path ++ [t], s⟩ :: rest.rows path
  | .category t _ o children rest, path =>
    children.rows (path ++ [t]) ++ otherwiseRow (path ++ [t]) o ++ rest.rows path

/-- The same tree with other events. -/
def map {δ : Type} (f : ε → δ) : Entries ε → Entries δ
  | .nil => .nil
  | .event t s rest => .event t ⟨f s.event, s.trailing⟩ (rest.map f)
  | .category t ds o children rest =>
    .category t ds (o.map fun s => ⟨f s.event, s.trailing⟩) (children.map f) (rest.map f)

end Entries

namespace Level

variable {ε : Type}

/-- Looks a line up. -/
def resolve? (l : Level ε) (text : Text) : Option (EventMatch ε) :=
  l.entries.resolve? l.delimiters l.otherwise text

/-- The rows of the level, its `otherwise` event last. -/
def rows (l : Level ε) : List (Row ε) := l.entries.rows [] ++ otherwiseRow [] l.otherwise

/-- The same level with other events. -/
def map {δ : Type} (f : ε → δ) (l : Level ε) : Level δ :=
  ⟨l.delimiters, l.otherwise.map fun s => ⟨f s.event, s.trailing⟩, l.entries.map f⟩

end Level

/-! ## Tables -/

/-- An event table: the lines with a sentinel, and the bare lines without one. -/
structure EventTable (ε : Type) where
  root : Level ε := {}
  bare : Level ε := {}
deriving DecidableEq, Repr

namespace EventTable

variable {ε : Type}

/-- The table that knows no event. -/
def empty : EventTable ε := {}

/-- Looks up the text of a line with a sentinel, the sentinel removed. -/
def resolve (t : EventTable ε) (text : Text) : Except Error (EventMatch ε) :=
  match t.root.resolve? text with
  | some m => .ok m
  | none => .error (.unknownEvent text)

/-- Looks up a line without a sentinel. -/
def resolveBare (t : EventTable ε) (line : Text) : Except Error (EventMatch ε) :=
  match t.bare.resolve? line with
  | some m => .ok m
  | none => .error (.unknownEvent line)

/-- Every event of the table, in the order of the lookup, bare lines last. -/
def listing (t : EventTable ε) : List (Row ε) := t.root.rows ++ t.bare.rows

/-- How many events the table lists. -/
def size (t : EventTable ε) : Nat := t.listing.length

/-- The same table with other events. -/
def map {δ : Type} (f : ε → δ) (t : EventTable ε) : EventTable δ := ⟨t.root.map f, t.bare.map f⟩

end EventTable

end ModemLink
