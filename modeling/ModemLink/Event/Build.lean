/-
How an event table is put together.

A table is described by a list of calls, each of which adds something to the level it stands in.
A call that cannot be carried out leaves the level as it is and is remembered; a table is built
only if there was no such call.
-/
import ModemLink.Event.Table
import ModemLink.Text.Quoted

set_option autoImplicit false

namespace ModemLink

/-! ## Faults -/

/-- Why a call cannot be carried out. -/
inductive TableFault where
  | tokenEmpty
  | tokenTwice (token : Text)
  | delimitersEmpty
  | otherwiseTwice
  | patternEmpty (pattern : Text)
  | patternThroughEvent (pattern token : Text)
  | patternTwice (pattern : Text)
  | bareEmpty
  | bareTwice (text : Text)
deriving DecidableEq, Repr

/-- The wording of each fault. -/
def TableFault.message : TableFault → Text
  | .tokenEmpty => "event token must not be empty"
  | .tokenTwice token => "duplicate event token ".toList ++ Text.quoted token
  | .delimitersEmpty => "delimiter set must not be empty"
  | .otherwiseTwice => "otherwise entry set twice"
  | .patternEmpty pattern => "pattern ".toList ++ Text.quoted pattern ++ " has no tokens".toList
  | .patternThroughEvent pattern token =>
    "pattern ".toList ++ Text.quoted pattern ++ " passes through event ".toList
      ++ Text.quoted token
  | .patternTwice pattern => "duplicate event pattern ".toList ++ Text.quoted pattern
  | .bareEmpty => "bare event text must not be empty"
  | .bareTwice text => "duplicate bare event ".toList ++ Text.quoted text

/-- A faulty table is an unusable parameter. -/
def TableFault.toError (f : TableFault) : Error := .invalidParameter f.message

/-! ## Calls -/

/-- What can be asked of any level. -/
inductive LevelCall (ε : Type) where
  /-- add an event; the following `trailing` lines belong to it -/
  | event (token : Text) (event : ε) (trailing : Nat := 0)
  /-- add a category with what its own calls put into it -/
  | category (token : Text) (calls : List (LevelCall ε))
  /-- set the event that takes what no entry heads -/
  | otherwise (event : ε)
  /-- restrict the level to these delimiters -/
  | delimiters (chars : List Char)

/-- What can be asked of a table. -/
inductive TableCall (ε : Type) where
  /-- a call on the top level -/
  | level (call : LevelCall ε)
  /-- add an event at the end of a path of tokens, with the categories on the way -/
  | pattern (path : Text) (event : ε) (trailing : Nat := 0)
  /-- add a line without a sentinel -/
  | bare (text : Text) (event : ε) (trailing : Nat := 0)

namespace TableCall

variable {ε : Type}

/-- An event on the top level. -/
def event (token : Text) (event : ε) (trailing : Nat := 0) : TableCall ε :=
  .level (.event token event trailing)

/-- A category on the top level. -/
def category (token : Text) (calls : List (LevelCall ε)) : TableCall ε :=
  .level (.category token calls)

/-- The event that takes what no entry of the top level heads. -/
def otherwise (event : ε) : TableCall ε := .level (.otherwise event)

/-- The delimiters of the top level. -/
def delimiters (chars : List Char) : TableCall ε := .level (.delimiters chars)

end TableCall

/-! ## One level -/

/-- A level being put together, and the first fault so far. -/
structure Draft (ε : Type) where
  level : Level ε := {}
  fault : Option TableFault := none
deriving DecidableEq, Repr

namespace Draft

variable {ε : Type}

/-- Remembers a fault, unless there is an earlier one. -/
def fail (f : TableFault) (d : Draft ε) : Draft ε := { d with fault := d.fault <|> some f }

/-- Adds an entry at the end. Its token must be new and not empty. -/
def addEntry (token : Text) (entry : Entries ε) (d : Draft ε) : Draft ε :=
  if token = [] then d.fail .tokenEmpty
  else if token ∈ d.level.entries.tokens then d.fail (.tokenTwice token)
  else { d with level := { d.level with entries := d.level.entries.append entry } }

/-- Adds a category. A fault inside it comes before any fault of adding it. -/
def addCategory (token : Text) (child : Draft ε) (d : Draft ε) : Draft ε :=
  match child.fault with
  | some f => d.fail f
  | none =>
    d.addEntry token
      (.category token child.level.delimiters child.level.otherwise child.level.entries .nil)

/-- Sets the `otherwise` event, once. -/
def setOtherwise (event : ε) (d : Draft ε) : Draft ε :=
  match d.level.otherwise with
  | some _ => d.fail .otherwiseTwice
  | none => { d with level := { d.level with otherwise := some ⟨event, 0⟩ } }

/-- Sets the delimiters, of which there must be one. -/
def setDelimiters (chars : List Char) (d : Draft ε) : Draft ε :=
  if chars = [] then d.fail .delimitersEmpty
  else { d with level := { d.level with delimiters := chars } }

mutual

/-- Carries out one call. -/
def apply : LevelCall ε → Draft ε → Draft ε
  | .event token event trailing, d => d.addEntry token (.event token ⟨event, trailing⟩ .nil)
  | .category token calls, d => addCategory token (applyAll calls {}) d
  | .otherwise event, d => d.setOtherwise event
  | .delimiters chars, d => d.setDelimiters chars

/-- Carries out calls in order. -/
def applyAll : List (LevelCall ε) → Draft ε → Draft ε
  | [], d => d
  | call :: calls, d => applyAll calls (apply call d)

end

end Draft

/-! ## Paths -/

/-- Why a path cannot be added to a level. -/
inductive PathFault where
  /-- a token on the way is an event -/
  | through (token : Text)
  /-- the last token is taken -/
  | taken
deriving DecidableEq, Repr

namespace Entries

variable {ε : Type}

/-- An event below the categories of a path that starts with `token`. -/
def branch (spec : EventSpec ε) (token : Text) : List Text → Entries ε
  | [] => .event token spec .nil
  | next :: more => .category token [] none (branch spec next more) .nil

/-- **Adding a path.** Follows the categories that exist and adds the rest of the path behind the
last entry of the level where they end. -/
def insert (spec : EventSpec ε) :
    Entries ε → (token : Text) → (more : List Text) → Entries ε × Option PathFault
  | .nil, token, more => (branch spec token more, none)
  | .event t s rest, token, more =>
    if t = token then
      (.event t s rest, some (if more.isEmpty then .taken else .through token))
    else
      let (rest', fault) := insert spec rest token more
      (.event t s rest', fault)
  | .category t ds o children rest, token, more =>
    if t = token then
      match more with
      | [] => (.category t ds o children rest, some .taken)
      | next :: more =>
        let (children', fault) := insert spec children next more
        (.category t ds o children' rest, fault)
    else
      let (rest', fault) := insert spec rest token more
      (.category t ds o children rest', fault)

end Entries

/-- The tokens of a pattern. A leading punctuation mark that is no delimiter is a sentinel, and is
left out. -/
def patternTokens (pattern : Text) : List Text :=
  let body := match pattern with
    | [] => []
    | c :: rest => if Text.isPunctuation c && !isDelimiter [] c then rest else c :: rest
  Text.fields (isDelimiter []) body

/-! ## The table -/

/-- A table being put together. Faults of bare lines are kept apart from those of the tree, and
come before them. -/
structure TableDraft (ε : Type) where
  root : Draft ε := {}
  bare : Draft ε := {}
deriving DecidableEq, Repr

namespace TableDraft

variable {ε : Type}

/-- Adds a pattern to the tree. -/
def addPattern (pattern : Text) (spec : EventSpec ε) (d : Draft ε) : Draft ε :=
  match patternTokens pattern with
  | [] => d.fail (.patternEmpty pattern)
  | token :: more =>
    let (entries, fault) := d.level.entries.insert spec token more
    let d := { d with level := { d.level with entries := entries } }
    match fault with
    | none => d
    | some (.through t) => d.fail (.patternThroughEvent pattern t)
    | some .taken => d.fail (.patternTwice pattern)

/-- Adds a bare line, which must be new and not empty. -/
def addBare (text : Text) (spec : EventSpec ε) (d : Draft ε) : Draft ε :=
  if text = [] then d.fail .bareEmpty
  else if text ∈ d.level.entries.tokens then d.fail (.bareTwice text)
  else { d with
    level := { d.level with entries := d.level.entries.append (.event text spec .nil) } }

/-- Carries out one call. -/
def apply (call : TableCall ε) (d : TableDraft ε) : TableDraft ε :=
  match call with
  | .level c => { d with root := Draft.apply c d.root }
  | .pattern path event trailing => { d with root := addPattern path ⟨event, trailing⟩ d.root }
  | .bare text event trailing => { d with bare := addBare text ⟨event, trailing⟩ d.bare }

/-- Carries out calls in order. -/
def applyAll (calls : List (TableCall ε)) (d : TableDraft ε) : TableDraft ε :=
  calls.foldl (fun d call => apply call d) d

/-- The table, if every call was carried out. -/
def build (d : TableDraft ε) : Except TableFault (EventTable ε) :=
  match d.bare.fault <|> d.root.fault with
  | some f => .error f
  | none => .ok ⟨d.root.level, d.bare.level⟩

end TableDraft

/-- The table that a list of calls describes. -/
def EventTable.ofCalls {ε : Type} (calls : List (TableCall ε)) :
    Except TableFault (EventTable ε) :=
  (TableDraft.applyAll calls {}).build

end ModemLink
