/-
What the program prints.

A figure that is measured stays a figure until the line is rendered, so that whoever compares
reports can leave it out.
-/
import ModemLink.CommandLine.Help
import ModemLink.Family.Catalog
import ModemLink.Receiver

set_option autoImplicit false

namespace ModemLink.CommandLine

/-! ## Lines -/

/-- A line of output. Times are in milliseconds. -/
inductive Printed where
  | text (line : Text)
  | confirmedIn (time : Nat)
  | elapsed (time : Nat)
  | rate (count time : Nat)
deriving DecidableEq, Repr

/-- Three digits, for the part of a second behind the point. -/
def threeDigits (n : Nat) : Text :=
  Decimal.ofNat (n / 100 % 10) ++ Decimal.ofNat (n / 10 % 10) ++ Decimal.ofNat (n % 10)

/-- The line as it is shown. -/
def Printed.render : Printed → Text
  | .text line => line
  | .confirmedIn time => "Confirmed in ".toList ++ Decimal.ofNat time ++ ".0 ms".toList
  | .elapsed time =>
    "  Elapsed:        ".toList ++ Decimal.ofNat (time / 1000) ++ ['.'] ++ threeDigits (time % 1000)
      ++ " s".toList
  | .rate count time =>
    let tenths := if time = 0 then 0 else (count * 10000 + time / 2) / time
    "  Rate:           ".toList ++ Decimal.ofNat (tenths / 10) ++ ['.']
      ++ Decimal.ofNat (tenths % 10) ++ " requests/sec".toList

/-- What a run of the program leaves: how it exits, and its lines. -/
structure Outcome where
  exit : Nat := 0
  out : List Printed := []
  err : List Text := []
deriving DecidableEq, Repr

/-- Why the program fails: what it tried, and what stopped it. -/
structure Complaint where
  message : Text
  cause : Option Text := none
deriving DecidableEq, Repr

/-- A text with four blanks before each of its lines, the empty ones included. -/
def indented (s : Text) : Text :=
  List.replicate 4 ' ' ++ s.flatMap fun c => if c = '\n' then c :: List.replicate 4 ' ' else [c]

/-- A complaint as it is shown. Of a cause that has several lines, each is indented. -/
def Complaint.lines (c : Complaint) : List Text :=
  ("Error: ".toList ++ c.message) ::
    match c.cause with
    | none => []
    | some cause => [[], "Caused by:", indented cause]

/-! ## Tables -/

/-- Blanks after a text up to a width. -/
def padRight (width : Nat) (s : Text) : Text := s ++ List.replicate (width - s.length) ' '

/-- Blanks before a text up to a width. -/
def padLeft (width : Nat) (s : Text) : Text := List.replicate (width - s.length) ' ' ++ s

/-- The width of a column of texts: that of the widest, and four at least. -/
def columnWidth (column : List Text) : Nat := (column.map Text.byteLength).foldl max 4

/-- A line of dashes. -/
def dashes (n : Nat) : Text := List.replicate n '-'

/-- Cells with two blanks between them. -/
def cells (row : List Text) : Text := List.intercalate [' ', ' '] row

/-- The table of families. -/
def familyTable (families : List Family) : List Text :=
  let width := columnWidth (families.map Family.name)
  [ cells [padRight 10 "Id", padRight width "Name", padLeft 8 "Baud", "Terminator"],
    cells [dashes 10, dashes width, dashes 8, dashes 10] ]
  ++ families.map fun f =>
    cells [padRight 10 f.id, padRight width f.name, padLeft 8 (Decimal.ofNat f.baudRate),
      f.terminators.text]

/-- The table of events. -/
def eventTable (rows : List (Row Text)) : List Text :=
  let width := columnWidth (rows.map Row.text)
  [ cells [padRight width "Path", padRight 24 "Event", "Trailing"],
    cells [dashes width, dashes 24, dashes 8] ]
  ++ rows.map fun r =>
    cells [padRight width r.text, padRight 24 r.spec.event, Decimal.ofNat r.spec.trailing]

/-- The counters. -/
def statsTable (s : Stats) : List Text := [
  [],
  "Session:",
  "  Lines:          ".toList ++ Decimal.ofNat s.lines,
  "  Confirmations:  ".toList ++ Decimal.ofNat s.confirmations ++ " (".toList
    ++ Decimal.ofNat s.strayConfirmations ++ " stray)".toList,
  "  Body lines:     ".toList ++ Decimal.ofNat s.bodyLines,
  "  Events:         ".toList ++ Decimal.ofNat s.events ++ " (".toList
    ++ Decimal.ofNat s.eventsLost ++ " lost)".toList,
  "  Unknown events: ".toList ++ Decimal.ofNat s.unknownEvents,
  "  Dropped lines:  ".toList ++ Decimal.ofNat s.droppedLines,
  "  Overflows:      ".toList ++ Decimal.ofNat s.overflows]

end ModemLink.CommandLine
