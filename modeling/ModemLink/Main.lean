/-
The program, as it is run.
-/
import ModemLink.CommandLine.Run

set_option autoImplicit false

open ModemLink

/-- Reads the arguments, prints the outcome, and exits. -/
def main (args : List String) : IO UInt32 := do
  let outcome := CommandLine.run (args.map String.toList)
  for line in outcome.out do
    IO.println (String.ofList line.render)
  for line in outcome.err do
    IO.eprintln (String.ofList line)
  return UInt32.ofNat outcome.exit
