import Formulary.CommandLine.Run

/-!
This module contains the program.
-/

def main (arguments : List String) : IO UInt32 := do
  let input ← (← IO.getStdin).readToEnd
  let exit := Formulary.run arguments input
  IO.print exit.out
  IO.eprint exit.err
  match exit.status with
  | .ok status => return status.toUInt32
  | .error fault =>
    IO.eprintln fault.message
    return 1
