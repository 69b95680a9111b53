import Fibers.Generator

/-!
# The command line

Prints the numbers of a generator: as many as the first argument says, or ten.
-/

/-- Prints what is told about a generator. -/
def main (args : List String) : IO UInt32 := do
  let report := Fibers.Generator.report args
  for line in report.lines do
    IO.println line
  return UInt32.ofNat report.status
