import PagedKernel.Simulation.Command

/-!
# The program
-/

open PagedKernel in
/-- run the command line and write what it answers -/
def main (args : List String) : IO UInt32 := do
  let result := Command.run args
  (← IO.getStdout).putStr result.output
  (← IO.getStderr).putStr result.errors
  return result.code.toUInt32
