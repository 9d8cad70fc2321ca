import Stencil.Program

/-!
# The program on the files of the system
-/

namespace Stencil

def attempted {α : Type} (action : IO α) : IO (Except String α) := do
  try
    return .ok (← action)
  catch fault => return .error (toString fault)

instance : Host IO where
  readText name := attempted (IO.FS.readFile name)
  createDirectories name := attempted (IO.FS.createDirAll name)
  writeText name text := attempted (IO.FS.writeFile name text)

end Stencil

/-- Runs the command line: what is put out goes to standard output, messages to standard
error. -/
def main (arguments : List String) : IO UInt32 := do
  let outcome ← Stencil.runProgram arguments
  (← IO.getStdout).putStr outcome.output
  (← IO.getStderr).putStr outcome.errors
  return outcome.exitCode.toUInt32
