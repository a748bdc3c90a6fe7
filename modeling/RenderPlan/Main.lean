import RenderPlan.Studio.Session

/-!
# The program

The shell around a session: it reads the file, writes the output, turns a failure into an error
text and hands the exit code over.
-/

namespace RenderPlan.Studio

/-- The bytes of a file, if it can be read. -/
def readBytes (path : String) : IO (Option ByteArray) := do
  try
    return some (← IO.FS.readBinFile path)
  catch _ =>
    return none

/-- The text of a failure with the cause behind it. -/
def errorText (failure : Failure) : String :=
  match failure.cause? with
  | none => "Error: " ++ failure.message ++ "\n"
  | some cause => "Error: " ++ failure.message ++ "\n\nCaused by:\n    " ++ cause ++ "\n"

end RenderPlan.Studio

open RenderPlan.Studio in
/-- Runs the program with the arguments of its command line. -/
def main (arguments : List String) : IO UInt32 := do
  let outcome ← session readBytes arguments
  (← IO.getStdout).putStr outcome.output
  if let some failure := outcome.failure then
    (← IO.getStderr).putStr (errorText failure)
  return outcome.exitCode
