import SyntaxTriage.CommandLine.Run

/-!
The program: it reads the file that its arguments name, and writes what `Job.run` tells.
-/

namespace SyntaxTriage.CommandLine

def readFile (name : String) : IO (Option ByteArray) := do
  try
    return some (← IO.FS.readBinFile name)
  catch
    | .noFileOrDirectory .. => return none
    | e => throw e

def write (outcome : Outcome) : IO UInt32 := do
  IO.print outcome.stdout
  IO.eprint outcome.stderr
  match outcome.ending with
  | .returned code | .exited code => return code.toUInt32
  | .undecodable => throw (IO.userError "the file is not encoded in UTF-8")
  | .modeless => throw (IO.userError "there is no mode to read the file in")

end SyntaxTriage.CommandLine

open SyntaxTriage.CommandLine in
def main (arguments : List String) : IO UInt32 := do
  match plan arguments with
  | .finished outcome => write outcome
  | .job job => write (job.run ⟨mainThread, false⟩ (← readFile job.file))
