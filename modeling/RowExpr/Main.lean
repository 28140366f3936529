/-
# The program

Reads what the command may need, and prints what it leaves behind.
-/
import RowExpr.Command.Run

namespace RowExpr

/-- The contents of the file at a path, if there is one. -/
def readFile? (path : String) : IO (Option ByteArray) := do
  try
    let contents ← IO.FS.readBinFile path
    return some contents
  catch _ => return none

/-- The standard input, unless it is a terminal. -/
def readStdin? : IO (Option ByteArray) := do
  let stdin ← IO.getStdin
  if ← stdin.isTty then return none
  let contents ← stdin.readBinToEnd
  return some contents

/-- What a command may need of the world. -/
def surroundings : Command → IO Surroundings
  | .compile { input := some path, .. } => do
    let contents ← readFile? path
    return { file? := fun p => if p = path then contents else none, stdin? := none }
  | .compile { input := none, .. } => do
    let contents ← readStdin?
    return { file? := fun _ => none, stdin? := contents }
  | _ => return { file? := fun _ => none, stdin? := none }

end RowExpr

open RowExpr

/-- The program. -/
def main (args : List String) : IO UInt32 := do
  let world ←
    match Command.ofArguments args with
    | some command => surroundings command
    | none => pure { file? := fun _ => none, stdin? := none }
  let outcome := Command.runArguments world args
  (← IO.getStdout).putStr outcome.stdout
  (← IO.getStderr).putStr outcome.stderr
  return outcome.code
