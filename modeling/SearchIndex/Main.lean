import SearchIndex.Command.Run

/-!
# The command line

The outer layer: the files of the machine, and what is printed when a command ends.
-/

namespace SearchIndex.Command

/-- Reads lines until there are no more. -/
partial def readLines (stream : IO.FS.Stream) (text : String) : IO String := do
  let line ← stream.getLine
  if line.isEmpty then return text else readLines stream (text ++ line)

/-- The value of an action that may fail. -/
def attempt {α : Type} (action : IO α) : IO (Option α) := do
  try
    return some (← action)
  catch _ =>
    return none

/-- The files of the machine. -/
def machineFiles : Files IO where
  read path := attempt (IO.FS.readFile path)
  input := attempt do readLines (← IO.getStdin) ""
  write path text := do return (← attempt (IO.FS.writeFile path text)).isSome
  isThere path := do return ← ((← IO.currentDir).join path).pathExists
  directories := do return Path.upwards (← IO.currentDir).toString

/-- The lines behind a message that name its causes. -/
def causeLines (causes : List String) : String :=
  match causes with
  | [] => ""
  | [cause] => "\n\nCaused by:\n    " ++ cause
  | causes =>
    "\n\nCaused by:" ++
      String.join (causes.zipIdx.map fun (cause, i) => "\n    " ++ toString i ++ ": " ++ cause)

/-- How to use the program. -/
def usage : String :=
  "Usage: esmap [--config <CONFIG>] <COMMAND>\n\nCommands:\n" ++
  "  entity     Script for the mapping of a single entity\n" ++
  "  container  Script for an index shared by several entities\n" ++
  "  compile    Print the compiled field tree of an entity schema\n"

/-- Prints what a command ends with. -/
def Outcome.print : Outcome → IO Unit
  | .printed text => IO.print text
  | .written => pure ()
  | .failed message causes => IO.eprintln ("Error: " ++ message ++ causeLines causes)
  | .reported report =>
    IO.eprintln (String.ofList (Json.write (.indented 2) 0 report.toJson))
  | .refused .help => IO.print usage
  | .refused .usage => IO.eprint usage

end SearchIndex.Command

/-- Runs the command line of the program. -/
def main (arguments : List String) : IO UInt32 := do
  let outcome ← SearchIndex.Command.run SearchIndex.Command.machineFiles arguments
  outcome.print
  return outcome.status.toUInt32
