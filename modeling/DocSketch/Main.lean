import DocSketch.Command

/-!
# Command line

Reads the file that the arguments name and prints what `Command.run` says.
-/

namespace DocSketch

/-- How the system words the common reasons for which a file cannot be read. -/
def ioReason : IO.Error → String
  | .noFileOrDirectory .. => "No such file or directory (os error 2)"
  | .permissionDenied .. => "Permission denied (os error 13)"
  | .inappropriateType .. => "Is a directory (os error 21)"
  | other => other.toString

/-- Content of a file, or why it cannot be read. -/
def readText (path : String) : IO (Except String String) := do
  try
    return .ok (← IO.FS.readFile path)
  catch failure =>
    return .error (ioReason failure)

end DocSketch

/-- Prints the docstring templates of the functions of a file. -/
def main (arguments : List String) : IO UInt32 := do
  match DocSketch.Command.parse? arguments with
  | none =>
    IO.eprintln "usage: docsketch FILE [--function NAME] [--no-follow] [--numbered-only]"
    return 2
  | some command =>
    let outcome := command.run (← DocSketch.readText command.file)
    IO.print outcome.stdout
    IO.eprint outcome.stderr
    return outcome.code.toUInt32
