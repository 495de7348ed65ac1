import DataBlock.Command

/-!
# The program

Runs the command on the files of the system.
-/

namespace DataBlock
namespace Command

/-- What the system says about a file that cannot be read. -/
def systemText : IO.Error → String
  | .noFileOrDirectory .. => "No such file or directory (os error 2)"
  | e => toString e

/-- The bytes of a file. -/
def readBytes (path : String) : IO (Except String Bytes) := do
  try
    return .ok (← IO.FS.readBinFile path).toList
  catch e => return .error (systemText e)

end Command
end DataBlock

/-- Prints what the command prints and ends with its code; with 101 where it is stopped. -/
def main (args : List String) : IO UInt32 := do
  match (← DataBlock.Command.run DataBlock.Command.readBytes args) with
  | .exited outcome =>
      (← IO.getStdout).putStr outcome.stdout
      (← IO.getStderr).putStr outcome.stderr
      return UInt32.ofNat outcome.exit
  | .stopped printed =>
      (← IO.getStdout).putStr printed
      (← IO.getStderr).putStr "attempt to add with overflow\n"
      return 101
