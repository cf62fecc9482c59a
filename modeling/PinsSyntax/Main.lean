import PinsSyntax.CommandLine.Response

/-!
# The program

Reads the arguments and the source, prints the response and exits with its code. It runs with the
plain parser of arguments and without a log.
-/

namespace PinsSyntax

/-- The fault behind an error of the file system. A path through a file cannot be opened and is
named by the error; a directory is opened and then not read, and its error names no path. -/
def ReadFault.ofIOError : IO.Error → ReadFault
  | .noFileOrDirectory .. => .notFound
  | .inappropriateType (some _) .. => .notADirectory
  | .inappropriateType none .. => .isADirectory
  | .invalidArgument (some _) _ "name too long" => .nameTooLong
  | e => .other (toString e)

/-- Reads the source at a path. -/
def readSource (path : String) : IO (Except ReadFault String) := do
  try
    return decodeText (← IO.FS.readBinFile path)
  catch e => return .error (.ofIOError e)

/-- Prints a response and gives back its code. -/
def Response.print (r : Response) : IO UInt32 := do
  IO.print r.stdout
  IO.eprint (r.errorOutput .off)
  return r.code.toUInt32

end PinsSyntax

open PinsSyntax in
/-- Checks the source that the arguments name. -/
def main (arguments : List String) : IO UInt32 := do
  match ArgumentParser.plain arguments with
  | .error r => r.print
  | .ok options => (options.respond (← readSource options.source)).print
