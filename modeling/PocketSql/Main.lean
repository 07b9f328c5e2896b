import PocketSql.CommandLine

/-!
# The program

Reads the file or the standard input and writes what the run leaves behind.
-/

namespace PocketSql.CommandLine

/-- The fault of a failed attempt to read. The system names the file where a path does
not lead through directories, and no file where the file itself is a directory. -/
def faultOf : IO.Error → FileFault
  | .noFileOrDirectory .. => .missing
  | .permissionDenied .. => .denied
  | .inappropriateType (some _) .. => .notDirectory
  | .inappropriateType none .. => .isDirectory
  | .invalidArgument _ _ "name too long" => .nameTooLong
  | error => .other (toString error)

def readFile (path : String) : IO (Except FileFault ByteArray) := do
  try
    return .ok (← IO.FS.readBinFile path)
  catch error =>
    return .error (faultOf error)

def perform (arguments : List String) : IO Ending := do
  match request? arguments with
  | none => throw (IO.userError "these arguments are not read")
  | some .version => return version
  | some (.script options) =>
    let input ← match options.file with
      | none => pure (.ok (← (← IO.getStdin).readBinToEnd))
      | some path => readFile path
    return runInput options.verbose input

end PocketSql.CommandLine

def main (arguments : List String) : IO UInt32 := do
  match ← PocketSql.CommandLine.perform arguments with
  | .exit code stdout stderr =>
    IO.print stdout
    IO.eprint stderr
    return code
  | .crash stdout fault =>
    IO.print stdout
    IO.eprintln fault.message
    return 101
