import PocketSql.FileTree
import PocketSql.Query.Session
import PocketSql.Report.Grid
import PocketSql.Syntax.Outline

/-!
# The command line

What the program writes and how it ends, as a function of its arguments, its
standard input and the files it can see. The input is run as a script on an empty
database.
-/

namespace PocketSql.CommandLine

/-- How a run ends. -/
inductive Ending where
  /-- With an exit code and what is written to the standard output and to standard error. -/
  | exit (code : UInt32) (stdout stderr : String)
  /-- At a grid that cannot be written, behind all that stands on the standard output. -/
  | crash (stdout : String) (fault : GridFault)

def programName : String := "toysql"

/-- The end of a run that only tells the version. -/
def version : Ending :=
  .exit 0 (programName ++ " 0.1.0\n") ""

/-! ## Arguments -/

structure Options where
  /-- The file to run; standard input without one. -/
  file : Option String
  /-- Whether the tree of every statement is printed before its outcome. -/
  verbose : Bool

/-- What the arguments of a run ask for. -/
inductive Request where
  | version
  | script (options : Options)

/-- The levels at which nothing is written to the log. -/
def quietLevels : List String := ["", "off", "error", "warn", "info"]

/-- A name of a file is no flag, but may be a single hyphen. -/
def isFileName (argument : String) : Bool :=
  argument == "-" || argument.toList.head?.any (· != '-')

/-- A level behind an equals sign is an argument of its own, and so is every flag of a
bundle. -/
def parts (argument : String) : List String :=
  match argument.toList with
  | '-' :: '-' :: rest =>
    match "log-level=".toList.isPrefixOf? rest with
    | some level => ["--log-level", String.ofList level]
    | none => [argument]
  | '-' :: first :: rest => (first :: rest).map fun flag => String.ofList ['-', flag]
  | _ => [argument]

/-- Reads arguments on top of the options so far; `leveled` tells that a level of the
log is among these. -/
def readArguments (options : Options) (leveled : Bool) : List String → Option Request
  | [] => some (.script options)
  | ["--version"] | ["-V"] => some .version
  | "--verbose" :: rest | "-v" :: rest =>
    if options.verbose then none
    else readArguments { options with verbose := true } leveled rest
  | "--log-level" :: level :: rest =>
    if leveled || !quietLevels.contains level then none
    else readArguments options true rest
  | argument :: rest =>
    if isFileName argument && options.file.isNone then
      readArguments { options with file := some argument } leveled rest
    else none

/-- What arguments ask for, as far as they are read here: a file, the flag for trees and
a quiet level of the log, each at most once, or the version behind them. Help, refusals
and a log that is written are left to the library that the program reads its arguments
with. -/
def request? (arguments : List String) : Option Request :=
  readArguments ⟨none, false⟩ false (arguments.flatMap parts)

/-! ## Runs -/

/-- The line, or the lines of the grid, that report an outcome. -/
def report : Outcome → Except GridFault String
  | .ok (some result) => result.grid
  | .ok none => .ok "OK\n"
  | .error e => .ok (e.message ++ "\n")

/-- Executes statements and writes the reports on them behind what is written already,
each behind the tree of its statement if the run is verbose. -/
def runStatements (verbose : Bool) (db : Database) (written : String) : List Statement → Ending
  | [] => .exit 0 written ""
  | s :: rest =>
    let (outcome, db) := db.execute s
    let written := if verbose then written ++ s.outline.print else written
    match report outcome with
    | .ok lines => runStatements verbose db (written ++ lines) rest
    | .error fault => .crash written fault

/-- Runs a script. A text that cannot be read is reported as an error of the run. -/
def runText (verbose : Bool) (text : String) : Ending :=
  match parse text with
  | .error e => .exit 1 "" (e.message ++ "\n")
  | .ok statements => runStatements verbose .empty "" statements

/-- The end of a run whose input could not be read. -/
def noInput (reason : String) : Ending :=
  .exit 1 "" (programName ++ ": cannot read input: " ++ reason ++ "\n")

/-- Runs the bytes of an input, which have to be UTF-8. -/
def runBytes (verbose : Bool) (input : ByteArray) : Ending :=
  match String.fromUTF8? input with
  | some text => runText verbose text
  | none => noInput "stream did not contain valid UTF-8"

/-- Runs an input, if it could be read at all. -/
def runInput (verbose : Bool) : Except FileFault ByteArray → Ending
  | .ok input => runBytes verbose input
  | .error fault => noInput fault.message

/-- What a run reads, from a working directory: the file that it is given or else the
standard input. -/
def input (file : Option String) (stdin : ByteArray) (workingDirectory : FilePlace) :
    Except FileFault ByteArray :=
  match file with
  | none => .ok stdin
  | some path => workingDirectory.read path

/-- A whole run, if its arguments are read here. -/
def run (arguments : List String) (stdin : ByteArray) (workingDirectory : FilePlace) :
    Option Ending :=
  (request? arguments).map fun
    | .version => version
    | .script options => runInput options.verbose (input options.file stdin workingDirectory)

end PocketSql.CommandLine
