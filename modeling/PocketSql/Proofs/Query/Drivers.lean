import Mathlib
import PocketSql.CommandLine
import PocketSql.Proofs.Query.Script
import PocketSql.Proofs.Report.GridReading
import PocketSql.Proofs.Store.CompleteRows

/-!
# Ways to run a text

A script, a batch, a query and the command line go through the statements of a text in loops
of their own.  They stop at different places and give back different things, but what a
statement answers and leaves behind is the same in all of them, so each of them can be read
off the outcomes of the script.
-/

namespace PocketSql

namespace Database

variable {db : Database} {statements : List Statement} {results : List (Option QueryResult)}

section Batches

variable {text : String} (hparse : parse text = .ok statements)

include hparse

end Batches

/-! ## Queries -/

end Database

/-! ## The command line -/

namespace CommandLine

end CommandLine

/-! ## Agreement -/

end PocketSql
