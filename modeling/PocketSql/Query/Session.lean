import PocketSql.Query.Statement
import PocketSql.Syntax.Parser

/-!
# Sessions

Ways to run a text of statements against a database. A text that cannot be read
runs nothing. Of a text that can, a script runs all statements, an execution those
up to the first error, and a query the only one, which has to be a selection.
-/

namespace PocketSql

inductive SessionError where
  | unreadable (error : SyntaxError)
  | failed (error : EvalError)
  | notAQuery

def SessionError.message : SessionError → String
  | unreadable error => error.message
  | failed error => error.message
  | notAQuery => "expected exactly one SELECT statement"

namespace Database

/-- Executes all statements. -/
def executeAll (db : Database) : List Statement → List Outcome × Database
  | [] => ([], db)
  | s :: rest =>
    let (outcome, db) := db.execute s
    let (outcomes, db) := db.executeAll rest
    (outcome :: outcomes, db)

/-- Executes statements up to the first one that fails. -/
def executeUntilError (db : Database) :
    List Statement → Except EvalError (List (Option QueryResult)) × Database
  | [] => (.ok [], db)
  | s :: rest =>
    match db.execute s with
    | (.error e, db) => (.error e, db)
    | (.ok result, db) =>
      match db.executeUntilError rest with
      | (.error e, db) => (.error e, db)
      | (.ok results, db) => (.ok (result :: results), db)

/-- Runs all statements of a text and reports every outcome. -/
def runScript (db : Database) (text : String) :
    Except SessionError (List Outcome) × Database :=
  match parse text with
  | .error e => (.error (.unreadable e), db)
  | .ok statements =>
    let (outcomes, db) := db.executeAll statements
    (.ok outcomes, db)

/-- Runs the statements of a text up to the first error, and keeps what those before
it have done. -/
def runBatch (db : Database) (text : String) :
    Except SessionError (List (Option QueryResult)) × Database :=
  match parse text with
  | .error e => (.error (.unreadable e), db)
  | .ok statements =>
    match db.executeUntilError statements with
    | (.error e, db) => (.error (.failed e), db)
    | (.ok results, db) => (.ok results, db)

/-- Answers a text that is a single selection, which is executed like any other
statement. -/
def query (db : Database) (text : String) : Except SessionError QueryResult × Database :=
  match parse text with
  | .error e => (.error (.unreadable e), db)
  | .ok [.select s] =>
    match db.execute (.select s) with
    | (.error e, db) => (.error (.failed e), db)
    | (.ok (some result), db) => (.ok result, db)
    | (.ok none, db) => (.error .notAQuery, db)
  | .ok _ => (.error .notAQuery, db)

end Database

end PocketSql
