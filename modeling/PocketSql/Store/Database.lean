import Std.Data.ExtTreeMap
import PocketSql.Store.Table

/-!
# Databases

A database holds tables by name. Two databases with the same table under every
name are equal, in whatever order the tables were created.
-/

namespace PocketSql

structure Database where
  tables : Std.ExtTreeMap String Table

namespace Database

def empty : Database :=
  ⟨∅⟩

def table? (db : Database) (name : String) : Option Table :=
  db.tables[name]?

/-- Stores a table under a name, in place of any table that stands there. -/
def set (db : Database) (name : String) (t : Table) : Database :=
  ⟨db.tables.insert name t⟩

/-- Stores a table under its own name. -/
def put (db : Database) (t : Table) : Database :=
  db.set t.name t

/-- All tables in the order of their names. -/
def toList (db : Database) : List Table :=
  db.tables.toList.map Prod.snd

end Database

end PocketSql
