import PocketSql.Token.Kind

/-!
# Data types

The types that a column can have.
-/

namespace PocketSql

inductive DataType where
  | boolean
  | integer
  | number
  | string
  | timestamp
deriving DecidableEq

namespace DataType

def name : DataType → String
  | boolean => "Boolean"
  | integer => "Integer"
  | number => "Number"
  | string => "String"
  | timestamp => "Timestamp"

/-- The type that a keyword of a column definition stands for. -/
def ofKeyword? : Kind → Option DataType
  | .kwBoolean => some boolean
  | .kwInteger => some integer
  | .kwNumber => some number
  | .kwVarchar => some string
  | .kwTimestamp => some timestamp
  | _ => none

def keywords : List Kind :=
  [.kwBoolean, .kwInteger, .kwNumber, .kwVarchar, .kwTimestamp]

end DataType

end PocketSql
