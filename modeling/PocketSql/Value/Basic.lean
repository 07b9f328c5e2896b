import PocketSql.Number.Integer
import PocketSql.Number.Text
import PocketSql.Text.Quoted
import PocketSql.Timestamp.Basic
import PocketSql.Value.DataType

/-!
# Values

A value that is not null. A cell that may be null holds an optional value.
-/

namespace PocketSql

inductive Value where
  | boolean (value : Bool)
  | integer (value : Int64)
  | number (value : Float)
  | string (value : String)
  | timestamp (value : Timestamp)

namespace Value

def dataType : Value → DataType
  | boolean _ => .boolean
  | integer _ => .integer
  | number _ => .number
  | string _ => .string
  | timestamp _ => .timestamp

/-- The form in which results show a value. Strings are quoted. -/
def text : Value → String
  | boolean value => if value then "true" else "false"
  | integer value => Integer.text value
  | number value => Number.text value
  | string value => Text.quote value
  | timestamp value => value.text

/-- The form in which messages show a value or null. -/
def describe : Option Value → String
  | some value => value.text
  | none => "NULL"

end Value

end PocketSql
