import PocketSql.Number.Order
import PocketSql.Timestamp.Parse
import PocketSql.Value.Basic

/-!
# Casts

Conversions of values from one type to another. Strings are read, numbers are
truncated to integers, and everything but a boolean can be written as a string.
-/

namespace PocketSql

/-- Why a value has no counterpart in a type. -/
inductive CastFault where
  | unsupported (source target : DataType)
  | unreadable (text : String) (target : DataType)
deriving DecidableEq

def CastFault.message : CastFault → String
  | unsupported source target => "cannot convert " ++ source.name ++ " to " ++ target.name
  | unreadable text target => "invalid " ++ target.name ++ " value: " ++ Text.quote text

namespace Value

/-- Reads a string as a value of the target type. -/
def readAs {α : Type} (target : DataType) (read : List Char → Option α) (text : String) :
    Except CastFault α :=
  match read text.toList with
  | some value => .ok value
  | none => .error (.unreadable text target)

def toBoolean : Value → Except CastFault Bool
  | boolean value => .ok value
  | v => .error (.unsupported v.dataType .boolean)

def toInteger : Value → Except CastFault Int64
  | integer value => .ok value
  | number value => .ok (Number.truncate value)
  | string value => readAs .integer Integer.read? value
  | v => .error (.unsupported v.dataType .integer)

def toNumber : Value → Except CastFault Float
  | integer value => .ok (Number.ofInteger value)
  | number value => .ok value
  | string value => readAs .number Number.read? value
  | v => .error (.unsupported v.dataType .number)

/-- Strings are left as they are; other values are written without quotes. -/
def toText : Value → Except CastFault String
  | string value => .ok value
  | integer value => .ok (Integer.text value)
  | number value => .ok (Number.text value)
  | timestamp value => .ok value.text
  | boolean _ => .error (.unsupported .boolean .string)

def toTimestamp : Value → Except CastFault Timestamp
  | timestamp value => .ok value
  | string value => readAs .timestamp Timestamp.parse? value
  | v => .error (.unsupported v.dataType .timestamp)

/-- Converts a value to a type. -/
def cast (v : Value) : DataType → Except CastFault Value
  | .boolean => v.toBoolean.map boolean
  | .integer => v.toInteger.map integer
  | .number => v.toNumber.map number
  | .string => v.toText.map string
  | .timestamp => v.toTimestamp.map timestamp

end Value

end PocketSql
