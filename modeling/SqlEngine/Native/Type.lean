import SqlEngine.DataType
import SqlEngine.Text.Number
import SqlEngine.Text.Quoted

/-!
# Native types

The types that native methods declare for their parameters and results, and the data type that a
result of each has.
-/

namespace SqlEngine

/-- The elements of an `array` have a type of their own and may or may not be null. A `value` is handed
over as it is, `any` in its natural native form. -/
inductive NativeType where
  | boolean
  | byte
  | short
  | int
  | long
  | float
  | double
  | decimal
  | string
  | bytes
  | date
  | time
  | timestamp
  | value
  | connection
  | array (element : NativeType) (nullable : Bool)
  | sqlArray
  | blob
  | clob
  | sqlXml
  | resultSet
  | object (className : String)
  | any
  | void
deriving DecidableEq

/-- A declared parameter. A null for one that is not nullable skips the call. -/
structure ParamSpec where
  type : NativeType
  nullable : Bool
deriving DecidableEq

namespace NativeType

/-- The name in signatures. -/
def name : NativeType → String
  | boolean => "bool"
  | byte => "i8"
  | short => "i16"
  | int => "i32"
  | long => "i64"
  | float => "f32"
  | double => "f64"
  | decimal => "decimal"
  | string => "string"
  | bytes => "bytes"
  | date => "date"
  | time => "time"
  | timestamp => "timestamp"
  | value => "value"
  | connection => "connection"
  | array element _ => element.name ++ "[]"
  | sqlArray => "sqlarray"
  | blob => "blob"
  | clob => "clob"
  | sqlXml => "sqlxml"
  | resultSet => "resultset"
  | object className => className
  | any => "any"
  | void => "void"

/-- The types that have no part of their own. -/
def plain : List NativeType :=
  [boolean, byte, short, int, long, float, double, decimal, string, bytes, date, time, timestamp,
    value, connection, sqlArray, blob, clob, sqlXml, resultSet, any, void]

def ofName? (s : String) : Option NativeType := plain.find? (·.name == s)

/-- The data type of results; `value` and `any` results keep their own. -/
def dataType? : NativeType → Option DataType
  | value | any => none
  | boolean => some .boolean
  | byte | short => some .smallint
  | int => some .integer
  | long => some .bigint
  | float => some .real
  | double => some .double
  | decimal => some .anyDecimal
  | string => some .anyVarchar
  | bytes => some .varbinary
  | date => some .date
  | time => some .time
  | timestamp => some .timestamp
  | array .. | sqlArray => some .array
  | blob => some .blob
  | clob => some .clob
  | sqlXml => some .xml
  | resultSet => some .resultSet
  | connection | object _ => some .object
  | void => some .null

/-- The full form for diagnostics, with the parts of arrays and objects. -/
def debugText : NativeType → String
  | boolean => "Boolean"
  | byte => "Byte"
  | short => "Short"
  | int => "Int"
  | long => "Long"
  | float => "Float"
  | double => "Double"
  | decimal => "Decimal"
  | string => "String"
  | bytes => "Bytes"
  | date => "Date"
  | time => "Time"
  | timestamp => "Timestamp"
  | value => "Value"
  | connection => "Connection"
  | array element nullable =>
    "Array(ParamSpec \x7b ty: " ++ element.debugText ++ ", nullable: " ++ Text.boolText nullable ++ " \x7d)"
  | sqlArray => "SqlArray"
  | blob => "Blob"
  | clob => "Clob"
  | sqlXml => "SqlXml"
  | resultSet => "ResultSet"
  | object className => "Object(" ++ Text.quote className ++ ")"
  | any => "Any"
  | void => "Void"

end NativeType

end SqlEngine
