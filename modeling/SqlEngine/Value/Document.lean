import SqlEngine.DataType.Document
import SqlEngine.Numeric.Bits
import SqlEngine.Value.Basic

/-!
# Values in documents

A value is an array of its kind and its parts. Numbers of sixty-four bits and decimals are text,
approximate numbers are text with their bits, and bytes are hexadecimal text.
-/

namespace SqlEngine

namespace Date

def ofJson? : List Json → Option Date
  | [.integer y, .integer m, .integer d] => ofParts? y m.toNat d.toNat
  | _ => none

def toJson (d : Date) : List Json := [.integer d.year, .integer d.month, .integer d.day]

end Date

namespace TimeOfDay

def ofJson? : List Json → Option TimeOfDay
  | [.integer h, .integer m, .integer s, .integer n] => ofParts? h.toNat m.toNat s.toNat n.toNat
  | _ => none

def toJson (t : TimeOfDay) : List Json :=
  [.integer t.hour, .integer t.minute, .integer t.second, .integer t.nanosecond]

end TimeOfDay

namespace ResultColumn

def ofJson? : Json → Option ResultColumn
  | .array [.string name, type] => (DataType.ofJson? type).map (⟨name, ·⟩)
  | _ => none

def toJson (c : ResultColumn) : Json := .array [.string c.name, c.type.toJson]

end ResultColumn

def Timestamp.ofJson? (parts : List Json) : Option Timestamp := do
  return ⟨← Date.ofJson? (parts.take 3), ← TimeOfDay.ofJson? (parts.drop 3)⟩

namespace Value

/-- A whole number of sixty-four bits in text. -/
def readInt64? (s : String) : Option Int64 :=
  (Text.readSignedWithin? 0x8000000000000000 s.toList).map Int64.ofInt

/-- The kinds of value that have no values inside. -/
def ofParts? (kind : String) (parts : List Json) : Option Value :=
  match kind, parts with
  | "null", [] => some null
  | "bool", [.boolean b] => some (boolean b)
  | "smallint", [.integer n] => some (smallint (Int16.ofInt n))
  | "int", [.integer n] => some (integer (Int32.ofInt n))
  | "bigint", [.string s] => (readInt64? s).map bigint
  | "decimal", [.string s] => (Decimal.ofExactText? s).map decimal
  | "real", [.string s] => (Binary.ofBitsText? .single s).map real
  | "double", [.string s] => (Binary.ofBitsText? .double s).map double
  | "char", [.string s] => some (char s)
  | "varchar", [.string s] => some (varchar s)
  | "clob", [.string s] => some (clob s)
  | "varbinary", [.string s] => (Text.decodeHex? s.toList).map varbinary
  | "blob", [.string s] => (Text.decodeHex? s.toList).map blob
  | "date", parts => (Date.ofJson? parts).map date
  | "time", parts => (TimeOfDay.ofJson? parts).map time
  | "timestamp", parts => (Timestamp.ofJson? parts).map timestamp
  | "xml", [.string s] => some (xml s)
  | "object", [.string s] => (Text.decodeHex? s.toList).map object
  | _, _ => none

mutual

def ofJson? : Json → Option Value
  | .array [.string "array", .array items] => (ofEach? items).map array
  | .array [.string "resultset", .array columns, .array rows] => do
    return resultSet (← columns.mapM ResultColumn.ofJson?) (← ofRows? rows)
  | .array (.string kind :: parts) => ofParts? kind parts
  | _ => none

def ofEach? : List Json → Option (List Value)
  | [] => some []
  | j :: r => do return (← ofJson? j) :: (← ofEach? r)

def ofRows? : List Json → Option (List (List Value))
  | [] => some []
  | .array items :: r => do return (← ofEach? items) :: (← ofRows? r)
  | _ => none

end

def document (kind : String) (parts : List Json) : Json := .array (.string kind :: parts)

mutual

def toJson : Value → Json
  | null => document "null" []
  | boolean b => document "bool" [.boolean b]
  | smallint n => document "smallint" [.integer n.toInt]
  | integer n => document "int" [.integer n.toInt]
  | bigint n => document "bigint" [.string (Text.intText n.toInt)]
  | decimal d => document "decimal" [.string d.text]
  | real x => document "real" [.string x.bitsText]
  | double x => document "double" [.string x.bitsText]
  | char s => document "char" [.string s]
  | varchar s => document "varchar" [.string s]
  | clob s => document "clob" [.string s]
  | varbinary b => document "varbinary" [.string (Text.hexText b)]
  | blob b => document "blob" [.string (Text.hexText b)]
  | date d => document "date" d.toJson
  | time t => document "time" t.toJson
  | timestamp t => document "timestamp" (t.date.toJson ++ t.time.toJson)
  | array items => document "array" [.array (toEach items)]
  | xml s => document "xml" [.string s]
  | resultSet columns rows =>
    document "resultset" [.array (columns.map ResultColumn.toJson), .array (toRows rows)]
  | object b => document "object" [.string (Text.hexText b)]

def toEach : List Value → List Json
  | [] => []
  | v :: r => v.toJson :: toEach r

def toRows : List (List Value) → List Json
  | [] => []
  | row :: r => .array (toEach row) :: toRows r

end

end Value

end SqlEngine
