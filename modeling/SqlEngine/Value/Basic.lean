import SqlEngine.DataType
import SqlEngine.Decimal.Binary
import SqlEngine.Decimal.Text
import SqlEngine.Temporal.Timestamp

/-!
# Values

The values of the engine, their types, and what can be read out of them without converting.
-/

namespace SqlEngine

structure ResultColumn where
  name : String
  type : DataType
deriving DecidableEq

/-- An `object` is the serialized form of a native object. -/
inductive Value where
  | null
  | boolean (b : Bool)
  | smallint (n : Int16)
  | integer (n : Int32)
  | bigint (n : Int64)
  | decimal (d : Decimal)
  | real (x : Binary32)
  | double (x : Binary64)
  | char (s : String)
  | varchar (s : String)
  | clob (s : String)
  | varbinary (bytes : List UInt8)
  | blob (bytes : List UInt8)
  | date (d : Date)
  | time (t : TimeOfDay)
  | timestamp (t : Timestamp)
  | array (items : List Value)
  | xml (s : String)
  | resultSet (columns : List ResultColumn) (rows : List (List Value))
  | object (bytes : List UInt8)

namespace Value

instance : Inhabited Value := ⟨null⟩

def isNull : Value → Bool
  | null => true
  | _ => false

/-- The type of a value by name, without sizes. -/
def typeName : Value → String
  | null => "NULL"
  | boolean _ => "BOOLEAN"
  | smallint _ => "SMALLINT"
  | integer _ => "INTEGER"
  | bigint _ => "BIGINT"
  | decimal _ => "DECIMAL"
  | real _ => "REAL"
  | double _ => "DOUBLE PRECISION"
  | char _ => "CHAR"
  | varchar _ => "VARCHAR"
  | clob _ => "CLOB"
  | varbinary _ => "VARBINARY"
  | blob _ => "BLOB"
  | date _ => "DATE"
  | time _ => "TIME"
  | timestamp _ => "TIMESTAMP"
  | array _ => "ARRAY"
  | xml _ => "XML"
  | resultSet .. => "RESULT SET"
  | object _ => "OBJECT"

/-- A decimal gives its own scale and a `char` its own length. -/
def type : Value → DataType
  | null => .null
  | boolean _ => .boolean
  | smallint _ => .smallint
  | integer _ => .integer
  | bigint _ => .bigint
  | decimal d => .decimal none (some d.scale)
  | real _ => .real
  | double _ => .double
  | char s => .char s.length
  | varchar _ => .anyVarchar
  | clob _ => .clob
  | varbinary _ => .varbinary
  | blob _ => .blob
  | date _ => .date
  | time _ => .time
  | timestamp _ => .timestamp
  | array _ => .array
  | xml _ => .xml
  | resultSet .. => .resultSet
  | object _ => .object

/-- One row with one column named `X`. -/
def single (v : Value) : Value := resultSet [⟨"X", v.type⟩] [[v]]

mutual

/-- Null, or an array with a null at any depth. -/
def containsNull : Value → Bool
  | null => true
  | array items => anyContainsNull items
  | _ => false

def anyContainsNull : List Value → Bool
  | [] => false
  | v :: r => v.containsNull || anyContainsNull r

end

/-- The exact numbers as decimals. -/
def toDecimal? : Value → Option Decimal
  | smallint n => some (.ofInt64 n.toInt64)
  | integer n => some (.ofInt64 n.toInt64)
  | bigint n => some (.ofInt64 n)
  | decimal d => some d
  | _ => none

/-- All numbers, exact or not, as doubles. -/
def toDouble? : Value → Option Binary64
  | smallint n => some (.ofInt .double n.toInt)
  | integer n => some (.ofInt .double n.toInt)
  | bigint n => some (.ofInt .double n.toInt)
  | decimal d => some d.toDouble
  | real x => some (x.convert .double)
  | double x => some x
  | _ => none

/-- The exact numbers that are whole and fit sixty-four bits. -/
def toInt64? : Value → Option Int64
  | smallint n => some n.toInt64
  | integer n => some n.toInt64
  | bigint n => some n
  | decimal d => if d.isWhole then d.toInt64? else none
  | _ => none

def string? : Value → Option String
  | char s | varchar s | clob s | xml s => some s
  | _ => none

def bytes? : Value → Option (List UInt8)
  | varbinary b | blob b | object b => some b
  | _ => none

/-- Whether a value holds; a number does when it is not zero, and null leaves it open. -/
def truth? : Value → Option Bool
  | boolean b => some b
  | v => v.toDouble?.map fun x => !x.eq (.zero false)

def isIntegral : Value → Bool
  | smallint _ | integer _ | bigint _ => true
  | _ => false

def isApproximate : Value → Bool
  | real _ | double _ => true
  | _ => false

/-- The three character types of the comparison rules; `xml` is not one of them. -/
def isCharacter : Value → Bool
  | char _ | varchar _ | clob _ => true
  | _ => false

end Value

end SqlEngine
