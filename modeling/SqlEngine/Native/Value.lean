import SqlEngine.Session.Connection
import SqlEngine.Native.Object
import SqlEngine.Native.Type
import SqlEngine.Value.Text

/-!
# Native values

Arguments and results on the native side of a call. A bridge is content that native code reaches
through the connection it was made on.
-/

namespace SqlEngine

inductive BridgeContent where
  | array (items : List Value)
  | blob (bytes : List UInt8)
  | clob (text : String)
  | xml (document : String)
  | resultSet (columns : List ResultColumn) (rows : List (List Value))

namespace BridgeContent

def toValue : BridgeContent → Value
  | array items => .array items
  | blob bytes => .blob bytes
  | clob text => .clob text
  | xml document => .xml document
  | resultSet columns rows => .resultSet columns rows

/-- The kinds of value that have a bridge. -/
def ofValue? : Value → Option BridgeContent
  | .array items => some (array items)
  | .blob bytes => some (blob bytes)
  | .clob text => some (clob text)
  | .xml document => some (xml document)
  | .resultSet columns rows => some (resultSet columns rows)
  | _ => none

theorem ofValue?_toValue (b : BridgeContent) : ofValue? b.toValue = some b := by
  cases b <;> rfl

end BridgeContent

inductive NativeValue where
  | null
  | boolean (b : Bool)
  | byte (n : Int8)
  | short (n : Int16)
  | int (n : Int32)
  | long (n : Int64)
  | float (x : Binary32)
  | double (x : Binary64)
  | decimal (d : Decimal)
  | string (s : String)
  | bytes (b : List UInt8)
  | date (d : Date)
  | time (t : TimeOfDay)
  | timestamp (t : Timestamp)
  | value (v : Value)
  | connection (c : Connection)
  | array (items : List NativeValue)
  | bridge (content : BridgeContent) (on : Connection)
  | object (o : NativeObject)

namespace NativeValue

instance : Inhabited NativeValue := ⟨null⟩

mutual

/-- The natural native form of a value. -/
def ofValue : Value → NativeValue
  | .null => null
  | .boolean b => boolean b
  | .smallint n => short n
  | .integer n => int n
  | .bigint n => long n
  | .decimal d => decimal d
  | .real x => float x
  | .double x => double x
  | .char s | .varchar s | .clob s | .xml s => string s
  | .varbinary b | .blob b => bytes b
  | .date d => date d
  | .time t => time t
  | .timestamp t => timestamp t
  | .array items => array (ofValues items)
  | .resultSet columns rows => value (.resultSet columns rows)
  | .object b => value (.object b)

def ofValues : List Value → List NativeValue
  | [] => []
  | v :: r => ofValue v :: ofValues r

end

def isNull : NativeValue → Bool
  | null => true
  | _ => false

def bool? : NativeValue → Option Bool
  | boolean b => some b
  | _ => none

/-- Whole numbers of any width. -/
def int64? : NativeValue → Option Int64
  | byte n => some n.toInt64
  | short n => some n.toInt64
  | int n => some n.toInt64
  | long n => some n
  | _ => none

/-- Numbers of any width, whole or not, but no decimals. -/
def double? : NativeValue → Option Binary64
  | float x => some (x.convert .double)
  | double x => some x
  | v => v.int64?.map fun n => .ofInt .double n.toInt

def string? : NativeValue → Option String
  | string s => some s
  | _ => none

def array? : NativeValue → Option (List NativeValue)
  | array items => some items
  | _ => none

mutual

def text : NativeValue → String
  | null => "null"
  | boolean b => Text.boolText b
  | byte n => Text.intText n.toInt
  | short n => Text.intText n.toInt
  | int n => Text.intText n.toInt
  | long n => Text.intText n.toInt
  | float x => x.text
  | double x => x.text
  | decimal d => d.text
  | string s => s
  | bytes b => Text.hexText b
  | date d => d.text
  | time t => t.text
  | timestamp t => t.text
  | value v => v.text
  | connection c => c.text
  | array items => "[" ++ String.intercalate ", " (texts items) ++ "]"
  | bridge content _ => content.toValue.text
  | object o => o.text

def texts : List NativeValue → List String
  | [] => []
  | v :: r => v.text :: texts r

end

/-- What stands for a null where only result columns are looked at. -/
def defaultOf : NativeType → NativeValue
  | .boolean => boolean false
  | .byte => byte 0
  | .short => short 0
  | .int => int 0
  | .long => long 0
  | .float => float (.zero false)
  | .double => double (.zero false)
  | _ => null

end NativeValue

end SqlEngine
