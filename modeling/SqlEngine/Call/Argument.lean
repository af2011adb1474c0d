import SqlEngine.EngineError
import SqlEngine.Native.Value
import SqlEngine.Value.Comparison

/-!
# Arguments

The native form of an argument that is not null. It is converted to the data type of the declared
native type and then read off; what a connection has to carry becomes the content of a bridge.
-/

namespace SqlEngine

namespace NativeValue

def ofByte? (n : Int16) : Option NativeValue :=
  if -128 ≤ n.toInt ∧ n.toInt < 128 then some (byte (Int8.ofInt n.toInt)) else none

/-- The native form of a value that already has the data type of a scalar native type. -/
def ofScalar? : NativeType → Value → Option NativeValue
  | .boolean, .boolean b => some (boolean b)
  | .byte, .smallint n => ofByte? n
  | .short, .smallint n => some (short n)
  | .int, .integer n => some (int n)
  | .long, .bigint n => some (long n)
  | .float, .real x => some (float x)
  | .double, .double x => some (double x)
  | .decimal, .decimal d => some (decimal d)
  | .string, .varchar s => some (string s)
  | .bytes, .varbinary b => some (bytes b)
  | .date, .date d => some (date d)
  | .time, .time t => some (time t)
  | .timestamp, .timestamp t => some (timestamp t)
  | _, _ => none

/-- The content of a bridge that a native type asks for, from a value that has its data type. -/
def bridgeContent? : NativeType → Value → Option BridgeContent
  | .sqlArray, .array items => some (.array items)
  | .blob, .blob b => some (.blob b)
  | .clob, .clob s => some (.clob s)
  | .sqlXml, .xml s => some (.xml s)
  | .resultSet, .resultSet columns rows => some (.resultSet columns rows)
  | _, _ => none

end NativeValue

namespace NativeType

/-- The types whose values stand for themselves. -/
def isScalar : NativeType → Bool
  | boolean | byte | short | int | long | float | double | decimal | string | bytes | date | time
  | timestamp => true
  | _ => false

/-- The types whose values are reached through a connection. -/
def isBridge : NativeType → Bool
  | sqlArray | blob | clob | sqlXml | resultSet => true
  | _ => false

end NativeType

namespace Value

def unsupported (v : Value) (type : NativeType) : EngineError :=
  .unsupportedConversion (v.typeName ++ " " ++ v.text ++ " to " ++ type.name)

/-- The value in the data type that a native type has. -/
def convertFor (v : Value) (type : NativeType) : Except EngineError Value :=
  match type.dataType? with
  | some t => v.convertOrFail t
  | none => .error (v.unsupported type)

def scalarFor (v : Value) (type : NativeType) : Except EngineError NativeValue := do
  let w ← v.convertFor type
  match NativeValue.ofScalar? type w with
  | some n => return n
  | none => match type, w with
    | .byte, .smallint n => throw (.value (.outOfRange (Text.intText n.toInt) type.name))
    | _, _ => throw (v.unsupported type)

def bridgeFor (v : Value) (type : NativeType) : Except EngineError BridgeContent := do
  match NativeValue.bridgeContent? type (← v.convertFor type) with
  | some content => return content
  | none => throw (v.unsupported type)

def arrayFor (v : Value) (type : NativeType) : Except EngineError (List Value) := do
  match ← v.convertFor type with
  | array items => return items
  | _ => throw (v.unsupported type)

/-- An element of an array, which may be null if the element type says so. -/
def elementFor (type : NativeType) (nullable : Bool) (form : Value → Except EngineError NativeValue)
    (v : Value) : Except EngineError NativeValue :=
  if !v.isNull then form v
  else if nullable then .ok .null
  else .error (.unsupportedConversion ("NULL element in " ++ type.name ++ "[]"))

/-- The native form of a value that needs no connection. -/
def plainFor (v : Value) (type : NativeType) : Except EngineError NativeValue :=
  match type with
  | .array element nullable => do
    let items ← v.arrayFor (.array element nullable)
    return .array (← items.mapM (elementFor element nullable fun item => item.plainFor element))
  | .value => .ok (.value v)
  | .any => .ok (.ofValue v)
  | type => if type.isScalar then v.scalarFor type else .error (v.unsupported type)

end Value

end SqlEngine
