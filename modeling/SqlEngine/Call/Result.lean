import SqlEngine.EngineError
import SqlEngine.Native.Value

/-!
# Results

The value of what a native method gave back, in its natural form. Objects are serialized, and a
connection has no value.
-/

namespace SqlEngine.NativeValue

def objectValue (serializer : Serializer) (o : NativeObject) : Except EngineError Value :=
  match serializer.serialize o with
  | .ok b => .ok (.object b)
  | .error e => .error (.invocation e.message)

mutual

def toValue (serializer : Serializer) : NativeValue → Except EngineError Value
  | null => .ok .null
  | boolean b => .ok (.boolean b)
  | byte n => .ok (.smallint n.toInt16)
  | short n => .ok (.smallint n)
  | int n => .ok (.integer n)
  | long n => .ok (.bigint n)
  | float x => .ok (.real x)
  | double x => .ok (.double x)
  | decimal d => .ok (.decimal d)
  | string s => .ok (.varchar s)
  | bytes b => .ok (.varbinary b)
  | date d => .ok (.date d)
  | time t => .ok (.time t)
  | timestamp t => .ok (.timestamp t)
  | value v => .ok v
  | array items => (toValues serializer items).map .array
  | bridge content _ => .ok content.toValue
  | object o => objectValue serializer o
  | connection c => .error (.unsupportedConversion (c.text ++ " to a value"))

def toValues (serializer : Serializer) : List NativeValue → Except EngineError (List Value)
  | [] => .ok []
  | v :: r => do
    let w ← toValue serializer v
    return w :: (← toValues serializer r)

end

end SqlEngine.NativeValue
