import SqlEngine.Alias.Candidate
import SqlEngine.Call.Argument
import SqlEngine.Call.Connections

/-!
# Call frames

Building the frame of a call: arguments are evaluated and marshaled from left to right, each for the
parameter it meets, and those that meet the tail of a variadic method end up in one array. A null that
meets a parameter which takes none ends it all, and the rest of the arguments is never evaluated.
-/

namespace SqlEngine

namespace Candidate

/-- The object in serialized bytes, which has to be of the declared class. -/
def readObject (serializer : Serializer) (className : String) (b : List UInt8) :
    Except EngineError NativeObject :=
  match serializer.deserialize b with
  | .error e => .error (.invocation e.message)
  | .ok o =>
    if o.isInstanceOf className then .ok o
    else .error (.unsupportedConversion ("object of class " ++ o.className ++ " to " ++ className))

/-- The native form of a value that is not null. -/
def marshalPresent (k : Caller) (v : Value) (type : NativeType) : CallRun NativeValue := do
  match type, v with
  | .object className, .object b =>
    let _ ← k.dataConnection
    let o ← RunWith.onEngine do Run.ofExcept (readObject (← get).serializer className b)
    return .object o
  | type, v =>
    if type.isBridge then
      let content ← RunWith.onEngine (Run.ofExcept (v.bridgeFor type))
      return .bridge content (← k.dataConnection)
    else RunWith.onEngine (Run.ofExcept (v.plainFor type))

/-- The native form of any value, or nothing if the call is to be skipped. -/
def marshalValue (k : Caller) (v : Value) (spec : ParamSpec) : CallRun (Option NativeValue) :=
  if spec.type = .value then pure (some (.value v))
  else if v.isNull then
    pure (if spec.nullable then some .null
      else if k.columnList then some (.defaultOf spec.type)
      else none)
  else some <$> marshalPresent k v spec.type

/-- How many arguments meet parameters in front of a variadic tail. -/
def fixedCount (c : Candidate) : Nat := if c.isVariadic then c.paramCount - 1 else c.paramCount

/-- The parameter that the argument at an index meets. -/
def specAt? (c : Candidate) (index : Nat) : Option ParamSpec :=
  match c.tailSpec? with
  | some element => if c.fixedCount ≤ index then some element else c.columns[index]?
  | none => c.columns[index]?

def tooMany (c : Candidate) : EngineError := .invocation ("too many arguments for " ++ c.text)

/-- Marshals the arguments from an index on. -/
def marshalFrom (c : Candidate) (k : Caller) (index : Nat) :
    List (Run Value) → CallRun (Option (List NativeValue))
  | [] => pure (some [])
  | arg :: rest =>
    match c.specAt? index with
    | none => throw c.tooMany
    | some spec => do
      let v ← RunWith.onEngine arg
      match ← marshalValue k v spec with
      | none => return none
      | some n => return (← marshalFrom c k (index + 1) rest).map (n :: ·)

/-- The parameters from the connection in front and the native forms of all arguments. -/
def arrange (c : Candidate) (front : Option Connection) (natives : List NativeValue) :
    List NativeValue :=
  (front.map .connection).toList ++
    if c.isVariadic then natives.take c.fixedCount ++ [.array (natives.drop c.fixedCount)]
    else natives

def tooFew (c : Candidate) (count : Nat) : EngineError :=
  .invocation (Text.natText count ++ " arguments are too few for " ++ c.text)

def wrongCount (c : Candidate) (count : Nat) : EngineError :=
  .invocation (c.text ++ " expects " ++ Text.natText c.method.params.length ++ " parameters, got " ++
    Text.natText count)

/-- The parameters of a frame, or nothing if the call is to be skipped. -/
def marshal (c : Candidate) (k : Caller) (args : List (Run Value)) :
    CallRun (Option (List NativeValue)) := do
  let front ← if c.takesConnection then some <$> CallRun.connect k.session k.mode else pure none
  if c.isVariadic ∧ args.length < c.fixedCount then throw (c.tooFew args.length)
  match ← marshalFrom c k 0 args with
  | none => return none
  | some natives =>
    let params := c.arrange front natives
    if params.length = c.method.params.length then return some params
    else throw (c.wrongCount params.length)

end Candidate

end SqlEngine
