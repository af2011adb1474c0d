import SqlEngine.Call.Frame
import SqlEngine.Call.Result

/-!
# Calls

Calling a candidate. The method runs without automatic commits and perhaps with an ambient connection;
whatever comes of it, the session gets its state back and the connections of the call are closed.
-/

namespace SqlEngine.Candidate

/-- The connection that the settings ask for, made known to the session. -/
def openAmbient (k : Caller) : CallRun (Option Connection) := do
  let wanted ← RunWith.onEngine do return (← get).settings.defaultConnection
  if wanted then
    let c ← CallRun.connect k.session k.mode
    RunWith.onEngine (modify (·.updateSession k.session ({ · with ambient := some c })))
    return some c
  else return none

def callText (name : String) (params : List NativeValue) : String :=
  name ++ "(" ++ String.intercalate ", " (params.map (·.text)) ++ ")"

/-- The value of a result, in the data type of the method. -/
def finish (c : Candidate) (serializer : Serializer) (result : NativeValue) :
    Except EngineError Value :=
  if result.isNull || c.method.returnType == .void then .ok .null
  else match c.dataType? with
    | none => result.toValue serializer
    | some t => do (← result.toValue serializer).convertOrFail t

/-- Calls the method in a frame. The text of a failed call shows the frame as the body left it. -/
def callMethod (c : Candidate) (k : Caller) (frame : CallFrame) : Run Value := do
  match ← Run.native k.session c.method frame with
  | (.error cause, left) => throw (.nativeFailure (callText c.method.name left.params) cause)
  | (.ok result, _) => Run.ofExcept (c.finish (← get).serializer result)

/-- Runs the method on marshaled parameters. -/
def run (c : Candidate) (k : Caller) (params : List NativeValue) : CallRun Value :=
  CallRun.isolated k.session do
    let default ← openAmbient k
    RunWith.onEngine (c.callMethod k ⟨params, default⟩)

/-- Calls a candidate with arguments that are evaluated on the way. -/
def invoke (c : Candidate) (k : Caller) (args : List (Run Value)) : Run Value :=
  CallRun.closing do
    match ← c.marshal k args with
    | none => return .null
    | some params => c.run k params

def invokeValues (c : Candidate) (k : Caller) (args : List Value) : Run Value :=
  c.invoke k (args.map pure)

end SqlEngine.Candidate
