import SqlEngine.Native.Interaction

/-!
# Scripted methods

Bodies of native methods given as data: steps on the connections of the frame, then a result worked out
from the parameters. The first step that fails ends the call.
-/

namespace SqlEngine

/-- A connection of the frame: a parameter, the default connection, or that of a bridge parameter. -/
inductive ConnectionRef where
  | param (i : Nat)
  | default
  | bridge (i : Nat)

namespace ConnectionRef

def resolve (f : CallFrame) : ConnectionRef → Except NativeFailure Connection
  | param i => f.connection i
  | default => match f.defaultConnection with
    | some c => .ok c
    | none => .error ⟨"no default connection", none⟩
  | bridge i => do
    match ← f.param i with
    | .bridge _ c => return c
    | v => throw ⟨"not a bridge: " ++ v.text, none⟩

end ConnectionRef

inductive ScriptAction where
  | info
  | text
  | act (action : ConnectionAction)
  | keep (name : String)

inductive ScriptResult where
  | const (v : NativeValue)
  | param (i : Nat)
  | long (i : Nat)
  | double (i : Nat)
  | string (i : Nat)
  | array (i : Nat)
  | sum
  | concat
  | field (i : Nat) (key : String)
  | connection (ref : ConnectionRef)
  | autoCommit (ref : ConnectionRef)
  | fail (message : String) (cause : Option String)

structure Script where
  steps : List (ConnectionRef × ScriptAction)
  result : ScriptResult

namespace Script

mutual

/-- The sum of all whole numbers, at any depth, modulo two to the sixty-fourth. -/
def total : NativeValue → Int64
  | .array items => totals items
  | v => v.int64?.getD 0

def totals : List NativeValue → Int64
  | [] => 0
  | v :: r => total v + totals r

end

/-- A field of an object parameter as a whole number. -/
def fieldValue (f : CallFrame) (i : Nat) (key : String) : Except NativeFailure NativeValue := do
  match ← f.param i with
  | .object o => match o.fields.field? key with
    | some (.integer n) => return if n < 0x8000000000000000 then .long (Int64.ofInt n) else .null
    | _ => return .null
  | v => throw ⟨"unexpected " ++ v.text, none⟩

/-- The step that an action takes, and the remark it leaves. -/
def performThen (on : Connection) (action : ScriptAction) (next : Interaction) : Interaction :=
  match action with
  | .info => .remark (.handle on) next
  | .text => .step on .isOpen fun
    | .flag b => .remark (.texts on.text (on.debugText b)) next
    | _ => next
  | .act action => .step on action fun reply => .remark (.reply reply) next
  | .keep name => .remark (.kept name on) next

def resultOf (f : CallFrame) : ScriptResult → Interaction
  | .const v => .done v
  | .param i => .ofExcept (f.param i)
  | .long i => .ofExcept ((f.long i).map .long)
  | .double i => .ofExcept ((f.double i).map .double)
  | .string i => .ofExcept ((f.string i).map .string)
  | .array i => .ofExcept ((f.array i).map .array)
  | .sum => .done (.long (totals f.params))
  | .concat => .done (.string (String.intercalate "|" (f.params.map (·.text))))
  | .field i key => .ofExcept (fieldValue f i key)
  | .connection ref => .bind (ref.resolve f) fun c => .done (.connection c)
  | .autoCommit ref => .bind (ref.resolve f) fun c => .step c .autoCommit fun
    | .flag b => .done (.boolean b)
    | _ => .done .null
  | .fail message cause => .fail ⟨message, cause⟩

def runSteps (f : CallFrame) (result : Interaction) :
    List (ConnectionRef × ScriptAction) → Interaction
  | [] => result
  | (ref, action) :: r => .bind (ref.resolve f) fun c => performThen c action (runSteps f result r)

def body (s : Script) (f : CallFrame) : Interaction := runSteps f (resultOf f s.result) s.steps

end Script

end SqlEngine
