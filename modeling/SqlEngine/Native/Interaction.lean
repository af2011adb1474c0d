import SqlEngine.Native.Value

/-!
# The course of native calls

What a native body sees and what it may do. The body is a function of the call frame alone; what it does
to connections it asks for step by step, so that the engine carries out every step and the body sees
only the reply. The frame is its own to change, and whoever called sees what it made of it.
-/

namespace SqlEngine

/-- Marshaled arguments: one entry per declared parameter, a variadic tail being one array. -/
structure CallFrame where
  params : List NativeValue
  defaultConnection : Option Connection := none

namespace CallFrame

def param (f : CallFrame) (i : Nat) : Except NativeFailure NativeValue :=
  match f.params[i]? with
  | some v => .ok v
  | none => .error ⟨"missing parameter " ++ Text.natText i, none⟩

/-- A parameter read as some kind of value. -/
def read {α : Type} (f : CallFrame) (i : Nat) (wanted : String) (view : NativeValue → Option α) :
    Except NativeFailure α := do
  let v ← f.param i
  match view v with
  | some a => return a
  | none => throw ⟨"parameter " ++ Text.natText i ++ " is not " ++ wanted ++ ": " ++ v.text, none⟩

def long (f : CallFrame) (i : Nat) : Except NativeFailure Int64 := f.read i "integral" (·.int64?)

def double (f : CallFrame) (i : Nat) : Except NativeFailure Binary64 := f.read i "numeric" (·.double?)

def string (f : CallFrame) (i : Nat) : Except NativeFailure String := f.read i "a string" (·.string?)

def array (f : CallFrame) (i : Nat) : Except NativeFailure (List NativeValue) :=
  f.read i "an array" (·.array?)

def connection (f : CallFrame) (i : Nat) : Except NativeFailure Connection :=
  f.read i "a connection" fun
    | .connection c => some c
    | _ => none

end CallFrame

/-- What can be asked of a connection. -/
inductive ConnectionAction where
  | autoCommit
  | setAutoCommit (b : Bool)
  | lastIdentity
  | setLastIdentity (v : Value)
  | isOpen
  | create (content : BridgeContent)

inductive Reply where
  | done
  | flag (b : Bool)
  | value (v : Value)
  | bridge (content : BridgeContent) (on : Connection)

/-- What a body leaves in the journal beside its result. -/
inductive Remark where
  | reply (r : Reply)
  | handle (c : Connection)
  | texts (plain debug : String)
  | kept (name : String) (c : Connection)

/-- The course of a native call: its result, or the next step and how it goes on after the reply. -/
inductive Interaction where
  | done (result : NativeValue)
  | fail (e : NativeFailure)
  | act (on : Connection) (action : ConnectionAction)
      (next : Except NativeFailure Reply → Interaction)
  | remark (r : Remark) (next : Interaction)
  | rewrite (frame : CallFrame) (next : Interaction)

namespace Interaction

def ofExcept : Except NativeFailure NativeValue → Interaction
  | .ok v => done v
  | .error e => fail e

/-- Goes on with what could be read, or fails. -/
def bind {α : Type} (a : Except NativeFailure α) (next : α → Interaction) : Interaction :=
  match a with
  | .ok a => next a
  | .error e => fail e

/-- Takes a step and ends the call where the step fails. -/
def step (on : Connection) (action : ConnectionAction) (next : Reply → Interaction) : Interaction :=
  act on action fun reply => bind reply next

end Interaction

end SqlEngine
