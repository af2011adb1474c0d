import SqlEngine.Engine.Basic

/-!
# Connections of calls

A call adopts the connections that are made for it, and closes just these as it ends, however it ends.
Those that the evaluation of its arguments makes are in other hands.
-/

namespace SqlEngine

/-- A run on behalf of a call: beside the engine there are the connections that the call has adopted, in
the order in which it did. -/
abbrev CallRun (α : Type) := RunWith (List Connection) α

namespace CallRun

def adopt (c : Connection) : CallRun PUnit := modifyThe (List Connection) (· ++ [c])

/-- A new connection of the session, adopted by the call. -/
def connect (session : Nat) (mode : ConnectionMode) : CallRun Connection := do
  let c ← RunWith.onEngine (Run.connect session mode)
  adopt c
  return c

/-- Runs without automatic commits. On the way out, also of a failure, the session has its state back
and no ambient connection. -/
def isolated {α : Type} (session : Nat) (r : CallRun α) : CallRun α :=
  RunWith.ofOutcome fun adopted e =>
    let before := e.session session
    let (result, adopted, e) :=
      r.outcome adopted (e.updateSession session ({ · with autoCommit := false }))
    (result, adopted, e.updateSession session fun s =>
      { s with autoCommit := before.autoCommit, lastIdentity := before.lastIdentity, ambient := none })

/-- Closes on the way out, also of a failure, the connections that were adopted on the way. -/
def closing {α : Type} (r : CallRun α) : Run α :=
  Run.ofOutcome fun e =>
    let (result, adopted, e) := r.outcome [] e
    (result, e.closeAll adopted)

end CallRun

/-- Who calls: a session, perhaps only to look at the columns of results. -/
structure Caller where
  session : Nat
  columnList : Bool := false

namespace Caller

def mode (k : Caller) : ConnectionMode := if k.columnList then .metadataOnly else .full

/-- The connection that data of a call goes over: the first one that the call has, or one that is made
now. -/
def dataConnection (k : Caller) : CallRun Connection := do
  match (← getThe (List Connection)).head? with
  | some c => return c
  | none => CallRun.connect k.session .full

end Caller

end SqlEngine
