import SqlEngine.EngineError
import SqlEngine.Expr.Basic
import SqlEngine.Value.Convert

/-!
# Comparison operators

Comparing two values for an operator. Null on either side leaves the result open, and text compared
with another type is first converted to the type of the other side.
-/

namespace SqlEngine

/-- Whether an order satisfies a comparison operator; other operators have no answer. -/
def BinaryOp.accepts? : BinaryOp → Ordering → Option Bool
  | equal, o => some (o == .eq)
  | notEqual, o => some (o != .eq)
  | less, o => some (o == .lt)
  | lessEqual, o => some (o != .gt)
  | greater, o => some (o == .gt)
  | greaterEqual, o => some (o != .lt)
  | _, _ => none

namespace Value

def convertOrFail (v : Value) (target : DataType) : Except EngineError Value :=
  (v.convert target).mapError .value

/-- The order of two values that are not null. -/
def orderBy (cmp : Value → Value → Ordering) (l r : Value) : Except EngineError Ordering :=
  match l.isCharacter, r.isCharacter with
  | true, false => do return cmp (← l.convertOrFail r.type) r
  | false, true => do return cmp l (← r.convertOrFail l.type)
  | _, _ => .ok (cmp l r)

def compareBy (cmp : Value → Value → Ordering) (op : BinaryOp) (l r : Value) :
    Except EngineError Value :=
  if l.isNull || r.isNull then .ok null
  else do
    let o ← orderBy cmp l r
    match op.accepts? o with
    | some b => return boolean b
    | none => throw (.typeMismatch l op.symbol r)

end Value

end SqlEngine
