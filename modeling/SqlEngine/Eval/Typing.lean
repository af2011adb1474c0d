import SqlEngine.Eval

/-!
# Static types

The type that the values of an expression are known to have without evaluating it. Calls are resolved
for it, which may load an alias.
-/

namespace SqlEngine

namespace DataType

def isWhole : DataType → Bool
  | smallint | integer | bigint => true
  | _ => false

def isApproximate : DataType → Bool
  | real | double => true
  | _ => false

/-- The type of sums, differences and products. -/
def ofArithmetic? (l r : DataType) : Option DataType :=
  if !l.isNumeric || !r.isNumeric then none
  else if l.isWhole && r.isWhole then some (if l == bigint || r == bigint then bigint else integer)
  else if l.isApproximate || r.isApproximate then some double
  else some anyDecimal

end DataType

/-- The data type of a call, if it can be resolved. -/
def Run.callType (name : String) (count : Nat) : StateM Engine (Option DataType) := do
  match ← (Run.resolve name count).run with
  | .ok c => return c.dataType?
  | .error _ => return none

namespace Expr

/-- The type of arithmetic on two operands; the right one matters only if the left one has a type. -/
def arithmeticType (left right : StateM Engine (Option DataType)) :
    StateM Engine (Option DataType) := do
  match ← left with
  | none => return none
  | some l => return (← right).bind l.ofArithmetic?

def typeIn (s : Scope) : Expr → StateM Engine (Option DataType)
  | literal v => return if v.isNull then none else some v.type
  | column table name =>
    return (s.columnIndex table name).toOption.bind fun i => s.schema.columns[i]?.map (·.type)
  | cast _ type => return some type
  | binary op l r =>
    match op with
    | .concat => return some .anyVarchar
    | .plus | .minus | .times => arithmeticType (typeIn s l) (typeIn s r)
    | _ => return some .boolean
  | not _ | isNull .. | inList .. => return some .boolean
  | negate e => typeIn s e
  | call name args => Run.callType name args.length

end Expr

end SqlEngine
