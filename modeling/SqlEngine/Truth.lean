import SqlEngine.EngineError

/-!
# Three-valued logic

Truth as the connectives of conditions see it: a condition holds, fails, or is unknown. Conjunction is
the lesser and disjunction the greater of two truths in that order, and null stands for the unknown.
-/

namespace SqlEngine

inductive Truth where
  | fails
  | unknown
  | holds
deriving DecidableEq

namespace Truth

def ofBool (b : Bool) : Truth := if b then holds else fails

/-- One failing side is enough. -/
def and : Truth → Truth → Truth
  | fails, _ | _, fails => fails
  | holds, holds => holds
  | _, _ => unknown

/-- One holding side is enough. -/
def or : Truth → Truth → Truth
  | holds, _ | _, holds => holds
  | fails, fails => fails
  | _, _ => unknown

def not : Truth → Truth
  | fails => holds
  | unknown => unknown
  | holds => fails

def toValue : Truth → Value
  | fails => .boolean false
  | unknown => .null
  | holds => .boolean true

/-- The truth of null, truth values and numbers. -/
def ofValue? (v : Value) : Option Truth :=
  if v.isNull then some unknown else v.truth?.map ofBool

theorem ofValue?_toValue (t : Truth) : ofValue? t.toValue = some t := by
  cases t <;> rfl

theorem not_and (s t : Truth) : (s.and t).not = s.not.or t.not := by
  cases s <;> cases t <;> rfl

/-- The truth of an operand of a connective; `op` is how the connective is written. -/
def operand (op : String) (v : Value) : Except EngineError Truth :=
  match ofValue? v with
  | some t => .ok t
  | none => .error (.typeMismatch v op .null)

end Truth

namespace Value

def conjoin (l r : Value) : Except EngineError Value := do
  let s ← Truth.operand "AND" l
  let t ← Truth.operand "AND" r
  return (s.and t).toValue

def disjoin (l r : Value) : Except EngineError Value := do
  let s ← Truth.operand "OR" l
  let t ← Truth.operand "OR" r
  return (s.or t).toValue

def logicalNot (v : Value) : Except EngineError Value := do
  return (← Truth.operand "NOT" v).not.toValue

end Value

end SqlEngine
