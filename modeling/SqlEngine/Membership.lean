import SqlEngine.Eval
import SqlEngine.Index
import SqlEngine.Membership.ConstantSet

/-!
# Membership in constants

The test whether an operand is in a list of constants, with the constants brought to the type of the
operand beforehand. Constants with a null in them are not kept in the set; that there was one makes a
miss unknown.
-/

namespace SqlEngine

/-- `constants` are the constants as written. A test that is a `whenOperand` is applied to the operand
of a `CASE`. -/
structure Membership where
  left : Expr
  leftType : DataType
  negated : Bool
  whenOperand : Bool
  constants : List Expr
  set : ConstantSet := {}
  hasNull : Bool := false

namespace Membership

/-- Takes in the value of a constant. -/
def add (cmp : Value → Value → Ordering) (m : Membership) (v : Value) : Membership :=
  if v.containsNull then { m with hasNull := true } else { m with set := m.set.insert cmp v }

/-- The test of a value that is not null. -/
def answer (m : Membership) (found : Bool) : Value :=
  if !found && m.hasNull then .null else .boolean (m.negated != found)

def evaluate (cmp : Value → Value → Ordering) (m : Membership) (v : Value) : Value :=
  if v.containsNull then .null else m.answer (m.set.contains cmp v)

/-- Whether a branch of a `CASE` is taken. The test is put to the operand itself, or else its result for
`own` has to be the operand. -/
def matchesWhen (cmp : Value → Value → Ordering) (m : Membership) (operand own : Value) : Bool :=
  if m.whenOperand then (m.evaluate cmp operand).same (.boolean true)
  else
    let result := m.evaluate cmp own
    !result.isNull && !operand.isNull && cmp operand result == .eq

/-- The opposite test. -/
def negate? (m : Membership) : Option Membership :=
  if m.whenOperand then none else some { m with negated := !m.negated }

def text (m : Membership) : String :=
  "(" ++ m.left.text ++ (if m.negated then " NOT" else "") ++ " IN(" ++
    Expr.listText (m.constants.map (·.text)) ++ "))"

/-- The value of a constant in the type of the operand. -/
def constantValue (session : Nat) (type : DataType) (e : Expr) : Run Value := do
  Run.ofExcept ((← e.evalConstant (.constants session)).convertOrFail type)

/-- Takes in constants one after the other. -/
def addConstants (session : Nat) (m : Membership) : List Expr → Run Membership
  | [] => return m
  | e :: r => do
    let v ← constantValue session m.leftType e
    addConstants session (m.add (← get).compare v) r

/-- A test against at least two constants, each of which must have a value in the type of the
operand. -/
def build (session : Nat) (left : Expr) (leftType : DataType) (negated whenOperand : Bool)
    (constants : List Expr) : Run Membership :=
  if constants.length < 2 then throw (.tooFewConstants constants.length)
  else
    addConstants session { left := left, leftType := leftType, negated := negated,
                           whenOperand := whenOperand, constants := constants } constants

/-- The constant that an equality compares the operand with, where the test can take it in. -/
def mergeable? (m : Membership) (e : Expr) : Option Expr :=
  if m.negated || m.whenOperand then none
  else (e.ifEquals? m.left).filter (·.isConstant)

/-- A run that changes a test. -/
abbrev InPlace := RunWith Membership

/-- Takes in an equality that is another way for the test to hold, step by step, and tells whether it
did. -/
def mergeInPlace (session : Nat) (e : Expr) : InPlace Bool := do
  match (← getThe Membership).mergeable? e with
  | none => return false
  | some constant => do
    let v ← RunWith.onEngine (constantValue session (← getThe Membership).leftType constant)
    modifyThe Membership fun m => { m with constants := m.constants ++ [constant] }
    let engine ← RunWith.onEngine get
    modifyThe Membership fun m => m.add engine.compare v
    return true

/-- The test that has taken in the equality, if it did. -/
def merge (session : Nat) (m : Membership) (e : Expr) : Run (Option Membership) :=
  Run.ofOutcome fun engine =>
    match (mergeInPlace session e).outcome m engine with
    | (.ok true, grown, engine) => (.ok (some grown), engine)
    | (.ok false, _, engine) => (.ok none, engine)
    | (.error x, _, engine) => (.error x, engine)

theorem merge_eq (session : Nat) (m : Membership) (e : Expr) :
    m.merge session e =
      match m.mergeable? e with
      | none => pure none
      | some constant => do
        let v ← constantValue session m.leftType constant
        let grown := { m with constants := m.constants ++ [constant] }
        return some (grown.add (← get).compare v) := by
  refine Run.ext fun engine => ?_
  simp only [merge, mergeInPlace, Run.outcome_ofOutcome, RunWith.outcome_bind, RunWith.outcome_getThe]
  cases m.mergeable? e with
  | none => rfl
  | some k =>
    simp only [RunWith.outcome_bind, RunWith.outcome_getThe, RunWith.outcome_onEngine, Run.outcome_bind]
    rcases (constantValue session m.leftType k).outcome engine with ⟨r, f⟩
    cases r <;> rfl

def evaluateRow (m : Membership) (s : Scope) (row : Row) : Run Value := do
  let v ← m.left.eval s row
  return m.evaluate (← get).compare v

/-- The lookup that an index of the table can be asked for instead. -/
def lookup? (m : Membership) (optimizeInList : Bool) (f : TableFilter) : Option IndexLookup :=
  if m.negated || m.whenOperand then none
  else match m.left with
    | .column table name =>
      if f.owns table name && optimizeInList then some (.inList name m.constants) else none
    | _ => none

end Membership

end SqlEngine
