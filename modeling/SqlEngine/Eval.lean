import SqlEngine.Call
import SqlEngine.Engine.Registry
import SqlEngine.Schema
import SqlEngine.Truth
import SqlEngine.Value.Arithmetic

/-!
# Evaluation

The value of an expression on a row. Operands are evaluated from left to right; a conjunction whose
left side is false and a disjunction whose left side is true do not look at the right one, and a list
is searched only up to the first match. Expressions may be nested up to a limit.
-/

namespace SqlEngine

/-- Where an expression is evaluated: for a session, over the columns of a table that may have an
alias. `columnList` asks for native calls that only look at result columns. -/
structure Scope where
  session : Nat
  schema : Schema := .empty
  tableAlias : Option String := none
  columnList : Bool := false
  depthLimit : Option Nat := some 200

namespace Scope

/-- The scope of constants. -/
def constants (session : Nat) : Scope := { session := session }

def caller (s : Scope) : Caller := ⟨s.session, s.columnList⟩

def isOwnTable (s : Scope) (table : Option String) : Bool := s.schema.answersTo s.tableAlias table

/-- The place of a column in rows. -/
def columnIndex (s : Scope) (table : Option String) (column : String) : Except EngineError Nat :=
  match if s.isOwnTable table then s.schema.indexOf? column else none with
  | some i => .ok i
  | none => .error (.columnNotFound column (table.getD s.schema.name))

/-- The value of a column in a row that may be too short. -/
def column (s : Scope) (row : Row) (table : Option String) (column : String) :
    Except EngineError Value := do
  match row[← s.columnIndex table column]? with
  | some v => return v
  | none => throw (.columnNotFound column s.schema.name)

/-- Goes on unless the limit is passed. -/
def atDepth {α : Type} (s : Scope) (depth : Nat) (r : Run α) : Run α :=
  match s.depthLimit with
  | some limit => if limit < depth then throw (.tooDeep depth limit) else r
  | none => r

end Scope

namespace Run

def compare (op : BinaryOp) (l r : Value) : Run Value := do
  ofExcept (Value.compareBy (← get).compare op l r)

def conjoin (left right : Run Value) : Run Value := do
  let l ← left
  if l.same (.boolean false) then return l else ofExcept (l.conjoin (← right))

def disjoin (left right : Run Value) : Run Value := do
  let l ← left
  if l.same (.boolean true) then return l else ofExcept (l.disjoin (← right))

def binary (op : BinaryOp) (left right : Run Value) : Run Value :=
  match op with
  | .and => conjoin left right
  | .or => disjoin left right
  | op => do
    let l ← left
    let r ← right
    if op.isComparison then compare op l r
    else if op = .concat then return l.concatenated r
    else ofExcept (Value.arithmetic op l r)

/-- Searches a list for a value that is not null. Nulls on the way leave a miss open. -/
def search (negated : Bool) (v : Value) (sawNull : Bool) : List (Run Value) → Run Value
  | [] => return if sawNull then .null else .boolean negated
  | item :: rest => do
    let w ← item
    if w.isNull then search negated v true rest
    else if (← compare .equal v w).same (.boolean true) then return .boolean (!negated)
    else search negated v sawNull rest

def inList (negated : Bool) (left : Run Value) (items : List (Run Value)) : Run Value := do
  let v ← left
  if v.isNull then return .null else search negated v false items

def call (k : Caller) (name : String) (args : List (Run Value)) : Run Value := do
  (← resolve name args.length).invoke k args

end Run

namespace Expr

mutual

/-- Evaluation at a depth, which counts from zero at the root. -/
def evalAt (s : Scope) (row : Row) (depth : Nat) : Expr → Run Value
  | literal v => s.atDepth depth (pure v)
  | column table name => s.atDepth depth (Run.ofExcept (s.column row table name))
  | binary op l r =>
    s.atDepth depth (Run.binary op (evalAt s row (depth + 1) l) (evalAt s row (depth + 1) r))
  | not e => s.atDepth depth do Run.ofExcept (← evalAt s row (depth + 1) e).logicalNot
  | negate e => s.atDepth depth do Run.ofExcept (← evalAt s row (depth + 1) e).negated
  | isNull e negated =>
    s.atDepth depth do return .boolean ((← evalAt s row (depth + 1) e).isNull != negated)
  | inList e values negated =>
    s.atDepth depth
      (Run.inList negated (evalAt s row (depth + 1) e) (evalEach s row (depth + 1) values))
  | cast e type =>
    s.atDepth depth do Run.ofExcept ((← evalAt s row (depth + 1) e).convertOrFail type)
  | call name args =>
    s.atDepth depth (Run.call s.caller name (evalEach s row (depth + 1) args))

/-- One computation for each expression. -/
def evalEach (s : Scope) (row : Row) (depth : Nat) : List Expr → List (Run Value)
  | [] => []
  | e :: r => evalAt s row depth e :: evalEach s row depth r

end

def eval (s : Scope) (row : Row) (e : Expr) : Run Value := e.evalAt s row 0

/-- Evaluation without a row. -/
def evalConstant (s : Scope) (e : Expr) : Run Value := e.eval s []

end Expr

end SqlEngine
