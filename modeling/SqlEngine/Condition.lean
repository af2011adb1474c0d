import SqlEngine.Eval.Typing
import SqlEngine.Membership

/-!
# Conditions

Predicates after optimization. Lists of constants become membership tests, the negation of such a test
is another one, and an equality beside a test in a disjunction is taken into it. Everything else stays
an expression.
-/

namespace SqlEngine

inductive Condition where
  | member (m : Membership)
  | and (left right : Condition)
  | or (left right : Condition)
  | expr (e : Expr)

namespace Condition

def text : Condition → String
  | member m => m.text
  | and l r => "(" ++ l.text ++ " AND " ++ r.text ++ ")"
  | or l r => "(" ++ l.text ++ " OR " ++ r.text ++ ")"
  | expr e => e.text

def member? : Condition → Option Membership
  | member m => some m
  | _ => none

def evaluate (s : Scope) (row : Row) : Condition → Run Value
  | member m => m.evaluateRow s row
  | and l r => Run.conjoin (l.evaluate s row) (r.evaluate s row)
  | or l r => Run.disjoin (l.evaluate s row) (r.evaluate s row)
  | expr e => e.eval s row

/-- A disjunction with a test and an expression, which the test may take in. -/
def mergeInto (session : Nat) (m : Membership) (e : Expr) : Run Condition := do
  match ← m.merge session e with
  | some m => return member m
  | none => return or (member m) (expr e)

/-- A disjunction; a test comes first if something could be taken into it. -/
def disjunction (session : Nat) (l r : Condition) : Run Condition := do
  if (← get).settings.optimizeOr then
    match l, r with
    | member m, expr e | expr e, member m => mergeInto session m e
    | l, r => return or l r
  else return or l r

/-- A list of constants as a test, if its operand has a type. -/
def ofList (s : Scope) (left : Expr) (constants : List Expr) (negated : Bool) : Run Condition := do
  match ← liftM (left.typeIn s) with
  | some type => return member (← Membership.build s.session left type negated false constants)
  | none => return expr (.inList left constants negated)

/-- The condition of an expression. -/
def ofExpr (s : Scope) : Expr → Run Condition
  | .binary .and l r => do
    let l ← ofExpr s l
    return and l (← ofExpr s r)
  | .binary .or l r => do
    let l ← ofExpr s l
    disjunction s.session l (← ofExpr s r)
  | .not e => do
    match (← ofExpr s e).member?.bind (·.negate?) with
    | some m => return member m
    | none => return expr (.not e)
  | .inList left constants negated =>
    if 2 ≤ constants.length ∧ Expr.allConstant constants then ofList s left constants negated
    else return expr (.inList left constants negated)
  | e => return expr e

/-- A column of the table and the constant that an equality asks of it. -/
def columnEquality? (f : TableFilter) : Expr → Option (String × Expr)
  | .binary .equal l r =>
    let sides := match l, r with
      | .column table name, value => if value.isConstant then some (table, name, value) else none
      | value, .column table name => if value.isConstant then some (table, name, value) else none
      | _, _ => none
    sides.bind fun (table, name, value) => if f.owns table name then some (name, value) else none
  | _ => none

/-- The filter with the lookups that the condition implies. A disjunction implies none. -/
def offerLookups (optimizeInList : Bool) (f : TableFilter) : Condition → TableFilter
  | member m => match m.lookup? optimizeInList f with
    | some l => f.offer l
    | none => f
  | and l r => r.offerLookups optimizeInList (l.offerLookups optimizeInList f)
  | or .. => f
  | expr e => match columnEquality? f e with
    | some (name, value) => f.offer (.equality name value)
    | none => f

end Condition

end SqlEngine
