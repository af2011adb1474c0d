import SqlEngine.Text.Case
import SqlEngine.Value.Order

/-!
# Expressions

The syntax tree of SQL expressions, with the tests that depend on syntax alone: whether an expression
is constant, and whether two expressions name the same column.
-/

namespace SqlEngine

inductive BinaryOp where
  | plus
  | minus
  | times
  | equal
  | notEqual
  | less
  | lessEqual
  | greater
  | greaterEqual
  | and
  | or
  | concat
deriving DecidableEq

namespace BinaryOp

def symbol : BinaryOp → String
  | plus => "+"
  | minus => "-"
  | times => "*"
  | equal => "="
  | notEqual => "<>"
  | less => "<"
  | lessEqual => "<="
  | greater => ">"
  | greaterEqual => ">="
  | and => "AND"
  | or => "OR"
  | concat => "||"

def all : List BinaryOp :=
  [plus, minus, times, equal, notEqual, less, lessEqual, greater, greaterEqual, and, or, concat]

def ofSymbol? (s : String) : Option BinaryOp := all.find? (·.symbol == s)

def isComparison : BinaryOp → Bool
  | equal | notEqual | less | lessEqual | greater | greaterEqual => true
  | _ => false

theorem ofSymbol?_symbol (op : BinaryOp) : ofSymbol? op.symbol = some op := by
  cases op <;> decide

end BinaryOp

/-- A `call` names a function alias. With `negated`, the test is `IS NOT NULL` or `NOT IN`. -/
inductive Expr where
  | literal (v : Value)
  | column (table : Option String) (name : String)
  | binary (op : BinaryOp) (left right : Expr)
  | not (e : Expr)
  | negate (e : Expr)
  | call (name : String) (args : List Expr)
  | isNull (e : Expr) (negated : Bool)
  | inList (e : Expr) (values : List Expr) (negated : Bool)
  | cast (e : Expr) (type : DataType)

namespace Expr

instance : Inhabited Expr := ⟨literal .null⟩

mutual

/-- Whether an expression reads no row and calls no function. -/
def isConstant : Expr → Bool
  | literal _ => true
  | column .. | call .. => false
  | binary _ l r => l.isConstant && r.isConstant
  | not e | negate e | isNull e _ | cast e _ => e.isConstant
  | inList e values _ => e.isConstant && allConstant values

def allConstant : List Expr → Bool
  | [] => true
  | e :: r => e.isConstant && allConstant r

end

mutual

/-- Equality of syntax, where literals are the same as values are. -/
def same : Expr → Expr → Bool
  | literal v, literal w => v.same w
  | column s a, column t b => s == t && a == b
  | binary p a b, binary q c d => p == q && same a c && same b d
  | not a, not b => same a b
  | negate a, negate b => same a b
  | call f a, call g b => f == g && sameArgs a b
  | isNull a m, isNull b n => same a b && m == n
  | inList a u m, inList b v n => same a b && sameArgs u v && m == n
  | cast a s, cast b t => same a b && s == t
  | _, _ => false

def sameArgs : List Expr → List Expr → Bool
  | [], [] => true
  | a :: r, b :: s => same a b && sameArgs r s
  | _, _ => false

end

def columnName? : Expr → Option String
  | column _ name => some name
  | _ => none

def literal? : Expr → Option Value
  | literal v => some v
  | _ => none

/-- Whether two tables can be one: a missing table may be any. -/
def sameTable : Option String → Option String → Bool
  | some s, some t => Text.sameName s t
  | _, _ => true

/-- Columns are the same by name; anything else has to be the same syntax. -/
def sameColumn : Expr → Expr → Bool
  | column s a, column t b => sameTable s t && Text.sameName a b
  | a, b => a.same b

/-- The other side of an equality with `target` on one side; the left side is looked at first. -/
def ifEquals? (e target : Expr) : Option Expr :=
  match e with
  | binary .equal l r =>
    if l.sameColumn target then some r else if r.sameColumn target then some l else none
  | _ => none

theorem allConstant_iff (es : List Expr) : allConstant es = true ↔ ∀ e ∈ es, e.isConstant = true := by
  induction es with
  | nil => simp [allConstant]
  | cons e r ih => simp [allConstant, ih]

end Expr

end SqlEngine
