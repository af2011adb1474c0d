import SqlEngine.EngineError
import SqlEngine.Expr.Basic

/-!
# Arithmetic

Sums, differences, products, negation and concatenation of values. Whole numbers give whole numbers,
anything with an approximate number gives a double, other exact numbers give decimals, and a result
that does not fit its type is an error.
-/

namespace SqlEngine

/-- What an arithmetic operator computes; other operators compute nothing. -/
def BinaryOp.arithmetic? {α β : Type} (add sub mul : α → α → β) : BinaryOp → Option (α → α → β)
  | plus => some add
  | minus => some sub
  | times => some mul
  | _ => none

namespace Value

def arithmeticOverflow (op : BinaryOp) (l r : Value) : EngineError :=
  .value (.outOfRange (l.text ++ " " ++ op.symbol ++ " " ++ r.text) "numeric result")

def mismatch (op : BinaryOp) (l r : Value) : EngineError := .typeMismatch l op.symbol r

def orElseThrow {α : Type} (e : EngineError) : Option α → Except EngineError α
  | some a => .ok a
  | none => .error e

/-- The smallest type that whole numbers are computed in, besides `bigint`. -/
def ofInteger? (n : Int) : Option Value :=
  if -0x80000000 ≤ n ∧ n < 0x80000000 then some (integer (Int32.ofInt n)) else none

def ofBigint? (n : Int) : Option Value :=
  if -0x8000000000000000 ≤ n ∧ n < 0x8000000000000000 then some (bigint (Int64.ofInt n)) else none

def isBigint : Value → Bool
  | bigint _ => true
  | _ => false

/-- Whole numbers give an `integer`, or a `bigint` where one takes part. -/
def wholeArithmetic (op : BinaryOp) (l r : Value) : Except EngineError Value := do
  let compute ← orElseThrow (mismatch op l r) (op.arithmetic? Int.add Int.sub Int.mul)
  let a ← orElseThrow (mismatch op l r) l.toInt64?
  let b ← orElseThrow (mismatch op l r) r.toInt64?
  let n := compute a.toInt b.toInt
  orElseThrow (arithmeticOverflow op l r)
    (if l.isBigint || r.isBigint then ofBigint? n else ofInteger? n)

def approximateArithmetic (op : BinaryOp) (l r : Value) : Except EngineError Value := do
  let compute ← orElseThrow (mismatch op l r)
    (op.arithmetic? (α := Binary64) Binary.add Binary.sub Binary.mul)
  let a ← orElseThrow (mismatch op l r) l.toDouble?
  let b ← orElseThrow (mismatch op l r) r.toDouble?
  return double (compute a b)

def exactArithmetic (op : BinaryOp) (l r : Value) : Except EngineError Value := do
  let compute ← orElseThrow (mismatch op l r)
    (op.arithmetic? Decimal.add? Decimal.sub? Decimal.mul?)
  let a ← orElseThrow (mismatch op l r) l.toDecimal?
  let b ← orElseThrow (mismatch op l r) r.toDecimal?
  return decimal (← orElseThrow (arithmeticOverflow op l r) (compute a b))

def arithmetic (op : BinaryOp) (l r : Value) : Except EngineError Value :=
  if l.isNull || r.isNull then .ok null
  else if l.isIntegral && r.isIntegral then wholeArithmetic op l r
  else if l.isApproximate || r.isApproximate then approximateArithmetic op l r
  else exactArithmetic op l r

def negationOverflow (v : Value) : EngineError := .value (.outOfRange ("-" ++ v.text) v.typeName)

/-- Negation keeps the type. The least whole number of each type has no negation. -/
def negated (v : Value) : Except EngineError Value :=
  match v with
  | null => .ok null
  | smallint n =>
    if n = Int16.minValue then .error v.negationOverflow else .ok (smallint (-n))
  | integer n =>
    if n = Int32.minValue then .error v.negationOverflow else .ok (integer (-n))
  | bigint n =>
    if n = Int64.minValue then .error v.negationOverflow else .ok (bigint (-n))
  | decimal d => .ok (decimal d.neg)
  | real x => .ok (real x.neg)
  | double x => .ok (double x.neg)
  | v => .error (.typeMismatch null "-" v)

/-- The texts of two values, one behind the other. -/
def concatenated (l r : Value) : Value :=
  if l.isNull || r.isNull then null else varchar (l.text ++ r.text)

end Value

end SqlEngine
