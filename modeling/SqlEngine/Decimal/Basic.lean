import SqlEngine.Numeric.Binary
import SqlEngine.Text.Number

/-!
# Decimals

A decimal is a sign, a whole number of less than ninety-six bits and the count of its digits behind
the point. Equal numbers may differ in scale, and zero may carry a sign; `compare` looks at the number
alone. Arithmetic is exact where the result fits and otherwise keeps as many places as fit, rounding
to nearest with ties to the even digit.
-/

namespace SqlEngine

structure Decimal where
  negative : Bool
  mantissa : Nat
  scale : Nat
  mantissa_lt : mantissa < 0x1000000000000000000000000
  scale_le : scale ≤ 28
deriving DecidableEq

namespace Decimal

def ofParts? (negative : Bool) (mantissa scale : Nat) : Option Decimal :=
  if h : mantissa < 0x1000000000000000000000000 ∧ scale ≤ 28 then some ⟨negative, mantissa, scale, h.1, h.2⟩ else none

def zero : Decimal := ⟨false, 0, 0, by decide, by decide⟩

def ofInt (n : Int) (h : n.natAbs < 0x1000000000000000000000000) : Decimal := ⟨n < 0, n.natAbs, 0, h, Nat.zero_le _⟩

def ofBool (b : Bool) : Decimal := if b then ofInt 1 (by decide) else zero

def ofInt64 (n : Int64) : Decimal :=
  ofInt n.toInt (by have := n.toInt_lt; have := n.le_toInt; omega)

/-- The signed whole number before the point is set. -/
def unscaled (d : Decimal) : Int := if d.negative then -(d.mantissa : Int) else d.mantissa

def isZero (d : Decimal) : Bool := d.mantissa == 0

def isWhole (d : Decimal) : Bool := d.mantissa % Nat.pow 10 d.scale == 0

/-- The whole part; the digits behind the point are dropped. -/
def truncate (d : Decimal) : Int := d.unscaled.tdiv (Nat.pow 10 d.scale)

def toInt64? (d : Decimal) : Option Int64 :=
  let n := d.truncate
  if -0x8000000000000000 ≤ n ∧ n < 0x8000000000000000 then some (Int64.ofInt n) else none

/-- Order by value. -/
def compare (a b : Decimal) : Ordering :=
  Ord.compare (a.unscaled * Nat.pow 10 b.scale) (b.unscaled * Nat.pow 10 a.scale)

def sameValue (a b : Decimal) : Bool := a.compare b == .eq

/-- Changes the sign, of zero too. -/
def neg (d : Decimal) : Decimal := { d with negative := !d.negative }

theorem halfUp_le {m unit : Nat} (h : 0 < unit) : (2 * m + unit) / (2 * unit) ≤ m := by
  refine Nat.le_of_lt_succ (Nat.div_lt_of_lt_mul ?_)
  have grown : m ≤ unit * m := Nat.le_mul_of_pos_left m h
  have split : 2 * unit * m.succ = 2 * (unit * m) + 2 * unit := by
    rw [Nat.mul_assoc, Nat.mul_succ, Nat.mul_add]
  omega

/-- Rounds to at most `places` digits behind the point, a half going away from zero. -/
def roundAway (d : Decimal) (places : Nat) : Decimal :=
  if h : places < d.scale then
    if d.mantissa = 0 then { d with scale := places, scale_le := by have := d.scale_le; omega }
    else
      let unit := Nat.pow 10 (d.scale - places)
      let m := (2 * d.mantissa + unit) / (2 * unit)
      have small : m < 0x1000000000000000000000000 :=
        Nat.lt_of_le_of_lt (halfUp_le (Nat.pow_pos (by decide))) d.mantissa_lt
      ⟨d.negative && m != 0, m, places, small, by have := d.scale_le; omega⟩
  else d

/-- Appends up to `places` zeros behind the point, as many as fit. -/
def appendZeros : Nat → Decimal → Decimal
  | 0, d => d
  | places + 1, d =>
    if h : d.mantissa * 10 < 0x1000000000000000000000000 ∧ d.scale < 28 then
      appendZeros places ⟨d.negative, d.mantissa * 10, d.scale + 1, h.1, h.2⟩
    else d

/-- Rounds or pads to `scale` digits behind the point. -/
def rescale (d : Decimal) (scale : Nat) : Decimal :=
  let r := d.roundAway scale
  appendZeros (scale - r.scale) r

/-- Drops digits behind the point, at least `drop` and at most `drop + fuel`, until the rest fits. -/
def fitFrom (negative : Bool) (m scale : Nat) : Nat → Nat → Option Decimal
  | 0, _ => none
  | fuel + 1, drop =>
    let r := divNearestEven m (Nat.pow 10 drop)
    match ofParts? negative r (scale - drop) with
    | some d => some d
    | none => fitFrom negative m scale fuel (drop + 1)

/-- The decimal nearest to `m / 10 ^ scale` that keeps as many places as fit. -/
def fit? (negative : Bool) (m scale : Nat) : Option Decimal :=
  let drop := scale - 28
  fitFrom negative m scale (scale + 1 - drop) drop

/-- The sum; a zero operand leaves the other one as it is. -/
def add? (a b : Decimal) : Option Decimal :=
  if a.isZero then some b
  else if b.isZero then some a
  else
    let scale := max a.scale b.scale
    let s := a.unscaled * Nat.pow 10 (scale - a.scale) + b.unscaled * Nat.pow 10 (scale - b.scale)
    fit? (s < 0) s.natAbs scale

def sub? (a b : Decimal) : Option Decimal :=
  if b.isZero && a.isZero then some b else add? a b.neg

/-- Takes the sign off zero. -/
def unsignedZero (d : Decimal) : Decimal := { d with negative := d.negative && d.mantissa != 0 }

def isNarrow (d : Decimal) : Bool := d.mantissa < 0x100000000

/-- The product. One with a zero is plain zero, and so is one of two factors of at most thirty-two bits
with more than forty-seven digits behind the point. A product of such factors that rounds to zero has no
sign, that of wider ones keeps it. -/
def mul? (a b : Decimal) : Option Decimal :=
  let product := fit? (a.negative != b.negative) (a.mantissa * b.mantissa) (a.scale + b.scale)
  if a.isZero || b.isZero then some zero
  else if !(a.isNarrow && b.isNarrow) then product
  else if 47 < a.scale + b.scale then some zero
  else product.map unsignedZero

example : (ofParts? false 15 1).map (·.roundAway 0) = ofParts? false 2 0 := by decide
example : (ofParts? true 4 1).map (·.roundAway 0) = ofParts? false 0 0 := by decide
example : (ofParts? false 150 2).map (·.truncate) = some 1 := by decide

end Decimal

end SqlEngine
