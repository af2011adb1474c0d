import SqlEngine.Decimal.Basic
import SqlEngine.Numeric.Binary

/-!
# Decimals and binary numbers

A decimal becomes a double by rounding its whole part and its fraction and then the sum, once more,
at the last decimal place. A double becomes the decimal of about fifteen significant digits next to
it, without zeros at the end; doubles of ninety-seven bits or more have none.
-/

namespace SqlEngine.Decimal

def magnitudeToDouble (d : Decimal) : Binary64 :=
  let unit := Nat.pow 10 d.scale
  let whole : Binary64 := .ofRatio .double false (d.mantissa / unit) 1
  let one : Binary64 := .ofRatio .double false unit 1
  let fraction := Binary.div (.ofRatio .double false (d.mantissa % unit) 1) one
  if fraction.isZero then whole
  else Binary.div (.ofInt .double (Binary.mul (Binary.add whole fraction) one).roundAway) one

/-- The double near to a decimal. Zero loses its sign only at scale zero. -/
def toDouble (d : Decimal) : Binary64 :=
  if d.scale = 0 then .ofInt .double d.unscaled
  else
    let x := d.magnitudeToDouble
    if d.negative then x.neg else x

/-- Turns `m * 2 ^ -fuel * 10 ^ e` into `m' * 10 ^ e'`: a factor two of `m` is cancelled, else `m` is
multiplied by five, and where that does not fit its last bit is dropped. -/
def trade : Nat → Nat → Int → Nat × Int
  | 0, m, e => (m, e)
  | fuel + 1, m, e =>
    if m % 2 = 0 then trade fuel (m / 2) (e + 1)
    else if m * 5 < 0x1000000000000000000000000 then trade fuel (m * 5) e
    else trade fuel (m / 2) (e + 1)

/-- Division by ten with a remainder of five or more rounded up. -/
def dropDigit (m : Nat) : Nat := if 5 ≤ m % 10 then m / 10 + 1 else m / 10

/-- Drops `fuel` digits; what vanishes is zero without a scale. -/
def dropDigits : Nat → Nat → Int → Nat × Int
  | 0, m, e => (m, e)
  | fuel + 1, m, e => if m < 10 then (0, 0) else dropDigits fuel (dropDigit m) (e + 1)

/-- Drops digits behind the point until fifty-two bits are enough; `fuel` counts places. -/
def narrow : Nat → Nat → Nat × Nat
  | 0, m => (m, 0)
  | places + 1, m => if 0x10000000000000 ≤ m then narrow places (dropDigit m) else (m, places + 1)

def stripZeros : Nat → Nat → Nat × Nat
  | 0, m => (m, 0)
  | places + 1, m => if m % 10 = 0 then stripZeros places (m / 10) else (m, places + 1)

/-- The decimal next to a double; the sign stays, that of zero too. -/
def ofDouble? (x : Binary64) : Option Decimal :=
  if !x.isFinite then none
  else if x.isZero then some { zero with negative := x.negative }
  else if 0 ≤ x.exponent then ofParts? x.negative (x.significand * Nat.pow 2 x.exponent.toNat) 0
  else
    let (m, e) := trade (-x.exponent).toNat x.significand x.exponent
    let (m, e) := dropDigits (-e - 28).toNat m e
    let (m, places) := narrow (-e).toNat m
    let (m, places) := stripZeros places m
    ofParts? x.negative m places

example : (ofDouble? (.ofRatio .double false 1 10)).map (fun d => (d.mantissa, d.scale)) =
    some (1, 1) := by decide +kernel
example : (ofDouble? (.ofRatio .double false 2675 1000)).map (fun d => (d.mantissa, d.scale)) =
    some (2675, 3) := by decide +kernel
example : (ofParts? false 1 1).map (fun d => d.toDouble.toBits) = some 0x3FB999999999999A := by
  decide +kernel

end SqlEngine.Decimal
