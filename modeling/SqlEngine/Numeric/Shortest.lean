import SqlEngine.Numeric.Binary
import SqlEngine.Text.Number
import SqlEngine.Text.Split

/-!
# Shortest decimal text of a binary number

Among the decimals that round to a given number, the one with the fewest digits, and of several such
the nearest. The interval of decimals that round to the number includes its ends when the significand
is even. For each count of digits only the two decimals around the number are tried.
-/

namespace SqlEngine

/-- What to take of two decimals that are equally near. -/
inductive Tie where
  | up
  | even

/-- The decimal `digits * 10 ^ exponent`. -/
structure Digits where
  digits : Nat
  exponent : Int
deriving DecidableEq

namespace Digits

/-- The decimal without zeros at the end, as long as `fuel` lasts. -/
def stripZeros : Nat → Digits → Digits
  | 0, d => d
  | fuel + 1, d =>
    if d.digits % 10 = 0 ∧ d.digits ≠ 0 then stripZeros fuel ⟨d.digits / 10, d.exponent + 1⟩ else d

/-- Written with a point and without an exponent. -/
def positional (d : Digits) : List Char :=
  let cs := Text.natDigits d.digits
  if 0 ≤ d.exponent then cs ++ List.replicate d.exponent.toNat '0'
  else
    let places := (-d.exponent).toNat
    let whole := cs.take (cs.length - places)
    let fraction := Text.padLeft '0' places (cs.drop (cs.length - places))
    (if whole = [] then ['0'] else whole) ++ '.' :: fraction

end Digits

/-- A positive number and the ends of the interval that rounds to it, over one denominator. -/
structure RoundingInterval where
  low : Nat
  value : Nat
  high : Nat
  denominator : Nat
  closed : Bool

namespace RoundingInterval

/-- Half the distance to the neighbours; below a power of two the neighbour is twice as near. -/
def of {F : BinaryFormat} (x : Binary F) : RoundingInterval :=
  let m := x.significand
  let below := if m = Nat.pow 2 F.fractionBits then 1 else 2
  let scale (n : Nat) : Nat := (scaleDown n 1 (2 - x.exponent)).1
  ⟨scale (4 * m - below), scale (4 * m), scale (4 * m + 2), (scaleDown 1 1 (2 - x.exponent)).2,
    m % 2 == 0⟩

/-- Numerator and denominator of `n / denominator` in units of `10 ^ g`. -/
def inUnits (r : RoundingInterval) (n : Nat) (g : Int) : Nat × Nat :=
  if 0 ≤ g then (n, r.denominator * Nat.pow 10 g.toNat) else (n * Nat.pow 10 (-g).toNat, r.denominator)

def contains (r : RoundingInterval) (t : Nat) (g : Int) : Bool :=
  let (lo, d) := r.inUnits r.low g
  let hi := (r.inUnits r.high g).1
  if r.closed then lo ≤ t * d && t * d ≤ hi else lo < t * d && t * d < hi

/-- The power of ten at the first digit: the first `c` at or below `start` with `10 ^ c ≤ value`. -/
def leadingPlace (r : RoundingInterval) : Nat → Int → Int
  | 0, c => c
  | fuel + 1, c =>
    let (n, d) := r.inUnits r.value c
    if d ≤ n then c else r.leadingPlace fuel (c - 1)

def firstPlace (r : RoundingInterval) : Int :=
  r.leadingPlace 5 (((r.value.log2 : Int) - r.denominator.log2) * 30103 / 100000 + 2)

/-- The nearest decimal in units of `10 ^ g` among those that round to the number. -/
def nearest? (r : RoundingInterval) (tie : Tie) (g : Int) : Option Digits :=
  let (n, d) := r.inUnits r.value g
  let t := n / d
  let rest := n % d
  let below := r.contains t g && t != 0
  let above := rest != 0 && r.contains (t + 1) g
  let upward := match Ord.compare (2 * rest) d, tie with
    | .lt, _ => false
    | .gt, _ => true
    | .eq, .up => true
    | .eq, .even => t % 2 == 1
  if below && above then some ⟨if upward then t + 1 else t, g⟩
  else if below then some ⟨t, g⟩
  else if above then some ⟨t + 1, g⟩
  else none

/-- Tries more and more digits, `fuel` times; the last try takes the decimal just below. -/
def search (r : RoundingInterval) (tie : Tie) : Nat → Int → Digits
  | 0, g =>
    let (n, d) := r.inUnits r.value g
    ⟨n / d, g⟩
  | fuel + 1, g => (r.nearest? tie g).getD (r.search tie fuel (g - 1))

end RoundingInterval

namespace Binary

variable {F : BinaryFormat}

/-- Seventeen digits tell all numbers of either format apart. -/
def shortest (tie : Tie) (x : Binary F) : Digits :=
  if x.isZero then ⟨0, 0⟩
  else
    let r := RoundingInterval.of x
    (r.search tie 17 r.firstPlace).stripZeros 20

/-- The text of a number: never an exponent, and no point behind a whole number. -/
def chars (x : Binary F) : List Char :=
  if x.isNaN then "NaN".toList
  else
    let body := if x.isInfinite then "inf".toList else (x.shortest .up).positional
    if x.negative then '-' :: body else body

def text (x : Binary F) : String := String.ofList x.chars

example : (ofRatio .double false 1 10).chars = "0.1".toList := by decide +kernel
example : (ofRatio .double false 1 3).chars = "0.3333333333333333".toList := by decide +kernel
example : (ofInt .double 1000000000000000000000).chars = "1000000000000000000000".toList := by decide +kernel
example : (ofRatio .single false 1 3).chars = "0.33333334".toList := by decide +kernel
example : (zero true : Binary64).chars = "-0".toList := by decide +kernel

end Binary

end SqlEngine
