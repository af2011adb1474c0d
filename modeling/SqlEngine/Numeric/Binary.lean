/-!
# Binary floating-point numbers

Numbers of a binary interchange format as a sign and a magnitude, the magnitude being the encoding
without its sign bit. Magnitudes grow with the number they stand for, infinity and then the NaNs come
last. Arithmetic is exact on significands and then rounds once, to the nearest number and on a tie to
the even one.
-/

namespace SqlEngine

structure BinaryFormat where
  exponentBits : Nat
  fractionBits : Nat

namespace BinaryFormat

def single : BinaryFormat := ⟨8, 23⟩

def double : BinaryFormat := ⟨11, 52⟩

/-- Bits beside the sign bit. -/
def width (F : BinaryFormat) : Nat := F.exponentBits + F.fractionBits

def infinity (F : BinaryFormat) : Nat := (Nat.pow 2 F.exponentBits - 1) * Nat.pow 2 F.fractionBits

/-- The least positive number is two to this power. -/
def leastExponent (F : BinaryFormat) : Int := 2 - Nat.pow 2 (F.exponentBits - 1) - F.fractionBits

theorem infinity_lt (F : BinaryFormat) : F.infinity < Nat.pow 2 F.width := by
  have split : Nat.pow 2 F.width = Nat.pow 2 F.exponentBits * Nat.pow 2 F.fractionBits :=
    Nat.pow_add ..
  rw [split]
  exact Nat.mul_lt_mul_of_pos_right (Nat.sub_lt (Nat.two_pow_pos _) Nat.one_pos) (Nat.two_pow_pos _)

end BinaryFormat

/-- The quotient rounded to the nearest whole number, a tie to the even one. -/
def divNearestEven (n d : Nat) : Nat :=
  let q := n / d
  let r := n % d
  if 2 * r < d then q else if d < 2 * r then q + 1 else q + q % 2

/-- The fraction `n / (d * 2 ^ q)` as a numerator and a denominator. -/
def scaleDown (n d : Nat) (q : Int) : Nat × Nat :=
  if 0 ≤ q then (n, d * Nat.pow 2 q.toNat) else (n * Nat.pow 2 (-q).toNat, d)

namespace BinaryFormat

/-- The exponent of the last place that a number of size `n / d` keeps. -/
def lastPlace (F : BinaryFormat) (n d : Nat) : Int :=
  let q := (n.log2 : Int) - d.log2 - F.fractionBits
  let (a, b) := scaleDown n d (q - 1)
  max F.leastExponent (if a / b < Nat.pow 2 (F.fractionBits + 1) then q - 1 else q)

/-- Magnitude of the number nearest to `n / d`; what is too large becomes infinity. -/
def roundRatio (F : BinaryFormat) (n d : Nat) : Nat :=
  if n = 0 then 0
  else
    let q := F.lastPlace n d
    let (a, b) := scaleDown n d q
    min F.infinity ((q - F.leastExponent).toNat * Nat.pow 2 F.fractionBits + divNearestEven a b)

theorem roundRatio_lt (F : BinaryFormat) (n d : Nat) : F.roundRatio n d < Nat.pow 2 F.width := by
  unfold roundRatio
  split
  · exact Nat.two_pow_pos _
  · exact Nat.lt_of_le_of_lt (Nat.min_le_left _ _) F.infinity_lt

end BinaryFormat

structure Binary (F : BinaryFormat) where
  negative : Bool
  magnitude : Nat
  magnitude_lt : magnitude < Nat.pow 2 F.width
deriving DecidableEq

abbrev Binary32 := Binary .single
abbrev Binary64 := Binary .double

namespace Binary

variable {F G : BinaryFormat}

/-- The number with this encoding; bits beyond the format are dropped. -/
def ofBits (F : BinaryFormat) (bits : Nat) : Binary F :=
  ⟨bits / Nat.pow 2 F.width % 2 == 1, bits % Nat.pow 2 F.width, Nat.mod_lt _ (Nat.two_pow_pos _)⟩

def toBits (x : Binary F) : Nat := (if x.negative then Nat.pow 2 F.width else 0) + x.magnitude

def isNaN (x : Binary F) : Bool := F.infinity < x.magnitude

def isInfinite (x : Binary F) : Bool := x.magnitude == F.infinity

def isFinite (x : Binary F) : Bool := x.magnitude < F.infinity

def isZero (x : Binary F) : Bool := x.magnitude == 0

def zero (negative : Bool) : Binary F := ⟨negative, 0, Nat.two_pow_pos _⟩

def infinite (negative : Bool) : Binary F := ⟨negative, F.infinity, F.infinity_lt⟩

/-- The NaN whose fraction has only its first bit set. -/
def nan (negative : Bool) : Binary F :=
  ⟨negative, (F.infinity + Nat.pow 2 (F.fractionBits - 1)) % Nat.pow 2 F.width, Nat.mod_lt _ (Nat.two_pow_pos _)⟩

/-- What an operation without a meaningful result gives. -/
def invalid : Binary F := nan true

def neg (x : Binary F) : Binary F := { x with negative := !x.negative }

/-- A finite number is its significand times two to its exponent. -/
def significand (x : Binary F) : Nat :=
  let e := x.magnitude / Nat.pow 2 F.fractionBits
  let f := x.magnitude % Nat.pow 2 F.fractionBits
  if e = 0 then f else Nat.pow 2 F.fractionBits + f

def exponent (x : Binary F) : Int :=
  let e := x.magnitude / Nat.pow 2 F.fractionBits
  if e = 0 then F.leastExponent else F.leastExponent + (e - 1 : Nat)

/-- The signed significand that the number has at a smaller exponent. -/
def unitsAt (x : Binary F) (q : Int) : Int :=
  let n : Int := x.significand * Nat.pow 2 (x.exponent - q).toNat
  if x.negative then -n else n

def ofRatio (F : BinaryFormat) (negative : Bool) (n d : Nat) : Binary F :=
  ⟨negative, F.roundRatio n d, F.roundRatio_lt n d⟩

/-- The number nearest to `m * 2 ^ q`. -/
def ofScaled (F : BinaryFormat) (negative : Bool) (m : Nat) (q : Int) : Binary F :=
  let (n, d) := scaleDown m 1 (-q)
  ofRatio F negative n d

def ofInt (F : BinaryFormat) (n : Int) : Binary F := ofRatio F (n < 0) n.natAbs 1

/-- The same number in another format, rounded where it has to be. -/
def convert (G : BinaryFormat) (x : Binary F) : Binary G :=
  if x.isNaN then nan x.negative
  else if x.isInfinite then infinite x.negative
  else ofScaled G x.negative x.significand x.exponent

def add (x y : Binary F) : Binary F :=
  if x.isNaN then x
  else if y.isNaN then y
  else if x.isInfinite then
    if y.isInfinite && x.negative != y.negative then invalid else x
  else if y.isInfinite then y
  else
    let q := min x.exponent y.exponent
    let s := x.unitsAt q + y.unitsAt q
    if s = 0 then zero (x.negative && y.negative) else ofScaled F (s < 0) s.natAbs q

def sub (x y : Binary F) : Binary F :=
  if x.isNaN then x else if y.isNaN then y else add x y.neg

def mul (x y : Binary F) : Binary F :=
  let negative := x.negative != y.negative
  if x.isNaN then x
  else if y.isNaN then y
  else if x.isInfinite || y.isInfinite then
    if x.isZero || y.isZero then invalid else infinite negative
  else ofScaled F negative (x.significand * y.significand) (x.exponent + y.exponent)

def div (x y : Binary F) : Binary F :=
  let negative := x.negative != y.negative
  if x.isNaN then x
  else if y.isNaN then y
  else if x.isInfinite then if y.isInfinite then invalid else infinite negative
  else if y.isInfinite then zero negative
  else if y.isZero then if x.isZero then invalid else infinite negative
  else
    let (n, d) := scaleDown x.significand y.significand (y.exponent - x.exponent)
    ofRatio F negative n d

/-- The whole number nearest to a finite number, a half going away from zero. -/
def roundAway (x : Binary F) : Int :=
  let (n, d) := scaleDown x.significand 1 (-x.exponent)
  let r : Int := (2 * n + d) / (2 * d)
  if x.negative then -r else r

/-- Place of a number in the order where both zeros are one; NaNs have no place. -/
def rank (x : Binary F) : Int := if x.negative then -(x.magnitude : Int) else x.magnitude

def eq (x y : Binary F) : Bool := !x.isNaN && !y.isNaN && x.rank == y.rank

def compare? (x y : Binary F) : Option Ordering :=
  if x.isNaN || y.isNaN then none else some (Ord.compare x.rank y.rank)

/-- Place of an encoding in the total order: negative zero comes before zero, NaNs stand at the ends. -/
def totalRank (x : Binary F) : Int :=
  if x.negative then -(x.magnitude : Int) - 1 else x.magnitude

def totalCompare (x y : Binary F) : Ordering := Ord.compare x.totalRank y.totalRank

/-- Different encodings have different places. -/
theorem eq_of_totalRank_eq {x y : Binary F} (h : x.totalRank = y.totalRank) : x = y := by
  obtain ⟨s, m, _⟩ := x
  obtain ⟨t, n, _⟩ := y
  cases s <;> cases t <;> simp [totalRank] at h ⊢ <;> omega

theorem totalCompare_eq_iff {x y : Binary F} : x.totalCompare y = .eq ↔ x = y := by
  constructor
  · intro h
    exact eq_of_totalRank_eq (Int.compare_eq_eq.1 h)
  · rintro rfl
    exact Int.compare_eq_eq.2 rfl

example : (add (ofInt .double 1) (ofInt .double (-1))).toBits = 0 := by decide
example : (ofRatio .double false 1 10).toBits = 0x3FB999999999999A := by decide +kernel
example : (convert .single (ofRatio .double false 1 10)).toBits = 0x3DCCCCCD := by decide +kernel
example : (ofScaled .double false 1 (-1074)).toBits = 1 := by decide +kernel
example : (ofScaled .double false 1 1024).isInfinite = true := by decide +kernel

end Binary

end SqlEngine
