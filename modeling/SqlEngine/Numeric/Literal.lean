import SqlEngine.Numeric.Binary
import SqlEngine.Text.Case
import SqlEngine.Text.Number
import SqlEngine.Text.Split

/-!
# Reading binary numbers

Decimal text with an optional point and exponent, or one of the words for infinity and not-a-number,
read as the nearest binary number.
-/

namespace SqlEngine

/-- A decimal as it stands in text: all digits without the point, and the power of ten to apply. -/
structure DecimalLiteral where
  negative : Bool
  digits : Nat
  exponent : Int

namespace DecimalLiteral

/-- Takes the sign off. -/
def splitSign : List Char → Bool × List Char
  | '-' :: r => (true, r)
  | '+' :: r => (false, r)
  | cs => (false, cs)

/-- Digits with at most one point; at least one digit stands before or behind it. -/
def readMantissa? (cs : List Char) : Option (Nat × Int) :=
  match Text.splitOnce? '.' cs with
  | none => (Text.readNat? cs).map fun n => (n, 0)
  | some (whole, fraction) =>
    if whole = [] && fraction = [] then none
    else (Text.readDigits? 0 (whole ++ fraction)).map fun n => (n, -(fraction.length : Int))

/-- Digits, then perhaps an exponent. -/
def read? (cs : List Char) : Option DecimalLiteral := do
  let (negative, body) := splitSign cs
  match Text.splitOnce? 'e' (body.map Text.lowerAscii) with
  | none =>
    let (n, e) ← readMantissa? body
    return ⟨negative, n, e⟩
  | some (mantissa, exponent) =>
    let (n, e) ← readMantissa? mantissa
    let shift ← Text.readSigned? exponent
    return ⟨negative, n, e + shift⟩

end DecimalLiteral

namespace Binary

/-- The number nearest to `n * 10 ^ e`. Beyond four hundred places every format has run out. -/
def ofDecimal (F : BinaryFormat) (negative : Bool) (n : Nat) (e : Int) : Binary F :=
  let size : Int := (Text.digitCount n : Int) + e
  if n = 0 || size < -400 then zero negative
  else if 400 < size then infinite negative
  else if 0 ≤ e then ofRatio F negative (n * Nat.pow 10 e.toNat) 1
  else ofRatio F negative n (Nat.pow 10 (-e).toNat)

def ofChars? (F : BinaryFormat) (cs : List Char) : Option (Binary F) :=
  let (negative, body) := DecimalLiteral.splitSign cs
  let word := String.ofList (body.map Text.lowerAscii)
  if word = "inf" || word = "infinity" then some (infinite negative)
  else if word = "nan" then some (nan negative)
  else (DecimalLiteral.read? cs).map fun d => ofDecimal F d.negative d.digits d.exponent

def ofText? (F : BinaryFormat) (s : String) : Option (Binary F) := ofChars? F s.toList

example : (ofChars? .double "1e-1".toList).map toBits = some 0x3FB999999999999A := by decide +kernel
example : (ofChars? .double "-.5".toList).map toBits = some 0xBFE0000000000000 := by decide +kernel
example : (ofChars? .double "1e999".toList).map isInfinite = some true := by decide +kernel
example : (ofChars? .double ".".toList).isNone = true := by decide +kernel

end Binary

end SqlEngine
