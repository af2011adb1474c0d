import SqlEngine.Decimal.Basic
import SqlEngine.Text.Split

/-!
# Decimal text

Writing keeps every digit, so the scale can be read off the text. Reading takes an optional sign,
digits with at most one point, underscores behind the first digit, and an optional exponent. Digits
behind the point that no longer fit are rounded away, a half going up, and so are those that an exponent
moves beyond the last place.
-/

namespace SqlEngine.Decimal

def chars (d : Decimal) : List Char :=
  let digits := Text.padLeft '0' (d.scale + 1) (Text.natDigits d.mantissa)
  let whole := digits.take (digits.length - d.scale)
  let body := if d.scale = 0 then whole else whole ++ '.' :: digits.drop (digits.length - d.scale)
  if d.negative then '-' :: body else body

def text (d : Decimal) : String := String.ofList d.chars

/-- The part of a decimal that has been read: its digits, how many of them stand behind the point,
and whether the point and a first digit have been seen. -/
structure Reading where
  mantissa : Nat
  scale : Nat
  point : Bool
  started : Bool

namespace Reading

def start : Reading := ⟨0, 0, false, false⟩

def push (s : Reading) (digit : Nat) : Reading :=
  { s with mantissa := 10 * s.mantissa + digit, scale := if s.point then s.scale + 1 else s.scale,
           started := true }

/-- Rounds by the first digit that does not fit. If that fills the last bit, one more place goes. -/
def roundBy (s : Reading) (digit : Nat) : Option (Nat × Nat) :=
  if digit < 5 then some (s.mantissa, s.scale)
  else if s.mantissa + 1 < 0x1000000000000000000000000 then some (s.mantissa + 1, s.scale)
  else if s.scale = 0 then none
  else some ((s.mantissa + 5) / 10, s.scale - 1)

/-- A digit or an underscore, which counts as a zero. -/
def tailDigit? (c : Char) : Option Nat := if c = '_' then some 0 else Text.digitValue? c

/-- Whether the digits read so far reach for more than sixty-four bits. -/
def isWide (s : Reading) : Bool := 18446744073709549060 ≤ s.mantissa

/-- Ends the reading where the next digit does not fit any more. A wide reading looks behind underscores
for the digit to round by. -/
def cutOff (s : Reading) (rest : List Char) : Option (Nat × Nat) := do
  let tail ← (if s.isWide then rest.dropWhile (· == '_') else rest).mapM tailDigit?
  s.roundBy (tail.headD 0)

def finish (s : Reading) : List Char → Option (Nat × Nat)
  | [] => if s.started then some (s.mantissa, s.scale) else none
  | c :: r =>
    if s.point && s.scale == 28 then s.cutOff (c :: r)
    else match Text.digitValue? c with
      | some digit =>
        if 10 * s.mantissa + digit < 0x1000000000000000000000000 then (s.push digit).finish r
        else if s.point then s.cutOff (c :: r)
        else none
      | none =>
        if c = '.' && !s.point then { s with point := true }.finish r
        else if c = '_' && s.started then s.finish r
        else none

end Reading

/-- Reads a decimal without an exponent. Zero comes out without a sign. -/
def ofPlainChars? (cs : List Char) : Option Decimal := do
  let (negative, body) := match cs with
    | '-' :: r => (true, r)
    | '+' :: r => (false, r)
    | cs => (false, cs)
  let (m, scale) ← Reading.start.finish body
  ofParts? (negative && m != 0) m scale

/-- Moves the point to the right by at most twenty-eight places. Where the digits behind it run out the
number is multiplied by the power of ten that is left, in steps of nineteen zeros, and all the digits of
the product stand before the point. -/
def shiftRight? (d : Decimal) (places : Nat) : Option Decimal :=
  if places ≤ d.scale then ofParts? d.negative d.mantissa (d.scale - places)
  else if places ≤ 28 then do
    let zeros := places - d.scale
    let product ← d.mul? (← ofParts? false (Nat.pow 10 (min zeros 19)) 0)
    let product ← product.mul? (← ofParts? false (Nat.pow 10 (zeros - 19)) 0)
    ofParts? product.negative product.mantissa 0
  else none

/-- Moves the point to the left by at most twenty-eight places. Digits that leave the last place are
rounded away, a half going away from zero, and the sign stays. -/
def shiftLeft? (d : Decimal) (places : Nat) : Option Decimal :=
  if places ≤ 28 then
    let kept := d.roundAway (28 - places)
    ofParts? d.negative kept.mantissa (kept.scale + places)
  else none

/-- Moves the point as an exponent says, whose sign may be missing. -/
def shiftBy? (d : Decimal) (exponent : List Char) : Option Decimal :=
  match exponent with
  | '-' :: r => (Text.readUnsignedBelow? 0x100000000 r).bind d.shiftLeft?
  | r => (Text.readUnsignedBelow? 0x100000000 r).bind d.shiftRight?

def isExponentMark (c : Char) : Bool := c == 'e' || c == 'E'

/-- Reads a decimal, with or without an exponent. -/
def ofChars? (cs : List Char) : Option Decimal :=
  match cs.dropWhile (!isExponentMark ·) with
  | [] => ofPlainChars? cs
  | _ :: exponent => do (← ofPlainChars? (cs.takeWhile (!isExponentMark ·))).shiftBy? exponent

def ofText? (s : String) : Option Decimal := ofChars? s.toList

/-- Reads exactly what `text` writes: a minus sign counts for zero too, and nothing is rounded. -/
def ofExactText? (s : String) : Option Decimal := do
  let (negative, body) := match s.toList with
    | '-' :: r => (true, r)
    | cs => (false, cs)
  match Text.splitOnce? '.' body with
  | none => ofParts? negative (← Text.readNat? body) 0
  | some (whole, fraction) =>
    ofParts? negative (← Text.readNat? (whole ++ fraction)) fraction.length

example : (ofChars? "-1.50".toList).map chars = some "-1.50".toList := by decide +kernel
example : (ofChars? "0.00000000000000000000000000015".toList).map chars =
    some "0.0000000000000000000000000002".toList := by decide +kernel
example : (ofChars? "7.9228162514264337593543950336".toList).map chars =
    some "7.922816251426433759354395034".toList := by decide +kernel
example : (ofChars? "1.50e1".toList).map chars = some "15.0".toList := by decide +kernel
example : (ofChars? "-1.5E3".toList).map chars = some "-1500".toList := by decide +kernel
example : (ofChars? "2e-3".toList).map chars = some "0.002".toList := by decide +kernel
example : (ofChars? "-1.25e-27".toList).map chars = some "-0.0000000000000000000000000013".toList := by
  decide +kernel
example : (ofChars? "1.2345678901234567890123456789_5".toList).map chars =
    some "1.2345678901234567890123456790".toList := by decide +kernel
example : (ofExactText? "-0.0").map chars = some "-0.0".toList := by decide +kernel

end SqlEngine.Decimal
