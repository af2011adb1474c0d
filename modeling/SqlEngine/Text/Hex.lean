/-!
# Hexadecimal text

Bytes as two lower-case digits each, and the reading of such text, where a pair is two digits or a
plus sign and one digit.
-/

namespace SqlEngine.Text

def hexDigit (n : Nat) : Char :=
  if n < 10 then Char.ofNat (48 + n) else Char.ofNat (87 + n)

/-- The value of a hexadecimal digit of either case. -/
def hexValue? (c : Char) : Option Nat :=
  if '0' ≤ c && c ≤ '9' then some (c.toNat - 48)
  else if 'a' ≤ c && c ≤ 'f' then some (c.toNat - 87)
  else if 'A' ≤ c && c ≤ 'F' then some (c.toNat - 55)
  else none

/-- Digits of `n` in base sixteen without leading zeros. -/
def hexDigits (n : Nat) : List Char :=
  if n < 16 then [hexDigit n] else hexDigits (n / 16) ++ [hexDigit (n % 16)]

def hexByte (b : UInt8) : List Char := [hexDigit (b.toNat / 16), hexDigit (b.toNat % 16)]

def encodeHex (bytes : List UInt8) : List Char := bytes.flatMap hexByte

def hexText (bytes : List UInt8) : String := String.ofList (encodeHex bytes)

/-- The byte written by a pair: two digits, or a plus sign before one digit. -/
def hexPair? (a b : Char) : Option UInt8 :=
  match hexValue? a, hexValue? b with
  | some x, some y => some (UInt8.ofNat (16 * x + y))
  | none, some y => if a = '+' then some (UInt8.ofNat y) else none
  | _, none => none

def decodeHex? : List Char → Option (List UInt8)
  | [] => some []
  | [_] => none
  | a :: b :: r => do
    let byte ← hexPair? a b
    let rest ← decodeHex? r
    return byte :: rest

theorem hexPair?_hexByte (b : UInt8) :
    hexPair? (hexDigit (b.toNat / 16)) (hexDigit (b.toNat % 16)) = some b := by
  have all : ∀ n : Fin 256, hexPair? (hexDigit (n.val / 16)) (hexDigit (n.val % 16)) =
      some (UInt8.ofNat n.val) := by decide +kernel
  have := all ⟨b.toNat, b.toNat_lt⟩
  simpa using this

/-- Written bytes read back. -/
theorem decodeHex?_encodeHex (bytes : List UInt8) : decodeHex? (encodeHex bytes) = some bytes := by
  induction bytes with
  | nil => rfl
  | cons b r ih =>
    have step : encodeHex (b :: r) =
        hexDigit (b.toNat / 16) :: hexDigit (b.toNat % 16) :: encodeHex r := rfl
    rw [step, decodeHex?, hexPair?_hexByte, ih]
    rfl

example : decodeHex? "00fF+a".toList = some [0, 255, 10] := by decide

end SqlEngine.Text
