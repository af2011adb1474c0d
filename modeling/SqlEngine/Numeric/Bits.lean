import SqlEngine.Numeric.Binary
import SqlEngine.Text.Hex
import SqlEngine.Text.Split

/-!
# The bits of binary numbers

Numbers written by their bits in hexadecimal, which loses nothing but the payload of a NaN: all NaNs
are written as one word.
-/

namespace SqlEngine.Binary

variable {F : BinaryFormat}

def bitsText (x : Binary F) : String :=
  if x.isNaN then "nan"
  else String.ofList (Text.padLeft '0' ((F.width + 1) / 4) (Text.hexDigits x.toBits))

def readHex? (acc : Nat) : List Char → Option Nat
  | [] => some acc
  | c :: r => do readHex? (16 * acc + (← Text.hexValue? c)) r

def ofBitsText? (F : BinaryFormat) (s : String) : Option (Binary F) :=
  if s = "nan" then some (nan false) else (readHex? 0 s.toList).map (ofBits F)

example : (ofBitsText? .double "3ff8000000000000").map bitsText = some "3ff8000000000000" := by
  decide +kernel

end SqlEngine.Binary
