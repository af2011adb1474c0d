import SqlEngine.Json.Basic
import SqlEngine.Numeric.Shortest
import SqlEngine.Text.Hex

/-!
# Writing JSON

Compact text: no white space, only what must be escaped is escaped, and a floating-point number always
shows a point or an exponent.
-/

namespace SqlEngine.Json

def escape (c : Char) : List Char :=
  if c = '\x22' then ['\\', '\x22']
  else if c = '\\' then ['\\', '\\']
  else if c = '\x08' then ['\\', 'b']
  else if c = '\x09' then ['\\', 't']
  else if c = '\x0a' then ['\\', 'n']
  else if c = '\x0c' then ['\\', 'f']
  else if c = '\x0d' then ['\\', 'r']
  else if c.toNat < 0x20 then ['\\', 'u', '0', '0'] ++ Text.hexByte (UInt8.ofNat c.toNat)
  else [c]

def stringChars (s : String) : List Char := '\x22' :: s.toList.flatMap escape ++ ['\x22']

/-- Digits with a point where the number has at most sixteen places before it and at most five zeros
behind it, and with an exponent otherwise. -/
def floatDigits (d : Digits) : List Char :=
  let cs := Text.natDigits d.digits
  let point : Int := cs.length + d.exponent
  if 0 ≤ d.exponent && point ≤ 16 then d.positional ++ ['.', '0']
  else if -5 < point && point ≤ 16 then d.positional
  else
    let exponent := 'e' :: Text.intDigits (point - 1)
    match cs with
    | [c] => c :: exponent
    | c :: r => c :: '.' :: r ++ exponent
    | [] => exponent

def floatChars (x : Binary64) : List Char :=
  if !x.isFinite then "null".toList
  else
    let body := if x.isZero then "0.0".toList else floatDigits (x.shortest .even)
    if x.negative then '-' :: body else body

mutual

def chars : Json → List Char
  | null => "null".toList
  | boolean b => if b then "true".toList else "false".toList
  | integer n => Text.intDigits n
  | float x => floatChars x
  | string s => stringChars s
  | array items => '[' :: itemChars items ++ [']']
  | object fields => '\x7b' :: fieldChars fields ++ ['\x7d']

def itemChars : List Json → List Char
  | [] => []
  | [v] => v.chars
  | v :: r => v.chars ++ ',' :: itemChars r

def fieldChars : List (String × Json) → List Char
  | [] => []
  | [(k, v)] => stringChars k ++ ':' :: v.chars
  | (k, v) :: r => stringChars k ++ ':' :: v.chars ++ ',' :: fieldChars r

end

def text (j : Json) : String := String.ofList j.chars

example : (float (.ofRatio .double false 3 2)).text = "1.5" := by decide +kernel
example : (float (.ofInt .double (1000000000000000000000))).text = "1e21" := by decide +kernel
example : (float (.ofInt .double (-7))).text = "-7.0" := by decide +kernel

end SqlEngine.Json
