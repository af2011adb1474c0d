import SqlEngine.Json.Basic
import SqlEngine.Numeric.Literal
import SqlEngine.Text.Hex
import SqlEngine.Text.Number

/-!
# Reading JSON

A whole number that fits sixty-four bits stays whole; other numbers become floating-point numbers by
at most two roundings, one of the digits and one of the scaling by a power of ten. Nesting is limited.
A `lenient` reader only checks the form: it has no limit and lets pass numbers and escapes that mean
nothing.
-/

namespace SqlEngine.Json

def isSpace (c : Char) : Bool := c = ' ' || c = '\t' || c = '\n' || c = '\r'

def skipSpace (cs : List Char) : List Char := cs.dropWhile isSpace

/-- The digits at the front and what follows. -/
def spanDigits (cs : List Char) : List Nat × List Char :=
  let isDigit (c : Char) : Bool := (Text.digitValue? c).isSome
  ((cs.takeWhile isDigit).filterMap Text.digitValue?, cs.dropWhile isDigit)

/-- Digits taken into a significand of sixty-four bits, and those that no longer fit. -/
def takeSignificand (m : Nat) : List Nat → Nat × List Nat
  | [] => (m, [])
  | d :: r => if 10 * m + d < 0x10000000000000000 then takeSignificand (10 * m + d) r else (m, d :: r)

/-- The number `m * 10 ^ e`: the digits are rounded first, then the scaling. -/
def scaleFloat : Nat → Binary64 → Int → Option Binary64
  | 0, x, _ => some x
  | fuel + 1, x, e =>
    let power (k : Nat) : Binary64 := .ofRatio .double false (Nat.pow 10 k) 1
    if 0 ≤ e then
      if e ≤ 308 then
        let y := x.mul (power e.toNat)
        if y.isInfinite then none else some y
      else if x.isZero then some x
      else none
    else if -308 ≤ e then some (x.div (power (-e).toNat))
    else if x.isZero then some x
    else scaleFloat fuel (x.div (power 308)) (e + 308)

def floatOfParts (negative : Bool) (m : Nat) (e : Int) : Option Json :=
  (scaleFloat 5 (.ofRatio .double false m 1) e).map fun x => float (if negative then x.neg else x)

/-- The exponent behind its letter; it needs a digit, and one of more than thirty-one bits makes any
number zero or too large. -/
def readExponent (negative : Bool) (m : Nat) (start : Int) (cs : List Char) :
    Option (Option Json × List Char) :=
  let (down, cs) := match cs with
    | '+' :: r => (false, r)
    | '-' :: r => (true, r)
    | cs => (false, cs)
  match spanDigits cs with
  | ([], _) => none
  | (ds, rest) =>
    let e : Nat := ds.foldl (fun n d => 10 * n + d) 0
    let shift : Int := if down then -(e : Int) else e
    if e < 0x80000000 then some (floatOfParts negative m (start + shift), rest)
    else if m != 0 && !down then some (none, rest)
    else some (some (float (.zero negative)), rest)

/-- The digits behind a point, of which those that do not fit the significand are dropped. -/
def readFraction (negative : Bool) (m : Nat) (start : Int) (cs : List Char) :
    Option (Option Json × List Char) :=
  match spanDigits cs with
  | ([], _) => none
  | (ds, rest) =>
    let (m', left) := takeSignificand m ds
    let e := start - (ds.length - left.length : Nat)
    match rest with
    | 'e' :: r | 'E' :: r => readExponent negative m' e r
    | rest => some (floatOfParts negative m' e, rest)

/-- A number whose sign has been read. The inner `none` is a number that is too large. -/
def readNumber (negative : Bool) (cs : List Char) : Option (Option Json × List Char) :=
  match spanDigits cs with
  | ([], _) => none
  | (ds, rest) =>
    if ds.length ≠ 1 && ds.head? == some 0 then none
    else
      let (m, left) := takeSignificand 0 ds
      match rest with
      | '.' :: r => readFraction negative m left.length r
      | 'e' :: r | 'E' :: r => readExponent negative m left.length r
      | rest =>
        if left ≠ [] then some (floatOfParts negative m left.length, rest)
        else if !negative then some (some (integer m), rest)
        else if m = 0 || 0x8000000000000000 < m then some (floatOfParts true m 0, rest)
        else some (some (integer (-(m : Int))), rest)

/-- Four hexadecimal digits. -/
def readUnit? : List Char → Option (Nat × List Char)
  | a :: b :: c :: d :: r => do
    let n := ((← Text.hexValue? a) * 16 + (← Text.hexValue? b)) * 256 +
      ((← Text.hexValue? c) * 16 + (← Text.hexValue? d))
    return (n, r)
  | _ => none

def isHighUnit (n : Nat) : Bool := 0xD800 ≤ n && n < 0xDC00

def isLowUnit (n : Nat) : Bool := 0xDC00 ≤ n && n < 0xE000

/-- The character of an escape `\u`; two halves of a pair stand behind each other. -/
def readUnicode? (lenient : Bool) (cs : List Char) : Option (Char × List Char) := do
  let (n, r) ← readUnit? cs
  if lenient then return (Char.ofNat n, r)
  else if isLowUnit n then none
  else if isHighUnit n then
    match r with
    | '\\' :: 'u' :: r =>
      let (m, r) ← readUnit? r
      if isLowUnit m then return (Char.ofNat (0x10000 + (n - 0xD800) * 1024 + (m - 0xDC00)), r)
      else none
    | _ => none
  else return (Char.ofNat n, r)

def simpleEscape? (c : Char) : Option Char :=
  [('\x22', '\x22'), ('\\', '\\'), ('/', '/'), ('b', '\x08'), ('f', '\x0c'), ('n', '\x0a'),
    ('r', '\x0d'), ('t', '\x09')].lookup c

/-- The rest of a string behind its opening quote. -/
def readString (lenient : Bool) : Nat → List Char → Option (List Char × List Char)
  | 0, _ => none
  | _ + 1, [] => none
  | fuel + 1, c :: r =>
    if c = '\x22' then some ([], r)
    else if c = '\\' then
      match r with
      | 'u' :: r => do
        let (d, r) ← readUnicode? lenient r
        let (s, r) ← readString lenient fuel r
        return (d :: s, r)
      | e :: r => do
        let d ← simpleEscape? e
        let (s, r) ← readString lenient fuel r
        return (d :: s, r)
      | [] => none
    else if c.toNat < 0x20 then none
    else do
      let (s, r) ← readString lenient fuel r
      return (c :: s, r)

def readKey (lenient : Bool) (cs : List Char) : Option (String × List Char) :=
  match skipSpace cs with
  | '\x22' :: r => do
    let (s, r) ← readString lenient (r.length + 1) r
    match skipSpace r with
    | ':' :: r => return (String.ofList s, r)
    | _ => none
  | _ => none

def readWord (word : String) (v : Json) (cs : List Char) : Option (Json × List Char) :=
  let w := word.toList
  if w.isPrefixOf cs then some (v, cs.drop w.length) else none

mutual

/-- A value, with at most `depth` arrays and objects inside each other. -/
def readValue (lenient : Bool) : Nat → Nat → List Char → Option (Json × List Char)
  | 0, _, _ => none
  | fuel + 1, depth, cs =>
    match skipSpace cs with
    | [] => none
    | c :: r =>
      if c = 'n' then readWord "null" null (c :: r)
      else if c = 't' then readWord "true" (boolean true) (c :: r)
      else if c = 'f' then readWord "false" (boolean false) (c :: r)
      else if c = '\x22' then
        (readString lenient (r.length + 1) r).map fun (s, r) => (string (String.ofList s), r)
      else if c = '[' then
        if depth = 0 then none
        else match skipSpace r with
          | ']' :: r => some (array [], r)
          | r => (readItems lenient fuel (if lenient then depth else depth - 1) r).map
              fun (vs, r) => (array vs, r)
      else if c = '\x7b' then
        if depth = 0 then none
        else match skipSpace r with
          | '\x7d' :: r => some (object [], r)
          | r => (readFields lenient fuel (if lenient then depth else depth - 1) r).map
              fun (fs, r) => (ofFields fs, r)
      else
        let number := if c = '-' then readNumber true r else readNumber false (c :: r)
        match number with
        | none => none
        | some (some v, r) => some (v, r)
        | some (none, r) => if lenient then some (null, r) else none

/-- The items of an array up to its closing bracket. -/
def readItems (lenient : Bool) : Nat → Nat → List Char → Option (List Json × List Char)
  | 0, _, _ => none
  | fuel + 1, depth, cs => do
    let (v, r) ← readValue lenient fuel depth cs
    match skipSpace r with
    | ',' :: r =>
      let (vs, r) ← readItems lenient fuel depth r
      return (v :: vs, r)
    | ']' :: r => return ([v], r)
    | _ => none

/-- The fields of an object up to its closing brace, as they are written. -/
def readFields (lenient : Bool) : Nat → Nat → List Char → Option (List (String × Json) × List Char)
  | 0, _, _ => none
  | fuel + 1, depth, cs => do
    let (k, r) ← readKey lenient cs
    let (v, r) ← readValue lenient fuel depth r
    match skipSpace r with
    | ',' :: r =>
      let (fs, r) ← readFields lenient fuel depth r
      return ((k, v) :: fs, r)
    | '\x7d' :: r => return ([(k, v)], r)
    | _ => none

end

/-- One value with nothing but white space around it. -/
def ofChars? (depth : Nat) (cs : List Char) : Option Json := do
  let (v, r) ← readValue false (2 * cs.length + 2) depth cs
  if (skipSpace r).isEmpty then some v else none

end SqlEngine.Json
