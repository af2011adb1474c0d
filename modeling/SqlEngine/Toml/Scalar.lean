import SqlEngine.Temporal.Date
import SqlEngine.Text.Hex
import SqlEngine.Text.Number

/-!
# Words of a settings document

Keys, strings, numbers and dates of TOML. A reader takes what it reads off the front of the text; of
numbers and dates only the form and the range are checked.
-/

namespace SqlEngine.Toml

def isSpace (c : Char) : Bool := c = ' ' || c = '\t'

def skipSpace (cs : List Char) : List Char := cs.dropWhile isSpace

/-- Characters that may stand in comments and, but for their own marks, in strings. -/
def isPlain (c : Char) : Bool := c = '\t' || (0x20 ≤ c.toNat && c.toNat ≠ 0x7f)

/-- A line end, with or without a carriage return before it. -/
def lineEnd? : List Char → Option (List Char)
  | '\n' :: r => some r
  | '\x0d' :: '\n' :: r => some r
  | _ => none

def skipComment : List Char → List Char
  | '\x23' :: r => r.dropWhile isPlain
  | cs => cs

/-- White space, comments and line ends. -/
def skipBlank : Nat → List Char → List Char
  | 0, cs => cs
  | fuel + 1, cs =>
    let r := skipComment (skipSpace cs)
    match lineEnd? r with
    | some r => skipBlank fuel r
    | none => r

/-- What may stand behind a statement on its line; at the end of the text no line end is needed. -/
def endLine? (cs : List Char) : Option (List Char) :=
  match skipComment (skipSpace cs) with
  | [] => some []
  | r => lineEnd? r

def isBareKey (c : Char) : Bool :=
  ('a' ≤ c && c ≤ 'z') || ('A' ≤ c && c ≤ 'Z') || ('0' ≤ c && c ≤ '9') || c = '_' || c = '-'

def readHex? (digits : Nat) (cs : List Char) : Option (Char × List Char) := do
  let ds := cs.take digits
  if ds.length < digits then none
  else
    let n ← ds.foldlM (fun n c => (Text.hexValue? c).map fun d => 16 * n + d) 0
    if n < 0xD800 ∨ (0xDFFF < n ∧ n < 0x110000) then return (Char.ofNat n, cs.drop digits) else none

/-- The character of an escape behind its backslash. -/
def readEscape? : List Char → Option (Char × List Char)
  | 'u' :: r => readHex? 4 r
  | 'U' :: r => readHex? 8 r
  | c :: r =>
    ([('b', '\x08'), ('t', '\x09'), ('n', '\x0a'), ('f', '\x0c'), ('r', '\x0d'), ('\x22', '\x22'),
      ('\\', '\\')].lookup c).map fun d => (d, r)
  | [] => none

/-- The rest of a string in double quotes on one line. -/
def readBasic? : Nat → List Char → Option (List Char × List Char)
  | 0, _ => none
  | fuel + 1, cs => match cs with
    | '\x22' :: r => some ([], r)
    | '\\' :: r => do
      let (c, r) ← readEscape? r
      let (s, r) ← readBasic? fuel r
      return (c :: s, r)
    | c :: r =>
      if isPlain c then (readBasic? fuel r).map fun (s, r) => (c :: s, r) else none
    | [] => none

/-- The rest of a string in single quotes on one line. -/
def readLiteral? : List Char → Option (List Char × List Char)
  | [] => none
  | c :: r =>
    if c = '\x27' then some ([], r)
    else if isPlain c then (readLiteral? r).map fun (s, r) => (c :: s, r)
    else none

/-- Quotes at the front: three to five end a string of several lines. -/
def closing? (quote : Char) (cs : List Char) : Option (List Char) :=
  let n := (cs.takeWhile (· == quote)).length
  if 3 ≤ n then some (cs.drop (min n 5)) else none

/-- White space and line ends at the front. -/
def dropLines : List Char → List Char
  | ' ' :: r | '\t' :: r | '\n' :: r => dropLines r
  | '\x0d' :: '\n' :: r => dropLines r
  | cs => cs

/-- Behind a backslash at the end of a line everything blank is left out. -/
def skipFold? (cs : List Char) : Option (List Char) := (lineEnd? (skipSpace cs)).map dropLines

/-- The rest of a string of several lines; only in double quotes has it escapes. -/
def skipLong? (quote : Char) : Nat → List Char → Option (List Char)
  | 0, _ => none
  | fuel + 1, cs => match closing? quote cs with
    | some r => some r
    | none => match cs with
      | [] => none
      | c :: r =>
        if c = '\\' && quote = '\x22' then
          match skipFold? r with
          | some r => skipLong? quote fuel r
          | none => (readEscape? r).bind fun (_, r) => skipLong? quote fuel r
        else if isPlain c then skipLong? quote fuel r
        else (lineEnd? (c :: r)).bind fun r => skipLong? quote fuel r

/-- A string of any of the four kinds. -/
def skipString? (cs : List Char) : Option (List Char) :=
  match cs with
  | '\x22' :: '\x22' :: '\x22' :: r => skipLong? '\x22' (r.length + 1) r
  | '\x27' :: '\x27' :: '\x27' :: r => skipLong? '\x27' (r.length + 1) r
  | '\x22' :: r => (readBasic? (r.length + 1) r).map (·.2)
  | '\x27' :: r => (readLiteral? r).map (·.2)
  | _ => none

/-- One part of a key: bare, or a string on one line. -/
def readKeyPart? (cs : List Char) : Option (String × List Char) :=
  match cs with
  | '\x22' :: r => (readBasic? (r.length + 1) r).map fun (s, r) => (String.ofList s, r)
  | '\x27' :: r => (readLiteral? r).map fun (s, r) => (String.ofList s, r)
  | cs =>
    let key := cs.takeWhile isBareKey
    if key.isEmpty then none else some (String.ofList key, cs.dropWhile isBareKey)

/-- A key of one or more parts with dots between them. -/
def readKey? : Nat → List Char → Option (List String × List Char)
  | 0, _ => none
  | fuel + 1, cs => do
    let (part, r) ← readKeyPart? (skipSpace cs)
    match skipSpace r with
    | '.' :: r =>
      let (parts, r) ← readKey? fuel r
      return (part :: parts, r)
    | r => return ([part], r)

/-- Digits of a base, with single underscores between them. -/
def readDigitRun? (base : Nat) (cs : List Char) : Option (List Nat × List Char) :=
  let isPart (c : Char) : Bool := c = '_' || (Text.hexValue? c).any (· < base)
  let run := cs.takeWhile isPart
  let rec wellSpaced : List Char → Bool
    | [] => true
    | ['_'] => false
    | '_' :: '_' :: _ => false
    | _ :: r => wellSpaced r
  if run.isEmpty || run.head? == some '_' || !wellSpaced run then none
  else some ((run.filter (· ≠ '_')).filterMap Text.hexValue?, cs.dropWhile isPart)

def valueOf (base : Nat) (ds : List Nat) : Nat := ds.foldl (fun n d => base * n + d) 0

/-- The fraction and the exponent behind the whole digits of a float; `none` is a bad one, and the
flag tells whether there was either. -/
def readTail? (cs : List Char) : Option (Bool × Int × List Nat × List Char) := do
  let (dotted, fraction, r) ← match cs with
    | '.' :: r => (readDigitRun? 10 r).map fun (ds, r) => (true, ds, r)
    | cs => some (false, [], cs)
  match r with
  | 'e' :: r | 'E' :: r =>
    let (down, r) := match r with
      | '+' :: r => (false, r)
      | '-' :: r => (true, r)
      | r => (false, r)
    let (ds, r) ← readDigitRun? 10 r
    let e : Int := valueOf 10 ds
    return (true, if down then -e else e, fraction, r)
  | r => return (dotted, 0, fraction, r)

/-- Whether `n * 10 ^ e` is below the largest doubles. -/
def isModest (n : Nat) (e : Int) : Bool :=
  n = 0 || (Text.digitCount n : Int) + e ≤ 308 ||
    ((Text.digitCount n : Int) + e = 309 &&
      (if 0 ≤ e then n * Nat.pow 10 e.toNat else n / Nat.pow 10 (-e).toNat) <
        Nat.pow 2 1024 - Nat.pow 2 970)

/-- A number, or a word for infinity or not-a-number behind its sign. -/
def skipNumber? (cs : List Char) : Option (List Char) := do
  let (negative, signed, r) := match cs with
    | '-' :: r => (true, true, r)
    | '+' :: r => (false, true, r)
    | r => (false, false, r)
  match r with
  | 'i' :: 'n' :: 'f' :: r => return r
  | 'n' :: 'a' :: 'n' :: r => return r
  | '0' :: 'x' :: r =>
    if signed then none
    else
      let (ds, r) ← readDigitRun? 16 r
      if valueOf 16 ds < 0x8000000000000000 then return r else none
  | '0' :: 'o' :: r =>
    if signed then none
    else
      let (ds, r) ← readDigitRun? 8 r
      if valueOf 8 ds < 0x8000000000000000 then return r else none
  | '0' :: 'b' :: r =>
    if signed then none
    else
      let (ds, r) ← readDigitRun? 2 r
      if valueOf 2 ds < 0x8000000000000000 then return r else none
  | r =>
    let (ds, r) ← readDigitRun? 10 r
    if ds.length ≠ 1 && ds.head? == some 0 then none
    else
      let (isFloat, e, fraction, r) ← readTail? r
      if isFloat then
        if negative || isModest (valueOf 10 (ds ++ fraction)) (e - fraction.length) then return r
        else none
      else
        let n := valueOf 10 ds
        if n < 0x8000000000000000 || (negative && n = 0x8000000000000000) then return r else none

/-- A fixed count of digits. -/
def readFixed? (count : Nat) (cs : List Char) : Option (Nat × List Char) :=
  let ds := cs.take count
  if ds.length < count then none else (Text.readNat? ds).map fun n => (n, cs.drop count)

def expect? (c : Char) : List Char → Option (List Char)
  | d :: r => if d = c then some r else none
  | [] => none

/-- A time of day; a minute may have a sixty-first second. -/
def skipTime? (cs : List Char) : Option (List Char) := do
  let (h, r) ← readFixed? 2 cs
  let (m, r) ← readFixed? 2 (← expect? ':' r)
  let (s, r) ← readFixed? 2 (← expect? ':' r)
  if 23 < h || 59 < m || 60 < s then none
  else match r with
    | '.' :: f =>
      let rest := f.dropWhile fun c => (Text.digitValue? c).isSome
      if rest.length = f.length then none else return rest
    | r => return r

def skipOffset (cs : List Char) : List Char :=
  match cs with
  | 'Z' :: r | 'z' :: r => r
  | c :: r =>
    if c = '+' || c = '-' then
      (do
        let (h, r) ← readFixed? 2 r
        let (m, r) ← readFixed? 2 (← expect? ':' r)
        if 23 < h || 59 < m then none else some r).getD cs
    else cs
  | [] => []

/-- A date, a time, or both, and then perhaps an offset. -/
def skipDateTime? (cs : List Char) : Option (List Char) :=
  match skipTime? cs with
  | some r => some r
  | none => do
    let (y, r) ← readFixed? 4 cs
    let (m, r) ← readFixed? 2 (← expect? '-' r)
    let (d, r) ← readFixed? 2 (← expect? '-' r)
    if m < 1 || 12 < m || d < 1 || daysInMonth y m < d then none
    else match r with
      | c :: t =>
        if c = 'T' || c = 't' || c = ' ' then
          match skipTime? t with
          | some r => return skipOffset r
          | none => return r
        else return r
      | [] => return []

end SqlEngine.Toml
