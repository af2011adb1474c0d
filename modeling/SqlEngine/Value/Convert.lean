import SqlEngine.Numeric.Literal
import SqlEngine.Text.Blank
import SqlEngine.Value.Text

/-!
# Conversion of values

Bringing a value to a type, sizes of the type included. Null is null in every type. Text is read after
trimming, numbers are rounded half away from zero, and what has no sensible form in the target is an
error.
-/

namespace SqlEngine.Value

def unconvertible (v : Value) (target : DataType) : ValueError :=
  .unconvertible v.text v.typeName target.text

def outOfRange (v : Value) (target : DataType) : ValueError := .outOfRange v.text target.text

/-- The words for truth values, in any case. -/
def readBoolean? (s : String) : Option Bool :=
  let word := String.ofList ((Text.trim s.toList).map Text.lowerAscii)
  if word ∈ ["true", "t", "yes", "y", "1"] then some true
  else if word ∈ ["false", "f", "no", "n", "0"] then some false
  else none

/-- Reads text where there is text. -/
def readText {α : Type} (v : Value) (target : DataType) (read : String → Except ValueError α) :
    Except ValueError α :=
  match v.string? with
  | some s => read s
  | none => .error (v.unconvertible target)

def orMalformed {α : Type} (kind : LiteralKind) (s : String) : Option α → Except ValueError α
  | some a => .ok a
  | none => .error (.malformed kind s)

def toBoolean (v : Value) (target : DataType) : Except ValueError Bool :=
  match v with
  | boolean b => .ok b
  | v => match v.toDouble? with
    | some x => .ok (!x.eq (.zero false))
    | none => v.readText target fun s => orMalformed .boolean s (readBoolean? s)

/-- The nearest whole number to a double; one past the largest is let through as the largest. -/
def wholeOfDouble? (x : Binary64) : Option Int64 :=
  if !x.isFinite then none
  else
    let n := x.roundAway
    if n < -0x8000000000000000 ∨ 0x8000000000000000 < n then none else some (Int64.ofInt (min n (0x8000000000000000 - 1)))

def wholeOfDecimal (d : Decimal) (target : DataType) : Except ValueError Int64 :=
  match (d.roundAway 0).toInt64? with
  | some n => .ok n
  | none => .error ((decimal d).outOfRange target)

/-- Text that is no whole number may still be a decimal, which is rounded. -/
def wholeOfText (target : DataType) (s : String) : Except ValueError Int64 :=
  let cs := Text.trim s.toList
  match Text.readSignedWithin? 0x8000000000000000 cs with
  | some n => .ok (Int64.ofInt n)
  | none => match Decimal.ofChars? cs with
    | some d => wholeOfDecimal d target
    | none => .error (.malformed .integer (String.ofList cs))

def toWhole (v : Value) (target : DataType) : Except ValueError Int64 :=
  match v with
  | boolean b => .ok (if b then 1 else 0)
  | smallint n => .ok n.toInt64
  | integer n => .ok n.toInt64
  | bigint n => .ok n
  | decimal d => wholeOfDecimal d target
  | real _ | double _ => match v.toDouble?.bind wholeOfDouble? with
    | some n => .ok n
    | none => .error (v.outOfRange target)
  | v => v.readText target (wholeOfText target)

def toExact (v : Value) (target : DataType) : Except ValueError Decimal :=
  match v.toDecimal? with
  | some d => .ok d
  | none => match v with
    | boolean b => .ok (.ofBool b)
    | real _ | double _ => match v.toDouble?.bind Decimal.ofDouble? with
      | some d => .ok d
      | none => .error (v.outOfRange target)
    | v => v.readText target fun s =>
        orMalformed .decimal s (Decimal.ofChars? (Text.trim s.toList))

/-- Brings a decimal to the scale of its type and checks the precision. -/
def fitDecimal (v : Value) (target : DataType) (precision scale : Option Nat) (d : Decimal) :
    Except ValueError Decimal :=
  let d := match scale with
    | some s => d.rescale s
    | none => d
  match precision with
  | some p => if p < Text.digitCount d.mantissa then .error (v.outOfRange target) else .ok d
  | none => .ok d

def toFloat (v : Value) (target : DataType) : Except ValueError Binary64 :=
  match v.toDouble? with
  | some x => .ok x
  | none => match v with
    | boolean b => .ok (.ofInt .double (if b then 1 else 0))
    | v => v.readText target fun s =>
        orMalformed .double s (Binary.ofChars? .double (Text.trim s.toList))

def toText (v : Value) (target : DataType) : Except ValueError String :=
  match v with
  | array _ | resultSet .. | object _ => .error (v.unconvertible target)
  | v => .ok v.text

def toBytes (v : Value) (target : DataType) : Except ValueError (List UInt8) :=
  match v.bytes? with
  | some b => .ok b
  | none => v.readText target fun s => orMalformed .binary s (Text.decodeHex? (Text.trim s.toList))

/-- Text of exactly `length` characters: filled up with spaces, or shortened by spaces only. -/
def fitChar (target : DataType) (length : Nat) (s : String) : Except ValueError String :=
  let cs := s.toList
  if cs.length ≤ length then .ok (String.ofList (Text.padRight ' ' length cs))
  else
    let kept := Text.dropTail (· == ' ') cs
    if length < kept.length then .error (.tooLong s target.text)
    else .ok (String.ofList (Text.padRight ' ' length kept))

def fitVarchar (target : DataType) (maxLength : Option Nat) (s : String) :
    Except ValueError String :=
  match maxLength with
  | some n => if n < s.length then .error (.tooLong s target.text) else .ok s
  | none => .ok s

def toDate (v : Value) (target : DataType) : Except ValueError Date :=
  match v with
  | date d => .ok d
  | timestamp t => .ok t.date
  | v => v.readText target Date.ofText

def toTime (v : Value) (target : DataType) : Except ValueError TimeOfDay :=
  match v with
  | time t => .ok t
  | timestamp t => .ok t.time
  | v => v.readText target TimeOfDay.ofText

def toTimestamp (v : Value) (target : DataType) : Except ValueError Timestamp :=
  match v with
  | timestamp t => .ok t
  | date d => .ok (.atMidnight d)
  | v => v.readText target Timestamp.ofText

/-- Conversion of a value that is not null. -/
def convertPresent (v : Value) (target : DataType) : Except ValueError Value :=
  match target with
  | .boolean => (v.toBoolean target).map boolean
  | .smallint => do
    let n := (← v.toWhole target).toInt
    if -0x8000 ≤ n ∧ n < 0x8000 then .ok (smallint (Int16.ofInt n)) else .error (v.outOfRange target)
  | .integer => do
    let n := (← v.toWhole target).toInt
    if -0x80000000 ≤ n ∧ n < 0x80000000 then .ok (integer (Int32.ofInt n)) else .error (v.outOfRange target)
  | .bigint => (v.toWhole target).map bigint
  | .decimal precision scale => do
    (v.fitDecimal target precision scale (← v.toExact target)).map decimal
  | .real => (v.toFloat target).map fun x => real (x.convert .single)
  | .double => (v.toFloat target).map double
  | .char length => do (fitChar target length (← v.toText target)).map char
  | .varchar maxLength => do (fitVarchar target maxLength (← v.toText target)).map varchar
  | .clob => (v.toText target).map clob
  | .varbinary => (v.toBytes target).map varbinary
  | .blob => (v.toBytes target).map blob
  | .date => (v.toDate target).map date
  | .time => (v.toTime target).map time
  | .timestamp => (v.toTimestamp target).map timestamp
  | .array => match v with
    | array items => .ok (array items)
    | v => .ok (array [v])
  | .xml => v.readText target fun s => .ok (xml s)
  | .resultSet => match v with
    | resultSet columns rows => .ok (resultSet columns rows)
    | v => .ok v.single
  | .object => match v with
    | object b => .ok (object b)
    | v => .error (v.unconvertible target)
  | .null => .error (v.unconvertible target)

def convert (v : Value) (target : DataType) : Except ValueError Value :=
  if v.isNull then .ok null else v.convertPresent target

end SqlEngine.Value
