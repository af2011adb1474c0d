import SqlEngine.Text.Blank
import SqlEngine.Text.Case
import SqlEngine.Text.Order
import SqlEngine.Value.Basic

/-!
# Orders on values

Three ways to compare two values. `Collation.compare` is total: it ranks nulls, NaNs and values of
unrelated types too, and takes numbers by value, whatever their type or scale. `Value.partialCompare?`
answers only for values of like types. `Value.same` is equality of like values, where decimals are
taken by value and a NaN differs from itself.
-/

namespace SqlEngine

/-- Whether text is compared with or without regard to case. -/
structure Collation where
  ignoreCase : Bool := false
deriving DecidableEq, Inhabited

namespace Collation

/-- Order of text by code points, of lower-cased text where case is ignored. -/
def compareText (c : Collation) (a b : List Char) : Ordering :=
  if c.ignoreCase then Text.compareChars (Text.lower a) (Text.lower b)
  else Text.compareChars a b

/-- Order between values that have nothing else to go by. -/
def typeRank : Value → Nat
  | .null => 0
  | .boolean _ => 1
  | .smallint _ | .integer _ | .bigint _ | .decimal _ | .real _ | .double _ => 2
  | .char _ | .varchar _ | .clob _ => 3
  | .varbinary _ | .blob _ => 4
  | .date _ | .timestamp _ => 5
  | .time _ => 6
  | .array _ => 7
  | .xml _ => 8
  | .resultSet .. => 9
  | .object _ => 10

/-- The text that comparison looks at; a `char` loses the spaces at its end. -/
def textKey? : Value → Option (List Char)
  | .char s => some (Text.dropTail (· == ' ') s.toList)
  | .varchar s | .clob s => some s.toList
  | _ => none

/-- Comparison of anything but two arrays. Numbers are taken exactly where both are exact and as
doubles otherwise; dates count as their midnight against timestamps. -/
def compareScalars (c : Collation) (a b : Value) : Ordering :=
  match a.isNull, b.isNull with
  | true, true => .eq
  | true, false => .lt
  | false, true => .gt
  | false, false =>
    match a.toDecimal?, b.toDecimal? with
    | some x, some y => x.compare y
    | _, _ =>
      match a.toDouble?, b.toDouble? with
      | some x, some y => x.totalCompare y
      | _, _ =>
        match textKey? a, textKey? b with
        | some x, some y => c.compareText x y
        | _, _ =>
          match a, b with
          | .boolean x, .boolean y => Ord.compare x.toNat y.toNat
          | .varbinary x, .varbinary y | .varbinary x, .blob y => Text.compareBytes x y
          | .blob x, .varbinary y | .blob x, .blob y => Text.compareBytes x y
          | .date x, .date y => x.compare y
          | .timestamp x, .timestamp y => x.compare y
          | .date x, .timestamp y => (Timestamp.atMidnight x).compare y
          | .timestamp x, .date y => x.compare (Timestamp.atMidnight y)
          | .time x, .time y => x.compare y
          | .xml x, .xml y => Text.compareStrings x y
          | .object x, .object y => Text.compareBytes x y
          | .resultSet _ x, .resultSet _ y => Ord.compare x.length y.length
          | a, b => Ord.compare (typeRank a) (typeRank b)

mutual

/-- The total order. Arrays are compared item by item. -/
def compare (c : Collation) : Value → Value → Ordering
  | .array x, .array y => compareItems c x y
  | a, b => c.compareScalars a b

def compareItems (c : Collation) : List Value → List Value → Ordering
  | [], [] => .eq
  | [], _ :: _ => .lt
  | _ :: _, [] => .gt
  | a :: r, b :: s => (compare c a b).then (compareItems c r s)

end

def areEqual (c : Collation) (a b : Value) : Bool := c.compare a b == .eq

def text (c : Collation) : String :=
  "CompareMode \x7b ignore_case: " ++ Text.boolText c.ignoreCase ++ " \x7d"

end Collation

namespace Value

/-- Comparison of values of like types. Nulls, NaNs and values of unlike types compare with nothing. -/
def partialCompare? (a b : Value) : Option Ordering :=
  match a, b with
  | real x, real y => x.compare? y
  | double x, double y => x.compare? y
  | char x, char y =>
    some (Text.compareChars (Text.dropTail Text.isBlank x.toList)
      (Text.dropTail Text.isBlank y.toList))
  | varchar x, varchar y | clob x, clob y => some (Text.compareStrings x y)
  | boolean x, boolean y => some (Ord.compare x.toNat y.toNat)
  | date x, date y => some (x.compare y)
  | time x, time y => some (x.compare y)
  | timestamp x, timestamp y => some (x.compare y)
  | varbinary x, varbinary y | blob x, blob y => some (Text.compareBytes x y)
  | a, b =>
    match a.toDecimal?, b.toDecimal? with
    | some x, some y => some (x.compare y)
    | _, _ => none

mutual

def same : Value → Value → Bool
  | null, null => true
  | boolean x, boolean y => x == y
  | smallint x, smallint y => x == y
  | integer x, integer y => x == y
  | bigint x, bigint y => x == y
  | decimal x, decimal y => x.sameValue y
  | real x, real y => x.eq y
  | double x, double y => x.eq y
  | char x, char y | varchar x, varchar y | clob x, clob y | xml x, xml y => x == y
  | varbinary x, varbinary y | blob x, blob y | object x, object y => x == y
  | date x, date y => x == y
  | time x, time y => x == y
  | timestamp x, timestamp y => x == y
  | array x, array y => sameItems x y
  | resultSet c x, resultSet d y => c == d && sameRows x y
  | _, _ => false

def sameItems : List Value → List Value → Bool
  | [], [] => true
  | a :: r, b :: s => same a b && sameItems r s
  | _, _ => false

def sameRows : List (List Value) → List (List Value) → Bool
  | [], [] => true
  | a :: r, b :: s => sameItems a b && sameRows r s
  | _, _ => false

end

end Value

end SqlEngine
