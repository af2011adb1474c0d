import SqlEngine.DataType
import SqlEngine.Json.Basic

/-!
# Data types in documents

A type without sizes is its name; a type with sizes is an object whose only key is its name and whose
value holds the sizes by key. A type without sizes may also be such a key with nothing behind it, and
unknown sizes are passed over.
-/

namespace SqlEngine.DataType

/-- The types without sizes. -/
def plain : List (String × DataType) :=
  [("Boolean", boolean), ("Smallint", smallint), ("Integer", integer), ("Bigint", bigint),
    ("Real", real), ("DoublePrecision", double), ("CharacterLargeObject", clob),
    ("Varbinary", varbinary), ("BinaryLargeObject", blob), ("Date", date), ("Time", time),
    ("Timestamp", timestamp), ("Array", array), ("Xml", xml), ("ResultSet", resultSet),
    ("Object", object), ("Null", null)]

/-- A whole number below a bound. -/
def size? (bound : Nat) : Json → Option Nat
  | .integer n => if 0 ≤ n && n < bound then some n.toNat else none
  | _ => none

/-- A size or nothing. -/
def optionalSize? (bound : Nat) : Json → Option (Option Nat)
  | .null => some none
  | j => (size? bound j).map some

/-- A size by its key; a missing one counts as null. -/
def sizeOf? (key : String) : Json → Option Json
  | .object fields => some ((fields.lookup key).getD .null)
  | _ => none

def ofJson? : Json → Option DataType
  | .string name => plain.lookup name
  | .object [(name, body)] =>
    match name with
    | "Decimal" => do
      return decimal (← optionalSize? 256 (← sizeOf? "precision" body))
        (← optionalSize? 256 (← sizeOf? "scale" body))
    | "Character" => do return char (← size? 0x10000000000000000 (← sizeOf? "length" body))
    | "Varchar" => do return varchar (← optionalSize? 0x10000000000000000 (← sizeOf? "max_length" body))
    | name => match body with
      | .null => plain.lookup name
      | _ => none
  | _ => none

def sizeJson : Option Nat → Json
  | some n => .integer n
  | none => .null

def toJson : DataType → Json
  | decimal p s =>
    .ofFields [("Decimal", .ofFields [("precision", sizeJson p), ("scale", sizeJson s)])]
  | char n => .ofFields [("Character", .ofFields [("length", .integer n)])]
  | varchar n => .ofFields [("Varchar", .ofFields [("max_length", sizeJson n)])]
  | t => match plain.find? (·.2 == t) with
    | some (name, _) => .string name
    | none => .null

end SqlEngine.DataType
