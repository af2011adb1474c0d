/-!
# Errors of values

Why a value cannot be read or converted, and the text of each cause.
-/

namespace SqlEngine

/-- What a piece of text was meant to be. -/
inductive LiteralKind where
  | boolean
  | integer
  | decimal
  | double
  | binary
  | date
  | time
  | timestamp
deriving DecidableEq

namespace LiteralKind

def word : LiteralKind → String
  | boolean => "boolean"
  | integer => "integer"
  | decimal => "decimal"
  | double => "double"
  | binary => "binary"
  | date => "date"
  | time => "time"
  | timestamp => "timestamp"

end LiteralKind

/-- Values and types stand in the errors as they are written. -/
inductive ValueError where
  | unconvertible (value source target : String)
  | outOfRange (value target : String)
  | tooLong (value target : String)
  | malformed (kind : LiteralKind) (text : String)
deriving DecidableEq

namespace ValueError

def message : ValueError → String
  | unconvertible value source target =>
    "cannot convert " ++ value ++ " from " ++ source ++ " to " ++ target
  | outOfRange value target => "numeric value out of range for " ++ target ++ ": " ++ value
  | tooLong value target => "value too long for " ++ target ++ ": '" ++ value ++ "'"
  | malformed kind text => "invalid " ++ kind.word ++ " literal '" ++ text ++ "'"

/-- The name of the kind of error. -/
def kind : ValueError → String
  | unconvertible .. => "Type.ConversionFailed"
  | outOfRange .. => "Type.NumericOverflow"
  | tooLong .. => "Type.ValueTooLong"
  | malformed .. => "Type.InvalidFormat"

end ValueError

end SqlEngine
