import SqlEngine.Text.Number

/-!
# Data types

The types of columns, expressions and values, and how they are written.
-/

namespace SqlEngine

/-- A decimal type or a text type without a number is not constrained by it. -/
inductive DataType where
  | boolean
  | smallint
  | integer
  | bigint
  | decimal (precision scale : Option Nat)
  | real
  | double
  | char (length : Nat)
  | varchar (maxLength : Option Nat)
  | clob
  | varbinary
  | blob
  | date
  | time
  | timestamp
  | array
  | xml
  | resultSet
  | object
  | null
deriving DecidableEq

namespace DataType

def anyDecimal : DataType := decimal none none

def anyVarchar : DataType := varchar none

def isExactNumeric : DataType → Bool
  | smallint | integer | bigint | decimal .. => true
  | _ => false

def isNumeric : DataType → Bool
  | real | double => true
  | t => t.isExactNumeric

def isCharacterString : DataType → Bool
  | char .. | varchar .. | clob => true
  | _ => false

/-- A scale is written only behind a precision. -/
def text : DataType → String
  | boolean => "BOOLEAN"
  | smallint => "SMALLINT"
  | integer => "INTEGER"
  | bigint => "BIGINT"
  | decimal (some p) (some s) => "DECIMAL(" ++ Text.natText p ++ ", " ++ Text.natText s ++ ")"
  | decimal (some p) none => "DECIMAL(" ++ Text.natText p ++ ")"
  | decimal none _ => "DECIMAL"
  | real => "REAL"
  | double => "DOUBLE PRECISION"
  | char n => "CHAR(" ++ Text.natText n ++ ")"
  | varchar (some n) => "VARCHAR(" ++ Text.natText n ++ ")"
  | varchar none => "VARCHAR"
  | clob => "CLOB"
  | varbinary => "VARBINARY"
  | blob => "BLOB"
  | date => "DATE"
  | time => "TIME"
  | timestamp => "TIMESTAMP"
  | array => "ARRAY"
  | xml => "XML"
  | resultSet => "RESULT SET"
  | object => "OBJECT"
  | null => "NULL"

end DataType

end SqlEngine
