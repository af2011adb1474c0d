import SqlEngine.Numeric.Shortest
import SqlEngine.Text.Hex
import SqlEngine.Value.Basic

/-!
# The text of values

How values are shown: bytes in hexadecimal, arrays in brackets, result sets and objects by size.
-/

namespace SqlEngine.Value

mutual

def text : Value → String
  | null => "NULL"
  | boolean b => if b then "TRUE" else "FALSE"
  | smallint n => Text.intText n.toInt
  | integer n => Text.intText n.toInt
  | bigint n => Text.intText n.toInt
  | decimal d => d.text
  | real x => x.text
  | double x => x.text
  | char s | varchar s | clob s | xml s => s
  | varbinary b | blob b => Text.hexText b
  | date d => d.text
  | time t => t.text
  | timestamp t => t.text
  | array items => "[" ++ String.intercalate ", " (texts items) ++ "]"
  | resultSet _ rows => "RESULT SET (" ++ Text.natText rows.length ++ " rows)"
  | object b => "OBJECT (" ++ Text.natText b.length ++ " bytes)"

def texts : List Value → List String
  | [] => []
  | v :: r => v.text :: texts r

end

theorem texts_eq_map (vs : List Value) : texts vs = vs.map text := by
  induction vs with
  | nil => simp [texts]
  | cons v r ih => simp [texts, ih]

end SqlEngine.Value
