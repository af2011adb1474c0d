import SqlEngine.Expr.Basic
import SqlEngine.Value.Text

/-!
# The text of expressions

Operators are written in brackets and text in single quotes, where a quote inside is written twice.
-/

namespace SqlEngine.Expr

def quoted (s : String) : String :=
  String.ofList ('\'' :: s.toList.flatMap (fun c => if c = '\'' then ['\'', '\''] else [c]) ++ ['\''])

def literalText : Value → String
  | .char s | .varchar s | .clob s => quoted s
  | v => v.text

def listText (items : List String) : String := String.intercalate ", " items

mutual

def text : Expr → String
  | literal v => literalText v
  | column (some table) name => table ++ "." ++ name
  | column none name => name
  | binary op l r => "(" ++ l.text ++ " " ++ op.symbol ++ " " ++ r.text ++ ")"
  | not e => "(NOT " ++ e.text ++ ")"
  | negate e => "(- " ++ e.text ++ ")"
  | call name args => name ++ "(" ++ listText (texts args) ++ ")"
  | isNull e negated => "(" ++ e.text ++ (if negated then " IS NOT NULL)" else " IS NULL)")
  | inList e values negated =>
    "(" ++ e.text ++ (if negated then " NOT IN(" else " IN(") ++ listText (texts values) ++ "))"
  | cast e type => "CAST(" ++ e.text ++ " AS " ++ type.text ++ ")"

def texts : List Expr → List String
  | [] => []
  | e :: r => e.text :: texts r

end

example : (binary .equal (column (some "t") "a") (literal (.varchar "it's"))).text =
    "(t.a = 'it''s')" := by decide +kernel

end SqlEngine.Expr
