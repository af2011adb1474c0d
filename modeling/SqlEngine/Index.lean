import SqlEngine.Expr.Text
import SqlEngine.Schema

/-!
# Index lookups

What an index of a table can be asked for, and the filter of a table that collects such lookups.
-/

namespace SqlEngine

/-- The constants stand as they were written. -/
inductive IndexLookup where
  | equality (column : String) (value : Expr)
  | inList (column : String) (values : List Expr)

namespace IndexLookup

def column : IndexLookup → String
  | equality column _ | inList column _ => column

def text : IndexLookup → String
  | equality column value => column ++ " = " ++ value.text
  | inList column values => column ++ " IN(" ++ Expr.listText (values.map (·.text)) ++ ")"

end IndexLookup

/-- One table of a query, by its own name or an alias. -/
structure TableFilter where
  table : Schema
  tableAlias : Option String := none
  lookups : List IndexLookup := []

namespace TableFilter

/-- Whether a reference to a column, with or without a table, means a column of this table. -/
def owns (f : TableFilter) (table : Option String) (column : String) : Bool :=
  f.table.answersTo f.tableAlias table && (f.table.indexOf? column).isSome

def offer (f : TableFilter) (lookup : IndexLookup) : TableFilter :=
  { f with lookups := f.lookups ++ [lookup] }

end TableFilter

end SqlEngine
