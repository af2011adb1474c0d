import SqlEngine.DataType
import SqlEngine.Text.Case
import SqlEngine.Value.Basic

/-!
# Schemas and rows

The shape of a table, with columns found by name whatever the case, and rows that follow it by
position.
-/

namespace SqlEngine

structure Column where
  name : String
  type : DataType
  nullable : Bool
deriving DecidableEq

structure Schema where
  name : String
  columns : List Column
deriving DecidableEq

abbrev Row := List Value

namespace Schema

/-- The schema that constant expressions are evaluated in. -/
def empty : Schema := ⟨"", []⟩

/-- The first column of that name. -/
def indexOf? (s : Schema) (column : String) : Option Nat :=
  s.columns.findIdx? fun c => Text.sameName c.name column

def column? (s : Schema) (column : String) : Option Column :=
  s.columns.find? fun c => Text.sameName c.name column

/-- Whether a reference that may name a table means this one, by its own name or by an alias. -/
def answersTo (s : Schema) (tableAlias : Option String) : Option String → Bool
  | none => true
  | some t => Text.sameName t s.name || tableAlias.any (Text.sameName t)

end Schema

end SqlEngine
