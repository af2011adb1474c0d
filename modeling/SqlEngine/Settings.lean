import SqlEngine.Text.Number
import SqlEngine.Toml.Parser

/-!
# Settings

The switches of a database, read from and written as a settings document. Keys that are left out keep
their usual value, keys that are not known are passed over.
-/

namespace SqlEngine

structure Settings where
  defaultConnection : Bool := false
  optimizeInList : Bool := true
  optimizeOr : Bool := true
  ignoreCase : Bool := false
deriving DecidableEq, Inhabited

namespace Settings

/-- The switch of that key: the usual value where it is left out, nothing where it is no truth value. -/
def switch? (doc : Toml) (key : String) (usual : Bool) : Option Bool :=
  match doc.field? key with
  | none => some usual
  | some (.boolean b) => some b
  | some _ => none

def ofToml? (doc : Toml) : Option Settings := do
  let usual : Settings := {}
  return {
    defaultConnection := ← switch? doc "default_connection" usual.defaultConnection
    optimizeInList := ← switch? doc "optimize_in_list" usual.optimizeInList
    optimizeOr := ← switch? doc "optimize_or" usual.optimizeOr
    ignoreCase := ← switch? doc "ignore_case" usual.ignoreCase }

def ofText? (s : String) : Option Settings := (Toml.ofText? s).bind ofToml?

/-- The switches by key, in their order. -/
def entries (s : Settings) : List (String × Bool) :=
  [("default_connection", s.defaultConnection), ("optimize_in_list", s.optimizeInList),
    ("optimize_or", s.optimizeOr), ("ignore_case", s.ignoreCase)]

def tomlText (s : Settings) : String :=
  String.join (s.entries.map fun (key, b) => key ++ " = " ++ Text.boolText b ++ "\n")

def debugText (s : Settings) : String :=
  "DatabaseSettings \x7b " ++
    String.intercalate ", " (s.entries.map fun (key, b) => key ++ ": " ++ Text.boolText b) ++
    " \x7d"

example : (ofText? "").map tomlText = some (tomlText {}) := by decide +kernel
example : (ofText? "ignore_case = true # on\n[a.b]\nc = [1, 2]").map (·.ignoreCase) = some true := by
  decide +kernel
example : ofText? "ignore_case = 1" = none := by decide +kernel

end Settings

end SqlEngine
