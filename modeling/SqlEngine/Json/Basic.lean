import SqlEngine.Numeric.Binary
import SqlEngine.Text.Order

/-!
# JSON documents

Whole numbers and floating-point numbers are kept apart, and the keys of an object are kept in order
and once each.
-/

namespace SqlEngine

inductive Json where
  | null
  | boolean (b : Bool)
  | integer (n : Int)
  | float (x : Binary64)
  | string (s : String)
  | array (items : List Json)
  | object (fields : List (String × Json))

namespace Json

instance : Inhabited Json := ⟨null⟩

/-- Puts a field into its place; a field of the same key is replaced. -/
def insertField (key : String) (v : Json) : List (String × Json) → List (String × Json)
  | [] => [(key, v)]
  | (k, w) :: r => match Text.compareStrings key k with
    | .lt => (key, v) :: (k, w) :: r
    | .eq => (key, v) :: r
    | .gt => (k, w) :: insertField key v r

/-- The object of these fields; of several with one key the last stays. -/
def ofFields (fields : List (String × Json)) : Json :=
  object (fields.foldl (fun acc (k, v) => insertField k v acc) [])

def field? (key : String) : Json → Option Json
  | object fields => fields.lookup key
  | _ => none

end Json

end SqlEngine
