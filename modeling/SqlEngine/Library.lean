import SqlEngine.EngineError
import SqlEngine.Native.Method

/-!
# Libraries

Classes of native methods by name.
-/

namespace SqlEngine

structure Library where
  classes : List NativeClass := []

namespace Library

def find? (l : Library) (name : String) : Option NativeClass := l.classes.find? (·.name == name)

def contains (l : Library) (name : String) : Bool := (l.find? name).isSome

/-- Adds a class in place of one of the same name. -/
def register (l : Library) (c : NativeClass) : Library :=
  ⟨l.classes.filter (·.name != c.name) ++ [c]⟩

def load (l : Library) (name : String) : Except EngineError NativeClass :=
  match l.find? name with
  | some c => .ok c
  | none => .error (.classNotFound name)

theorem find?_register (l : Library) (c : NativeClass) : (l.register c).find? c.name = some c := by
  have none : (l.classes.filter (·.name != c.name)).find? (·.name == c.name) = none := by
    simp only [List.find?_eq_none, List.mem_filter]
    intro d h
    simpa using h.2
  simp [register, find?, List.find?_append, none]

end Library

end SqlEngine
