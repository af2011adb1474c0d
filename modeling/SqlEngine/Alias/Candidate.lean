import SqlEngine.EngineError
import SqlEngine.Native.Method

/-!
# Candidates

The methods that a call of an alias can bind to. Those of a class are told apart by how many arguments
they take, so two of them may not take the same number unless they are variadic. They are ordered with
the variadic ones last, and a call binds to the first that accepts its number of arguments.
-/

namespace SqlEngine

/-- A method of a class; `position` is its place among all methods of the class. -/
structure Candidate where
  className : String
  method : NativeMethod
  position : Nat

namespace Candidate

/-- A connection in front of the parameters is filled in by the engine. -/
def takesConnection (c : Candidate) : Bool :=
  match c.method.params with
  | p :: _ => p.type == .connection
  | [] => false

/-- The parameters that stand for arguments. -/
def columns (c : Candidate) : List ParamSpec :=
  if c.takesConnection then c.method.params.drop 1 else c.method.params

def paramCount (c : Candidate) : Nat := c.columns.length

/-- What each argument of a variadic tail has to be. -/
def tailSpec? (c : Candidate) : Option ParamSpec :=
  if c.method.variadic then
    match c.method.params.getLast? with
    | some ⟨.array element nullable, _⟩ => some ⟨element, nullable⟩
    | _ => none
  else none

def isVariadic (c : Candidate) : Bool := c.tailSpec?.isSome

def dataType? (c : Candidate) : Option DataType := c.method.returnType.dataType?

def text (c : Candidate) : String := c.className ++ "." ++ c.method.signature

/-- A variadic tail may be empty. -/
def accepts (c : Candidate) (count : Nat) : Bool :=
  c.paramCount == count || (c.isVariadic && c.paramCount ≤ count + 1)

/-- The order of preference. -/
def compare (a b : Candidate) : Ordering :=
  (Ord.compare a.isVariadic.toNat b.isVariadic.toNat).then <|
    (Ord.compare a.paramCount b.paramCount).then <|
      (Ord.compare a.takesConnection.toNat b.takesConnection.toNat).then <|
        Ord.compare a.position b.position

/-- Whether a number of arguments cannot tell two methods apart. -/
def clashesWith (a b : Candidate) : Bool :=
  !a.isVariadic && !b.isVariadic && a.paramCount == b.paramCount

/-- The first candidate that clashes with one before it, behind the one it clashes with. -/
def clash? (before : List Candidate) : List Candidate → Option (Candidate × Candidate)
  | [] => none
  | c :: r => match before.find? (·.clashesWith c) with
    | some b => some (b, c)
    | none => clash? (before ++ [c]) r

/-- The static methods of a class that go by a name or a signature. -/
def matching (c : NativeClass) (name : String) : List Candidate :=
  (c.methods.zipIdx.filter fun (m, _) => m.isStatic && (m.name == name || m.signature == name)).map
    fun (m, i) => ⟨c.name, m, i⟩

/-- The candidates of a class in order of preference. -/
def ofClass (c : NativeClass) (name : String) : Except EngineError (List Candidate) :=
  let found := matching c name
  match clash? [] found with
  | some (a, b) => .error (.duplicateArity a.text b.text)
  | none =>
    if found.isEmpty then .error (.noMatchingMethod name c.name) else .ok (Text.sort compare found)

def select? (candidates : List Candidate) (count : Nat) : Option Candidate :=
  candidates.find? (·.accepts count)

end Candidate

end SqlEngine
