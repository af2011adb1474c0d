import SqlEngine.Alias.Candidate
import SqlEngine.Alias.Target
import SqlEngine.Compiler
import SqlEngine.Library

/-!
# Function aliases

Names that expressions call methods by. The candidates of an alias are found once and then stay as
they are, whatever happens to the library, until the alias is dropped.
-/

namespace SqlEngine

/-- A dropped alias has no target any more. -/
structure Alias where
  schema : String
  id : UInt32
  name : String
  target : Option AliasTarget
  deterministic : Bool := false
  candidates : Option (List Candidate) := none

namespace Alias

/-- The class that source for an alias is compiled into. -/
def sourceClass (name : String) : String := "org.keelsql.dynamic." ++ name

def className? (a : Alias) : Option String :=
  a.target.map fun
    | .classMethod className _ => className
    | .source _ => sourceClass a.name

def methodName? (a : Alias) : Option String :=
  a.target.bind fun
    | .classMethod _ method => some method
    | .source _ => none

def source? (a : Alias) : Option String :=
  a.target.bind fun
    | .classMethod .. => none
    | .source text => some text

/-- Compiles source; a fault in it is a syntax error of the alias. -/
def compile (compiler : Compiler) (name source : String) :
    Except EngineError (List Candidate) × Compiler :=
  match compiler.compile (sourceClass name) source with
  | (.ok m, compiler) => (.ok [⟨sourceClass name, m, 0⟩], compiler)
  | (.error (.engine e), compiler) => (.error e, compiler)
  | (.error (.fault _), compiler) => (.error (.syntaxError source), compiler)

/-- Finds the candidates afresh. -/
def resolve (library : Library) (compiler : Compiler) (a : Alias) :
    Except EngineError (List Candidate) × Compiler :=
  match a.target with
  | none => (.error (.functionNotFound a.name), compiler)
  | some (.source text) => compile compiler a.name text
  | some (.classMethod className method) =>
    (library.load className >>= fun c => Candidate.ofClass c method, compiler)

/-- The candidates, and the alias with its candidates kept. -/
def load (library : Library) (compiler : Compiler) (a : Alias) :
    Except EngineError (List Candidate) × Compiler × Alias :=
  match a.candidates with
  | some candidates => (.ok candidates, compiler, a)
  | none => match a.resolve library compiler with
    | (.ok candidates, compiler) => (.ok candidates, compiler, { a with candidates := candidates })
    | (.error e, compiler) => (.error e, compiler, a)

/-- The candidate for a number of arguments. -/
def select (a : Alias) (candidates : List Candidate) (count : Nat) : Except EngineError Candidate :=
  match Candidate.select? candidates count with
  | some c => .ok c
  | none => .error (.methodNotFound a.name (a.className?.getD "") count)

def drop (a : Alias) : Alias := { a with target := none, candidates := none }

end Alias

end SqlEngine
