import SqlEngine.EngineError
import SqlEngine.Native.Method
import SqlEngine.Text.Blank

/-!
# Compilers

Turning source text into a native method. The compiler knows a fixed set of snippets, which it tells
apart by their words, and remembers for each class what it compiled last.
-/

namespace SqlEngine

/-- Why source does not compile: an error of the engine itself, or a fault in the source. -/
inductive CompileError where
  | engine (e : EngineError)
  | fault (message : String)

namespace CompileError

def message : CompileError → String
  | engine e => e.message
  | fault message => message

end CompileError

/-- Snippets go by normalized source. The cache holds for a class the source compiled last. A refusal
is a source for which a class is missing. -/
structure Compiler where
  snippets : List (String × NativeMethod) := []
  cache : List (String × String × NativeMethod) := []
  refusals : List (String × String) := []

namespace Compiler

/-- White space does not count. -/
def normalize (source : String) : String := Text.squeeze source

def register (c : Compiler) (source : String) (m : NativeMethod) : Compiler :=
  let key := normalize source
  { c with snippets := (key, m) :: c.snippets.filter (·.1 != key) }

def snippet? (c : Compiler) (source : String) : Option NativeMethod :=
  c.snippets.lookup (normalize source)

def isCached (c : Compiler) (className : String) : Bool := (c.cache.lookup className).isSome

/-- What the cache has for a class, if it is from this source. -/
def cached? (c : Compiler) (className source : String) : Option NativeMethod :=
  match c.cache.lookup className with
  | some (key, m) => if key == normalize source then some m else none
  | none => none

def remember (c : Compiler) (className source : String) (m : NativeMethod) : Compiler :=
  { c with cache := (className, normalize source, m) :: c.cache.filter (·.1 != className) }

def compile (c : Compiler) (className source : String) : Except CompileError NativeMethod × Compiler :=
  match c.refusals.lookup source with
  | some missing => (.error (.engine (.classNotFound missing)), c)
  | none => match c.cached? className source with
    | some m => (.ok m, c)
    | none => match c.snippet? source with
      | some m => (.ok m, c.remember className source m)
      | none => (.error (.fault ("cannot compile " ++ className)), c)

end Compiler

end SqlEngine
