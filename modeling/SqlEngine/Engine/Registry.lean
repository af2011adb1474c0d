import SqlEngine.Engine.Basic
import SqlEngine.Text.Case

/-!
# The registry of aliases

Making, finding and dropping aliases by name, whatever the case of the name. A failure leaves the
registry as it was.
-/

namespace SqlEngine

/-- Names that agree in upper case are one name. -/
def Alias.key (name : String) : String := String.ofList (Text.upper name.toList)

namespace Engine

def place? (e : Engine) (name : String) : Option Nat := e.names.lookup (Alias.key name)

def alias? (e : Engine) (place : Nat) : Option Alias := e.aliases[place]?

def findAlias? (e : Engine) (name : String) : Option Alias := do e.alias? (← e.place? name)

/-- The names of all aliases, sorted. -/
def aliasNames (e : Engine) : List String :=
  Text.sort Text.compareStrings (e.names.filterMap fun (_, place) => (e.alias? place).map (·.name))

def setAlias (e : Engine) (place : Nat) (a : Alias) : Engine :=
  { e with aliases := e.aliases.set place a }

/-- Adds an alias under its name. -/
def addAlias (e : Engine) (a : Alias) : Engine :=
  { e with aliases := e.aliases ++ [a], names := (Alias.key a.name, e.aliases.length) :: e.names }

def removeName (e : Engine) (name : String) : Engine :=
  { e with names := e.names.filter (·.1 != Alias.key name) }

def defaultSchema : String := "PUBLIC"

def debugText (e : Engine) : String :=
  "Database \x7b settings: " ++ e.settings.debugText ++ ", compare_mode: " ++ e.compareText ++
    ", aliases: [" ++
    String.intercalate ", " (e.aliasNames.map Text.quote) ++ "] \x7d"

end Engine

namespace Run

/-- A number that no object has had before, until all numbers are used up. -/
def newObject : Run UInt32 := do
  let e ← get
  set { e with nextObject := e.nextObject + 1 }
  return e.nextObject

/-- The candidates of an alias that need not be registered, and the alias with them kept. -/
def loadAlias (a : Alias) : Run (List Candidate × Alias) :=
  ofOutcome fun e =>
    let (candidates, compiler, a) := a.load e.library e.compiler
    (candidates.map fun cs => (cs, a), { e with compiler := compiler })

/-- Nothing is registered when the target cannot be loaded, unless that is forced; then it is tried
again at the first use. -/
def createAlias (name : String) (target : Except EngineError AliasTarget) (force : Bool) :
    Run Nat := do
  if ((← get).place? name).isSome then throw (.aliasExists name)
  let id ← newObject
  let a : Alias := { schema := Engine.defaultSchema, id := id, name := name,
                     target := some (← ofExcept target) }
  let a ← if force then tryCatch ((·.2) <$> loadAlias a) fun _ => pure a else (·.2) <$> loadAlias a
  let e ← get
  set (e.addAlias a)
  return e.aliases.length

/-- The target that a declaration names. -/
def declaredTarget (declaration : String) : Except EngineError AliasTarget :=
  match AliasTarget.ofDeclaration? declaration with
  | some t => .ok t
  | none => .error (.syntaxError declaration)

def createMethodAlias (name declaration : String) (force : Bool) : Run Nat :=
  createAlias name (declaredTarget declaration) force

def createSourceAlias (name source : String) (force : Bool) : Run Nat :=
  createAlias name (.ok (.source source)) force

/-- Whoever still holds the alias cannot call it any more. -/
def dropAlias (name : String) : Run Unit := do
  let e ← get
  match e.place? name with
  | none => throw (.functionNotFound name)
  | some place =>
    let e := e.removeName name
    set (match e.alias? place with
      | some a => e.setAlias place a.drop
      | none => e)

def renameAlias (a : Alias) : Run Unit := throw (.renameUnsupported a.name)

/-- The candidates of the alias at a place. -/
def load (place : Nat) (a : Alias) : Run (List Candidate) := do
  let (candidates, a) ← loadAlias a
  modify (·.setAlias place a)
  return candidates

def findMethod (place : Nat) (a : Alias) (count : Nat) : Run Candidate := do
  ofExcept (a.select (← load place a) count)

/-- The candidate that a call by name binds to. -/
def resolve (name : String) (count : Nat) : Run Candidate := do
  let e ← get
  match e.place? name with
  | none => throw (.functionNotFound name)
  | some place => match e.alias? place with
    | none => throw (.functionNotFound name)
    | some a => findMethod place a count

end Run

end SqlEngine
