/-!
# Settings documents

The tables of a TOML document. Only truth values keep their content; of any other value it is enough
that it is well formed. A table remembers how it came about, because that decides what may be added to
it later: one that only stands on the way to another table may still get a header of its own, and one
made by a dotted key may only be extended by dotted keys.
-/

namespace SqlEngine

inductive Toml where
  | boolean (b : Bool)
  | other
  | table (implicit dotted : Bool) (entries : List (String × Toml))
  | tables (items : List Toml)

namespace Toml

instance : Inhabited Toml := ⟨other⟩

def emptyTable : Toml := table false false []

def put (key : String) (v : Toml) : List (String × Toml) → List (String × Toml)
  | [] => [(key, v)]
  | (k, w) :: r => if k == key then (k, v) :: r else (k, w) :: put key v r

def field? (key : String) : Toml → Option Toml
  | table _ _ entries => entries.lookup key
  | _ => none

/-- Changes the table at the end of a path. Missing tables on the way are made; through an array of
tables the way leads into its last one. -/
def update (dotted : Bool) (change : Toml → Option Toml) : List String → Toml → Option Toml
  | [], t => change t
  | k :: path, table implicit isDotted entries =>
    let step (child : Toml) : Option Toml := update dotted change path child
    match entries.lookup k with
    | none => (step (table true dotted [])).map fun c => table implicit isDotted (put k c entries)
    | some (table i d es) =>
      if dotted && !i then none
      else (step (table i d es)).map fun c => table implicit isDotted (put k c entries)
    | some (tables items) => match items.getLast? with
      | some last => (step last).map fun c =>
          table implicit isDotted (put k (tables (items.dropLast ++ [c])) entries)
      | none => none
    | some _ => none
  | _ :: _, _ => none

/-- Adds `path.key = v`. The key must be new, and a table takes either plain keys or dotted ones. -/
def insert (path : List String) (key : String) (v : Toml) (t : Toml) : Option Toml :=
  update true (fun
    | table implicit dotted entries =>
      if dotted == path.isEmpty || (entries.lookup key).isSome then none
      else some (table implicit dotted (put key v entries))
    | _ => none) path t

/-- Adds `path.key = v` to the table under a header. -/
def insertUnder (header path : List String) (key : String) (v : Toml) (t : Toml) : Option Toml :=
  update false (insert path key v) header t

/-- Opens the table of a header: a new one, or one that only stood on the way to others. -/
def openTable (path : List String) (key : String) (t : Toml) : Option Toml :=
  update false (fun
    | table implicit dotted entries => match entries.lookup key with
      | none => some (table implicit dotted (put key emptyTable entries))
      | some (table true false es) =>
        some (table implicit dotted (put key (table false false es) entries))
      | some _ => none
    | _ => none) path t

/-- Appends a table to the array of tables of a header. -/
def openItem (path : List String) (key : String) (t : Toml) : Option Toml :=
  update false (fun
    | table implicit dotted entries => match entries.lookup key with
      | none => some (table implicit dotted (put key (tables [emptyTable]) entries))
      | some (tables items) =>
        some (table implicit dotted (put key (tables (items ++ [emptyTable])) entries))
      | some _ => none
    | _ => none) path t

end Toml

end SqlEngine
