import SqlEngine.Toml.Basic
import SqlEngine.Toml.Scalar

/-!
# Reading settings documents

A document is a sequence of lines, each a header, an entry or blank. Arrays and inline tables may stand
inside each other up to a limit, and a key may have as many parts.
-/

namespace SqlEngine.Toml

/-- Arrays and tables inside each other, and parts of a key, stay below this. -/
def depthLimit : Nat := 80

/-- A key as the path to its table and its last part. -/
def splitPath? (parts : List String) : Option (List String × String) :=
  if depthLimit ≤ parts.length then none
  else parts.getLast?.map fun last => (parts.dropLast, last)

def readWord? (word : String) (cs : List Char) : Option (List Char) :=
  let w := word.toList
  if w.isPrefixOf cs then some (cs.drop w.length) else none

mutual

/-- A value, with room for `depth` more arrays or tables inside each other. -/
def readValue? : Nat → Nat → List Char → Option (Toml × List Char)
  | 0, _, _ => none
  | fuel + 1, depth, cs =>
    match cs with
    | [] => none
    | c :: r =>
      if c = '\x22' || c = '\x27' then (skipString? cs).map fun r => (other, r)
      else if c = '[' then
        if depth = 0 then none else (skipItems? fuel (depth - 1) r).map fun r => (other, r)
      else if c = '\x7b' then
        if depth = 0 then none else (readInline? fuel (depth - 1) r).map fun r => (other, r)
      else if c = 't' then (readWord? "true" cs).map fun r => (boolean true, r)
      else if c = 'f' then (readWord? "false" cs).map fun r => (boolean false, r)
      else ((skipDateTime? cs).or (skipNumber? cs)).map fun r => (other, r)

/-- The items of an array up to its closing bracket. -/
def skipItems? : Nat → Nat → List Char → Option (List Char)
  | 0, _, _ => none
  | fuel + 1, depth, cs =>
    match skipBlank (cs.length + 1) cs with
    | ']' :: r => some r
    | cs => do
      let (_, r) ← readValue? fuel depth cs
      match skipBlank (r.length + 1) r with
      | ',' :: r => skipItems? fuel depth r
      | ']' :: r => some r
      | _ => none

/-- An inline table behind its opening brace. -/
def readInline? : Nat → Nat → List Char → Option (List Char)
  | 0, _, _ => none
  | fuel + 1, depth, cs =>
    match skipSpace cs with
    | '\x7d' :: r => some r
    | cs => readEntries? fuel depth emptyTable cs

/-- The entries of an inline table up to its closing brace. -/
def readEntries? : Nat → Nat → Toml → List Char → Option (List Char)
  | 0, _, _, _ => none
  | fuel + 1, depth, t, cs => do
    let (parts, r) ← readKey? (cs.length + 1) cs
    let (path, key) ← splitPath? parts
    let (v, r) ← readValue? fuel depth (skipSpace (← expect? '=' r))
    let t ← insert path key v t
    match skipSpace r with
    | ',' :: r => readEntries? fuel depth t r
    | '\x7d' :: r => some r
    | _ => none

end

/-- A line that is neither blank nor only a comment: the document after it, the path that entries go
to from then on, and the rest of the text. -/
def readStatement? (doc : Toml) (header : List String) (cs : List Char) :
    Option (Toml × List String × List Char) :=
  match cs with
  | '[' :: '[' :: r => do
    let (parts, r) ← readKey? (r.length + 1) r
    let (path, key) ← splitPath? parts
    let r ← endLine? (← expect? ']' (← expect? ']' r))
    return (← openItem path key doc, parts, r)
  | '[' :: r => do
    let (parts, r) ← readKey? (r.length + 1) r
    let (path, key) ← splitPath? parts
    let r ← endLine? (← expect? ']' r)
    return (← openTable path key doc, parts, r)
  | cs => do
    let (parts, r) ← readKey? (cs.length + 1) cs
    let (path, key) ← splitPath? parts
    let (v, r) ← readValue? (2 * r.length + 2) (depthLimit - 1) (skipSpace (← expect? '=' r))
    let r ← endLine? r
    return (← insertUnder header path key v doc, header, r)

def readLines? : Nat → Toml → List String → List Char → Option Toml
  | 0, _, _, _ => none
  | fuel + 1, doc, header, cs =>
    match skipBlank (cs.length + 1) cs with
    | [] => some doc
    | cs => do
      let (doc, header, r) ← readStatement? doc header cs
      readLines? fuel doc header r

/-- Reads a document; a byte order mark in front is passed over. -/
def ofText? (s : String) : Option Toml :=
  let cs := match s.toList with
    | '\ufeff' :: r => r
    | cs => cs
  readLines? (cs.length + 1) emptyTable [] cs

end SqlEngine.Toml
