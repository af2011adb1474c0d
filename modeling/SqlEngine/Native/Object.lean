import SqlEngine.Json.Parser
import SqlEngine.Json.Printer

/-!
# Native objects

Objects of native classes and their serialized form. The usual form is a JSON object with the class
name and the fields, in either order and with anything else passed over, or an array of the two.
-/

namespace SqlEngine

/-- A failure reported by native code, perhaps with what caused it. -/
structure NativeFailure where
  message : String
  source : Option String := none
deriving DecidableEq

structure NativeObject where
  className : String
  fields : Json

namespace NativeObject

def isInstanceOf (o : NativeObject) (className : String) : Bool := o.className == className

def text (o : NativeObject) : String := o.className ++ o.fields.text

def document (o : NativeObject) : Json :=
  .object [("class_name", .string o.className), ("fields", o.fields)]

/-- How deep arrays and objects may stand inside each other. -/
def depthLimit : Nat := 127

/-- The members of the outer object up to its closing brace. Those with other keys only need the right
form. -/
def readMembers : Nat → List Char → Option (List (String × Json) × List Char)
  | 0, _ => none
  | fuel + 1, cs => do
    let (key, r) ← Json.readKey false cs
    let known := key == "class_name" || key == "fields"
    let (v, r) ← Json.readValue (!known) (2 * r.length + 2) (depthLimit - 1) r
    match Json.skipSpace r with
    | ',' :: r =>
      let (ms, r) ← readMembers fuel r
      return ((key, v) :: ms, r)
    | '\x7d' :: r => return ([(key, v)], r)
    | _ => none

/-- The only member of that key. -/
def onlyMember? (key : String) (members : List (String × Json)) : Option Json :=
  match members.filter (·.1 == key) with
  | [(_, v)] => some v
  | _ => none

def ofParts? (className fields : Json) : Option NativeObject :=
  match className with
  | .string name => some ⟨name, fields⟩
  | _ => none

def ofChars? (cs : List Char) : Option NativeObject :=
  match Json.skipSpace cs with
  | '\x7b' :: r => do
    let (members, r) ← match Json.skipSpace r with
      | '\x7d' :: r => some ([], r)
      | r => readMembers (r.length + 1) r
    if (Json.skipSpace r).isEmpty then
      ofParts? (← onlyMember? "class_name" members) (← onlyMember? "fields" members)
    else none
  | cs => do
    match ← Json.ofChars? depthLimit cs with
    | .array [className, fields] => ofParts? className fields
    | _ => none

end NativeObject

/-- The codec of a database for objects in values. -/
structure Serializer where
  serialize : NativeObject → Except NativeFailure (List UInt8)
  deserialize : List UInt8 → Except NativeFailure NativeObject

namespace Serializer

def json : Serializer where
  serialize o := .ok o.document.text.toUTF8.toList
  deserialize bytes :=
    match (String.fromUTF8? ⟨bytes.toArray⟩).bind fun s => NativeObject.ofChars? s.toList with
    | some o => .ok o
    | none => .error ⟨"cannot deserialize object", none⟩

/-- Refuses every object, in both directions. -/
def refusing : Serializer where
  serialize o := .error ⟨"no serialization of " ++ o.className, none⟩
  deserialize bytes := .error ⟨"no deserialization of " ++ Text.natText bytes.length ++ " bytes", none⟩

end Serializer

end SqlEngine
