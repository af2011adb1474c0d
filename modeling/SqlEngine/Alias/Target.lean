import SqlEngine.Text.Blank
import SqlEngine.Text.Split

/-!
# What an alias stands for

An alias is declared for a method of a class, by its simple name or with the types of its parameters,
or for source text. White space in a declaration does not count.
-/

namespace SqlEngine

inductive AliasTarget where
  | classMethod (className method : String)
  | source (text : String)
deriving DecidableEq

namespace AliasTarget

/-- Reads `class.method` or `class.method(types)`: the last point before the first bracket separates
the two. -/
def ofDeclaration? (declaration : String) : Option AliasTarget :=
  let cs := declaration.toList.filter (!Text.isBlank ·)
  match Text.splitLast? '.' (cs.takeWhile (· != '(')) with
  | none => none
  | some (className, name) =>
    let method := name ++ cs.dropWhile (· != '(')
    if className.isEmpty || method.isEmpty then none
    else some (classMethod (String.ofList className) (String.ofList method))

example : ofDeclaration? "geo.Shape . area (i32, f64)" =
    some (classMethod "geo.Shape" "area(i32,f64)") := by decide +kernel
example : ofDeclaration? "area(geo.Shape)" = none := by decide +kernel

end AliasTarget

end SqlEngine
