import SqlEngine.Native.Interaction

/-!
# Native methods

A native method is a signature and a body. Classes hold methods, perhaps several of one name.
-/

namespace SqlEngine

structure NativeMethod where
  name : String
  params : List ParamSpec
  returnType : NativeType
  variadic : Bool
  isStatic : Bool
  body : CallFrame → Interaction

namespace NativeMethod

/-- The form in which declarations name a method. -/
def signature (m : NativeMethod) : String :=
  m.name ++ "(" ++ String.intercalate "," (m.params.map (·.type.name)) ++ ")"

def debugText (m : NativeMethod) : String :=
  "NativeMethod \x7b signature: " ++ Text.quote m.signature ++ ", return_type: " ++
    m.returnType.debugText ++ ", variadic: " ++ Text.boolText m.variadic ++ ", is_static: " ++
    Text.boolText m.isStatic ++ " \x7d"

end NativeMethod

/-- A named group of methods. -/
structure NativeClass where
  name : String
  methods : List NativeMethod

end SqlEngine
