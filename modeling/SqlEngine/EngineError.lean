import SqlEngine.Native.Object
import SqlEngine.Value.Text
import SqlEngine.ValueError

/-!
# Errors of the engine

Why an expression cannot be evaluated, an alias cannot be made or found, or a call cannot be carried
out, and the text of each cause.
-/

namespace SqlEngine

/-- `syntaxError` carries the declaration or source it is about. A `nativeFailure` carries the call as
it was written and what native code reported. -/
inductive EngineError where
  | syntaxError (text : String)
  | methodNotFound (name target : String) (count : Nat)
  | duplicateArity (first second : String)
  | unsupportedConversion (what : String)
  | nativeFailure (call : String) (cause : NativeFailure)
  | invocation (reason : String)
  | renameUnsupported (name : String)
  | classNotFound (name : String)
  | noMatchingMethod (method className : String)
  | functionNotFound (name : String)
  | aliasExists (name : String)
  | typeMismatch (left : Value) (op : String) (right : Value)
  | tooDeep (depth limit : Nat)
  | tooFewConstants (count : Nat)
  | columnNotFound (column table : String)
  | value (e : ValueError)

namespace EngineError

def message : EngineError → String
  | syntaxError text => "syntax error in " ++ text
  | methodNotFound name target count =>
    "method " ++ name ++ " (" ++ target ++ ", parameter count: " ++ Text.natText count ++ ") not found"
  | duplicateArity first second =>
    "methods must have different parameter counts: " ++ first ++ ", " ++ second
  | unsupportedConversion what => "unsupported conversion: " ++ what
  | nativeFailure call cause => "exception calling native function " ++ call ++ ": " ++ cause.message
  | invocation reason => "invocation failed: " ++ reason
  | renameUnsupported name => "renaming " ++ name ++ " is not supported"
  | classNotFound name => "class " ++ name ++ " not found"
  | noMatchingMethod method className =>
    "public static method " ++ method ++ " (" ++ className ++ ") not found"
  | functionNotFound name => "function " ++ name ++ " not found"
  | aliasExists name => "function alias " ++ name ++ " already exists"
  | typeMismatch left op right => "type mismatch: " ++ left.text ++ " " ++ op ++ " " ++ right.text
  | tooDeep depth limit =>
    "expression depth " ++ Text.natText depth ++ " exceeds maximum " ++ Text.natText limit
  | tooFewConstants count =>
    "IN list with " ++ Text.natText count ++ " constant(s) cannot be a constant-set condition"
  | columnNotFound column table => "column " ++ column ++ " not found in " ++ table
  | value e => e.message

/-- The name of the kind of error. -/
def kind : EngineError → String
  | syntaxError .. => "SyntaxError"
  | methodNotFound .. => "MethodNotFound"
  | duplicateArity .. => "DuplicateArity"
  | unsupportedConversion .. => "UnsupportedConversion"
  | nativeFailure .. => "NativeInvocation"
  | invocation .. => "Invocation"
  | renameUnsupported .. => "RenameUnsupported"
  | classNotFound .. => "ClassNotFound"
  | noMatchingMethod .. => "NoMatchingMethod"
  | functionNotFound .. => "FunctionNotFound"
  | aliasExists .. => "AliasAlreadyExists"
  | typeMismatch .. => "TypeMismatch"
  | tooDeep .. => "ExpressionDepthExceeded"
  | tooFewConstants .. => "TooFewConstants"
  | columnNotFound .. => "ColumnNotFound"
  | value e => e.kind

end EngineError

end SqlEngine
