import SqlEngine.Text.Number

/-!
# Connections

Handles through which native code reaches the session that called it. A handle never changes; whether
it is still open is known to its session.
-/

namespace SqlEngine

/-- A connection made only to look at result columns may read session state but not change it. -/
inductive ConnectionMode where
  | full
  | metadataOnly
deriving DecidableEq

/-- Connections are numbered within their session, and no number is used twice. -/
structure Connection where
  session : Nat
  number : Nat
  user : String
  mode : ConnectionMode
deriving DecidableEq

namespace Connection

def sameAs (a b : Connection) : Bool := a.session == b.session && a.number == b.number

def text (c : Connection) : String := "connection(session " ++ Text.natText c.session ++ ")"

def debugText (c : Connection) (isOpen : Bool) : String :=
  "ScopedConnection \x7b session_id: " ++ Text.natText c.session ++ ", mode: " ++
    (match c.mode with
      | .full => "Full"
      | .metadataOnly => "MetadataOnly") ++
    ", open: " ++ Text.boolText isOpen ++ " \x7d"

end Connection

end SqlEngine
