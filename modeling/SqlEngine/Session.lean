import SqlEngine.Native.Interaction

/-!
# Sessions

The state of a user's session and of the connections to it. A session can be reached through a
connection only while that connection is open, and changed only through a full one.
-/

namespace SqlEngine

/-- `ambient` is the connection that a running native call may take for granted. -/
structure Session where
  id : Nat
  user : String
  isLive : Bool := true
  autoCommit : Bool := true
  lastIdentity : Value := .null
  ambient : Option Connection := none
  openNumbers : List Nat := []
  nextNumber : Nat := 0

namespace Session

/-- What is found where there is no session: nothing can be done with it. -/
def absent (id : Nat) : Session := { id := id, user := "", isLive := false }

def isOpen (s : Session) (c : Connection) : Bool := s.openNumbers.contains c.number

def newConnection (s : Session) (mode : ConnectionMode) : Connection :=
  ⟨s.id, s.nextNumber, s.user, mode⟩

/-- The session after its new connection was made. -/
def connected (s : Session) : Session :=
  { s with openNumbers := s.nextNumber :: s.openNumbers, nextNumber := s.nextNumber + 1 }

/-- The session after the connection with that number was closed. -/
def disconnected (s : Session) (number : Nat) : Session :=
  { s with openNumbers := s.openNumbers.filter (· ≠ number) }

@[simp] theorem isOpen_connected (s : Session) (mode : ConnectionMode) :
    s.connected.isOpen (s.newConnection mode) = true := by
  simp [isOpen, connected, newConnection]

/-- Connections with other numbers stay as they are. -/
theorem isOpen_disconnected (s : Session) (number : Nat) (c : Connection) :
    (s.disconnected number).isOpen c = (s.isOpen c && decide (c.number ≠ number)) := by
  rw [Bool.eq_iff_iff]
  simp [isOpen, disconnected]

def closed : NativeFailure := ⟨"connection is closed", none⟩

def readOnly : NativeFailure := ⟨"connection is metadata-only", none⟩

def ended : NativeFailure := ⟨"session is closed", none⟩

def onOpen (s : Session) (c : Connection) (r : Except NativeFailure Reply) :
    Except NativeFailure Reply :=
  if s.isOpen c then r else .error closed

def read (s : Session) (c : Connection) (r : Reply) : Except NativeFailure Reply :=
  s.onOpen c (if s.isLive then .ok r else .error ended)

/-- What comes of a change through a connection. -/
def write (s : Session) (c : Connection) : Except NativeFailure Reply :=
  if c.mode = .metadataOnly then s.onOpen c (.error readOnly) else s.read c .done

/-- Keeps a change that was allowed. -/
def change (s : Session) (c : Connection) (t : Session) : Except NativeFailure Reply × Session :=
  match s.write c with
  | .ok r => (.ok r, t)
  | .error e => (.error e, s)

/-- Carries out what is asked of a connection. -/
def act (s : Session) (c : Connection) : ConnectionAction → Except NativeFailure Reply × Session
  | .isOpen => (.ok (.flag (s.isOpen c)), s)
  | .create content => (s.onOpen c (.ok (.bridge content c)), s)
  | .autoCommit => (s.read c (.flag s.autoCommit), s)
  | .lastIdentity => (s.read c (.value s.lastIdentity), s)
  | .setAutoCommit b => s.change c { s with autoCommit := b }
  | .setLastIdentity v => s.change c { s with lastIdentity := v }

end Session

end SqlEngine
