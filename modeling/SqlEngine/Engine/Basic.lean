import SqlEngine.Alias
import SqlEngine.Session
import SqlEngine.Settings
import SqlEngine.Value.Order

/-!
# The engine

All state of a database engine: its settings, where methods come from, the aliases and their names,
the sessions, and a journal of the native calls that were made. A `Run` is a computation that may fail
and may change the engine; what it changed before it failed stays changed. A `RunWith` has a state of its
own beside the engine.
-/

namespace SqlEngine

/-- One native call: the frame that the body saw, the ambient connection of the session as the body
began, and what the body remarked. -/
structure CallRecord where
  session : Nat
  method : String
  frame : CallFrame
  ambient : Option Connection
  remarks : List Remark

/-- Values are ordered by `compare`, which is the order of the collation unless the engine was given
another one. Aliases go by their place in `aliases`, where dropped ones stay; `names` holds the places of
the others under their upper-case names. -/
structure Engine where
  settings : Settings := {}
  collation : Collation := {}
  compare : Value → Value → Ordering := collation.compare
  compareText : String := collation.text
  library : Library := {}
  compiler : Compiler := {}
  serializer : Serializer := .json
  aliases : List Alias := []
  names : List (String × Nat) := []
  nextObject : UInt32 := 1
  sessions : List Session := []
  nextSession : Nat := 1
  journal : List CallRecord := []

abbrev Run (α : Type) := ExceptT EngineError (StateM Engine) α

/-- A run with a state of its own. What it changed there before it failed stays changed, too. -/
abbrev RunWith (σ α : Type) := ExceptT EngineError (StateT σ (StateM Engine)) α

namespace Run

def ofExcept {α : Type} (x : Except EngineError α) : Run α := ExceptT.mk (pure x)

/-- The outcome and the engine afterwards. -/
def outcome {α : Type} (r : Run α) (e : Engine) : Except EngineError α × Engine :=
  (ExceptT.run r).run e

def ofOutcome {α : Type} (f : Engine → Except EngineError α × Engine) : Run α := ExceptT.mk f

variable {α β : Type}

@[simp] theorem outcome_pure (a : α) (e : Engine) : (pure a : Run α).outcome e = (.ok a, e) := rfl

@[simp] theorem outcome_throw (x : EngineError) (e : Engine) :
    (throw x : Run α).outcome e = (.error x, e) := rfl

@[simp] theorem outcome_get (e : Engine) : (get : Run Engine).outcome e = (.ok e, e) := rfl

@[simp] theorem outcome_set (e' e : Engine) : (set e' : Run PUnit).outcome e = (.ok ⟨⟩, e') := rfl

@[simp] theorem outcome_modify (f : Engine → Engine) (e : Engine) :
    (modify f : Run PUnit).outcome e = (.ok ⟨⟩, f e) := rfl

@[simp] theorem outcome_ofExcept (x : Except EngineError α) (e : Engine) :
    (ofExcept x).outcome e = (x, e) := rfl

@[simp] theorem outcome_ofOutcome (f : Engine → Except EngineError α × Engine) (e : Engine) :
    (ofOutcome f).outcome e = f e := rfl

/-- The second computation goes on from the engine that the first one left, unless that failed. -/
theorem outcome_bind (r : Run α) (f : α → Run β) (e : Engine) :
    (r >>= f).outcome e =
      match r.outcome e with
      | (.ok a, e') => (f a).outcome e'
      | (.error x, e') => (.error x, e') := by
  simp only [outcome, ExceptT.run_bind, StateT.run_bind]
  cases (ExceptT.run r).run e with
  | mk x e' => cases x <;> rfl

theorem ext {r s : Run α} (h : ∀ e, r.outcome e = s.outcome e) : r = s := funext h

end Run

namespace RunWith

variable {σ α β : Type}

/-- A run that does not get at the state beside the engine. -/
def onEngine (r : Run α) : RunWith σ α := ExceptT.mk (StateT.lift (ExceptT.run r))

/-- The outcome, with the state and the engine afterwards. -/
def outcome (p : RunWith σ α) (s : σ) (e : Engine) : Except EngineError α × σ × Engine :=
  let ((x, s), e) := ((ExceptT.run p).run s).run e
  (x, s, e)

def ofOutcome (f : σ → Engine → Except EngineError α × σ × Engine) : RunWith σ α :=
  ExceptT.mk fun s e =>
    let (x, s, e) := f s e
    ((x, s), e)

variable (s : σ) (e : Engine)

@[simp] theorem outcome_pure (a : α) : (pure a : RunWith σ α).outcome s e = (.ok a, s, e) := rfl

@[simp] theorem outcome_throw (x : EngineError) :
    (throw x : RunWith σ α).outcome s e = (.error x, s, e) := rfl

@[simp] theorem outcome_getThe : (getThe σ : RunWith σ σ).outcome s e = (.ok s, s, e) := rfl

@[simp] theorem outcome_modifyThe (f : σ → σ) :
    (modifyThe σ f : RunWith σ PUnit).outcome s e = (.ok ⟨⟩, f s, e) := rfl

@[simp] theorem outcome_onEngine (r : Run α) :
    (onEngine r).outcome s e = ((r.outcome e).1, s, (r.outcome e).2) := rfl

@[simp] theorem outcome_ofOutcome (f : σ → Engine → Except EngineError α × σ × Engine) :
    (ofOutcome f).outcome s e = f s e := rfl

/-- The second computation goes on from the state and the engine that the first one left, unless that
failed. -/
theorem outcome_bind (p : RunWith σ α) (q : α → RunWith σ β) :
    (p >>= q).outcome s e =
      match p.outcome s e with
      | (.ok a, s', e') => (q a).outcome s' e'
      | (.error x, s', e') => (.error x, s', e') := by
  simp only [outcome, ExceptT.run_bind, StateT.run_bind]
  generalize (ExceptT.run p).run s = stepped
  simp only [bind, StateT.run]
  rcases stepped e with ⟨⟨x, s'⟩, e'⟩
  cases x <;> rfl

end RunWith

namespace Engine

def session (e : Engine) (id : Nat) : Session := (e.sessions.find? (·.id == id)).getD (.absent id)

def setSession (e : Engine) (s : Session) : Engine :=
  { e with sessions := e.sessions.map fun t => if t.id = s.id then s else t }

theorem ids_setSession (e : Engine) (s : Session) :
    (e.setSession s).sessions.map (·.id) = e.sessions.map (·.id) := by
  simp only [setSession, List.map_map]
  refine List.map_congr_left fun t _ => ?_
  simp only [Function.comp]
  split
  · next h => exact h.symm
  · rfl

theorem mem_sessions_setSession {e : Engine} {s t : Session} (h : t ∈ (e.setSession s).sessions) :
    t = s ∨ t ∈ e.sessions := by
  simp only [setSession, List.mem_map] at h
  obtain ⟨u, hu, rfl⟩ := h
  split
  · exact .inl rfl
  · exact .inr hu

/-- A change of one session is not seen by another one. -/
theorem session_setSession_of_ne (e : Engine) {s : Session} {id : Nat} (h : id ≠ s.id) :
    (e.setSession s).session id = e.session id := by
  simp only [session, setSession]
  congr 1
  induction e.sessions with
  | nil => rfl
  | cons t r ih =>
    by_cases ht : t.id = s.id
    · have away : (s.id == id) = false := by simpa using Ne.symm h
      simp [ht, away, ih]
    · by_cases hid : t.id = id <;> simp [List.find?_cons, ht, hid, ih]
      rw [if_neg (by rw [← hid]; exact ht)]
      simp [hid]

/-- A session that is there is replaced. -/
theorem session_setSession (e : Engine) {s : Session} (h : ∃ t ∈ e.sessions, t.id = s.id) :
    (e.setSession s).session s.id = s := by
  have found (ss : List Session) (h : ∃ t ∈ ss, t.id = s.id) :
      (ss.map fun t => if t.id = s.id then s else t).find? (·.id == s.id) = some s := by
    induction ss with
    | nil => simp at h
    | cons t r ih =>
      by_cases ht : t.id = s.id
      · simp [ht]
      · obtain ⟨u, hu, hid⟩ := h
        rcases List.mem_cons.1 hu with rfl | hu
        · exact absurd hid ht
        · simp [ht, ih ⟨u, hu, hid⟩]
  simp only [session, setSession, found _ h, Option.getD_some]

def updateSession (e : Engine) (id : Nat) (f : Session → Session) : Engine :=
  e.setSession (f (e.session id))

def newSession (e : Engine) (user : String) : Engine :=
  { e with sessions := e.sessions ++ [{ id := e.nextSession, user := user }],
           nextSession := e.nextSession + 1 }

def endSession (e : Engine) (id : Nat) : Engine := e.updateSession id ({ · with isLive := false })

def isOpen (e : Engine) (c : Connection) : Bool := (e.session c.session).isOpen c

def act (e : Engine) (c : Connection) (a : ConnectionAction) : Except NativeFailure Reply × Engine :=
  let (reply, s) := (e.session c.session).act c a
  (reply, e.setSession s)

def close (e : Engine) (c : Connection) : Engine :=
  e.updateSession c.session (·.disconnected c.number)

def closeAll (e : Engine) (cs : List Connection) : Engine := cs.foldl close e

end Engine

/-- What came of a native body, with what it made of its frame if it wrote to that. -/
structure Conducted where
  result : Except NativeFailure NativeValue
  remarks : List Remark
  frame : Option CallFrame
  engine : Engine

/-- Carries out a native body step by step. -/
def Interaction.conduct (e : Engine) : Interaction → Conducted
  | done v => ⟨.ok v, [], none, e⟩
  | fail f => ⟨.error f, [], none, e⟩
  | act c a next =>
    let (reply, e) := e.act c a
    (next reply).conduct e
  | remark r next =>
    let rest := next.conduct e
    { rest with remarks := r :: rest.remarks }
  | rewrite frame next =>
    let rest := next.conduct e
    { rest with frame := rest.frame.or (some frame) }

namespace Run

def connect (session : Nat) (mode : ConnectionMode) : Run Connection :=
  ofOutcome fun e =>
    let s := e.session session
    (.ok (s.newConnection mode), e.setSession s.connected)

/-- Calls a method and enters the call in the journal. Gives the result and what became of the frame. -/
def native (session : Nat) (m : NativeMethod) (frame : CallFrame) :
    Run (Except NativeFailure NativeValue × CallFrame) :=
  ofOutcome fun e =>
    let ambient := (e.session session).ambient
    let c := (m.body frame).conduct e
    let record : CallRecord := ⟨session, m.name, frame, ambient, c.remarks⟩
    (.ok (c.result, c.frame.getD frame), { c.engine with journal := c.engine.journal ++ [record] })

end Run

end SqlEngine
