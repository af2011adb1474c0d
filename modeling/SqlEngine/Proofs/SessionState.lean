import SqlEngine.Proofs.Effects

/-!
# The state of a session

Native bodies may change the state of their session through the connections of the call. Every run
of a body is undone on the way out, so an evaluation leaves the session as it was, whatever comes of
it. The list of sessions itself never changes, since states are written back by number.
-/

namespace SqlEngine

theorem Session.id_act (s : Session) (c : Connection) (a : ConnectionAction) :
    (s.act c a).2.id = s.id := by
  have change {t : Session} (same : t.id = s.id) : (s.change c t).2.id = s.id := by
    rw [Session.change]
    split
    · exact same
    · rfl
  cases a with
  | setAutoCommit b => exact change rfl
  | setLastIdentity v => exact change rfl
  | _ => rfl

namespace Engine

/-- The numbers of the sessions that are there. -/
def sessionIds (e : Engine) : List Nat := e.sessions.map (·.id)

theorem session_id (e : Engine) (id : Nat) : (e.session id).id = id := by
  simp only [session]
  cases found : e.sessions.find? (·.id == id) with
  | none => rfl
  | some s =>
    have same := List.find?_some found
    simpa using same

theorem session_absent {e : Engine} {id : Nat} (h : id ∉ e.sessionIds) :
    e.session id = .absent id := by
  have none : e.sessions.find? (·.id == id) = none := by
    rw [List.find?_eq_none]
    intro s hs same
    exact h (List.mem_map.2 ⟨s, hs, by simpa using same⟩)
  rw [session, none]
  rfl

theorem sessionIds_updateSession (e : Engine) (id : Nat) (f : Session → Session) :
    (e.updateSession id f).sessionIds = e.sessionIds :=
  e.ids_setSession _

/-- What a session is after one was written: that one, if it was there to be replaced. -/
theorem session_setSession_eq (e : Engine) (s : Session) (id : Nat) :
    (e.setSession s).session id = if id = s.id ∧ id ∈ e.sessionIds then s else e.session id := by
  by_cases same : id = s.id
  · subst same
    by_cases there : s.id ∈ e.sessionIds
    · obtain ⟨t, ht, named⟩ := List.mem_map.1 there
      rw [if_pos ⟨rfl, there⟩, e.session_setSession ⟨t, ht, named⟩]
    · have gone : s.id ∉ (e.setSession s).sessionIds := by rwa [sessionIds, ids_setSession]
      rw [if_neg fun h => there h.2, session_absent gone, session_absent there]
  · rw [if_neg fun h => same h.1, e.session_setSession_of_ne same]

theorem session_updateSession {e : Engine} {id : Nat} {f : Session → Session}
    (h : id ∈ e.sessionIds) (keeps : (f (e.session id)).id = id) :
    (e.updateSession id f).session id = f (e.session id) := by
  rw [updateSession, session_setSession_eq, if_pos ⟨keeps.symm, h⟩]

/-- Writing back what was read changes nothing. -/
theorem session_setSession_session (e : Engine) (id other : Nat) :
    (e.setSession (e.session id)).session other = e.session other := by
  rw [session_setSession_eq]
  split
  · next h => rw [h.1, session_id]
  · rfl

end Engine

/-- The same sessions are there. -/
def SameSessions (e f : Engine) : Prop := f.sessionIds = e.sessionIds

theorem sameSessions_writes : WriteRelation SameSessions where
  refl _ := rfl
  trans first second := Eq.trans second first
  setSession e s := e.ids_setSession s
  journal _ _ := rfl

/-- All sessions are as they were. -/
def SessionsStay (e f : Engine) : Prop := f.sessions = e.sessions

theorem sessionsStay_order : EffectOrder SessionsStay where
  refl _ := rfl
  trans first second := Eq.trans second first

theorem sessionsStay_loads : LoadRelation SessionsStay where
  toEffectOrder := sessionsStay_order
  compiler _ _ := rfl
  setAlias _ _ _ := rfl

theorem sessionsStay_createAlias (name : String) (target : Except EngineError AliasTarget)
    (force : Bool) : (Run.createAlias name target force).Relates SessionsStay := by
  have order := sessionsStay_order
  have made (load : Alias → Run Alias) (loads : ∀ a, (load a).Relates SessionsStay) : (do
      let id ← Run.newObject
      let t ← Run.ofExcept target
      let a ← load { schema := Engine.defaultSchema, id := id, name := name, target := some t }
      let e ← get
      set (e.addAlias a)
      return e.aliases.length : Run Nat).Relates SessionsStay :=
    order.bind (fun _ => rfl) fun _ => order.bind (order.ofExcept _) fun _ =>
      order.bind (loads _) fun _ _ => rfl
  have loaded (a : Alias) : ((·.2) <$> Run.loadAlias a).Relates SessionsStay :=
    order.map _ (sessionsStay_loads.loadAlias a)
  rw [Run.createAlias]
  refine order.bind order.get fun e => ?_
  cases force with
  | true =>
    have forced := made (fun a => tryCatch ((·.2) <$> Run.loadAlias a) fun _ => pure a)
      fun a => order.tryCatch (loaded a) fun _ => order.pure a
    simp only [if_true]
    split
    · exact order.bind (order.throw _) fun _ => forced
    · exact forced
  | false =>
    have plain := made _ loaded
    simp only [Bool.false_eq_true, if_false]
    split
    · exact order.bind (order.throw _) fun _ => plain
    · exact plain

theorem sessionsStay_dropAlias (name : String) : (Run.dropAlias name).Relates SessionsStay := by
  intro e
  rw [Run.dropAlias]
  rw [Run.outcome_bind, Run.outcome_get]
  dsimp only
  split
  · rfl
  · rw [Run.outcome_set]
    split <;> rfl

/-- What a call has to leave of a session without an ambient connection. -/
structure Session.Restored (before after : Session) : Prop where
  autoCommit : after.autoCommit = before.autoCommit
  lastIdentity : after.lastIdentity = before.lastIdentity
  ambient : after.ambient = none

/-- The session survives, with its state if it had no ambient connection. -/
structure KeepsSession (id : Nat) (e f : Engine) : Prop where
  sessions : SameSessions e f
  state : (e.session id).ambient = none → (e.session id).Restored (f.session id)

theorem keepsSession_order (id : Nat) : EffectOrder (KeepsSession id) where
  refl _ := ⟨rfl, fun unset => ⟨rfl, rfl, unset⟩⟩
  trans := by
    intro e f g first second
    refine ⟨sameSessions_writes.trans first.sessions second.sessions, fun unset => ?_⟩
    have middle := first.state unset
    have last := second.state middle.ambient
    exact ⟨last.autoCommit.trans middle.autoCommit, last.lastIdentity.trans middle.lastIdentity,
      last.ambient⟩

/-- Where no session is, there is nothing that could change. -/
theorem keepsSession_absent {id : Nat} {e f : Engine} (same : SameSessions e f)
    (h : id ∉ e.sessionIds) : KeepsSession id e f := by
  refine ⟨same, fun unset => ?_⟩
  have gone : id ∉ f.sessionIds := fun there => h (same ▸ there)
  rw [Engine.session_absent h, Engine.session_absent gone]
  exact ⟨rfl, rfl, rfl⟩

/-- Opening and closing connections, of whatever session, leaves the rest of the session alone. -/
theorem keepsSession_updateSession {id other : Nat} {f : Session → Session}
    (keeps : ∀ s, (f s).id = s.id ∧ (f s).autoCommit = s.autoCommit ∧
      (f s).lastIdentity = s.lastIdentity ∧ (f s).ambient = s.ambient) (e : Engine) :
    KeepsSession id e (e.updateSession other f) := by
  refine ⟨e.sessionIds_updateSession other f, fun unset => ?_⟩
  obtain ⟨number, autoCommit, lastIdentity, ambient⟩ := keeps (e.session other)
  rw [Engine.updateSession, Engine.session_setSession_eq]
  split
  · next written =>
    have same : id = other := written.1.trans (number.trans (e.session_id other))
    subst same
    exact ⟨autoCommit, lastIdentity, ambient.trans unset⟩
  · exact ⟨rfl, rfl, unset⟩

theorem keepsSession_connect (id : Nat) (mode : ConnectionMode) :
    (Run.connect id mode).Relates (KeepsSession id) :=
  keepsSession_updateSession (f := Session.connected) fun _ => ⟨rfl, rfl, rfl, rfl⟩

theorem keepsSession_close (id : Nat) (e : Engine) (c : Connection) : KeepsSession id e (e.close c) :=
  keepsSession_updateSession (f := (·.disconnected c.number)) (fun _ => ⟨rfl, rfl, rfl, rfl⟩) e

/-- Whatever an isolated run does to its session, it ends with the state it began with. -/
theorem keepsSession_isolated {α : Type} {id : Nat} {r : CallRun α} (h : r.Relates SameSessions) :
    (CallRun.isolated id r).Relates (KeepsSession id) := by
  intro adopted e
  have inside : SameSessions e ((CallRun.isolated id r).outcome adopted e).2.2 :=
    sameSessions_writes.updates.isolated h adopted e
  by_cases there : id ∈ e.sessionIds
  · refine ⟨inside, fun _ => ?_⟩
    rw [CallRun.outcome_isolated] at inside ⊢
    dsimp only at inside ⊢
    rw [SameSessions, Engine.sessionIds_updateSession] at inside
    rw [Engine.session_updateSession (inside ▸ there) (Engine.session_id _ id)]
    exact ⟨rfl, rfl, rfl⟩
  · exact keepsSession_absent inside there

theorem keepsSession_of_sessions {id : Nat} {e f : Engine} (h : f.sessions = e.sessions) :
    KeepsSession id e f := by
  have same : f.session id = e.session id := by rw [Engine.session, h]; rfl
  refine ⟨by rw [SameSessions, Engine.sessionIds, h]; rfl, fun unset => ?_⟩
  rw [same]
  exact ⟨rfl, rfl, unset⟩

theorem keepsSession_resolve (id : Nat) (name : String) (count : Nat) :
    (Run.resolve name count).Relates (KeepsSession id) :=
  fun e => keepsSession_of_sessions (sessionsStay_loads.resolve name count e)

theorem keepsSession_calls (id : Nat) : CallRelation id (KeepsSession id) where
  toEffectOrder := keepsSession_order id
  connect := keepsSession_connect id
  close := keepsSession_close id
  resolve := keepsSession_resolve id
  run c k params on := on ▸ keepsSession_isolated (sameSessions_writes.updates.inside c k params)

/-- A body that turns commits on and writes an identity, sees both happen and then fails. -/
def tampering (frame : CallFrame) : Interaction :=
  .bind (frame.connection 0) fun c =>
    .step c (.setAutoCommit true) fun _ =>
      .step c (.setLastIdentity (.integer 7)) fun _ =>
        .step c .lastIdentity fun seen => .remark (.reply seen) (.fail ⟨"broken", none⟩)

/-- An engine with one session and an alias for that body. -/
def tamperedEngine : Engine :=
  let method : NativeMethod := ⟨"tamper", [⟨.connection, false⟩], .int, false, true, tampering⟩
  { aliases := [{ schema := "PUBLIC", id := 1, name := "TAMPER", target := none,
                  candidates := some [⟨"demo.Tamper", method, 0⟩] }],
    names := [("TAMPER", 0)],
    sessions := [{ id := 1, user := "SA" }] }

/-- An evaluation, however it ends and whatever native bodies did on the way, leaves the session
with its automatic commits and its last identity, and with no ambient connection. -/
theorem eval_restores_session (s : Scope) (row : Row) (x : Expr) (e : Engine)
    (unset : (e.session s.session).ambient = none) :
    (((x.eval s row).outcome e).2.session s.session).autoCommit =
        (e.session s.session).autoCommit ∧
      (((x.eval s row).outcome e).2.session s.session).lastIdentity =
        (e.session s.session).lastIdentity ∧
      (((x.eval s row).outcome e).2.session s.session).ambient = none := by
  have kept := ((keepsSession_calls s.session).evalAt row 0 x e).state unset
  exact ⟨kept.autoCommit, kept.lastIdentity, kept.ambient⟩

/-- The body wrote the identity, and nothing of it is left. -/
theorem eval_restores_session_tampered :
    (((Expr.call "TAMPER" []).eval { session := 1 } []).outcome tamperedEngine).2.journal.map
        (·.remarks) = [[.reply (.value (.integer 7))]] ∧
      ((((Expr.call "TAMPER" []).eval { session := 1 } []).outcome tamperedEngine).2.session
        1).lastIdentity = .null := by
  constructor
  · rfl
  · exact (eval_restores_session { session := 1 } [] (.call "TAMPER" []) tamperedEngine rfl).2.1

end SqlEngine
