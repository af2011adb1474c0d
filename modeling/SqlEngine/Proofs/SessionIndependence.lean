import SqlEngine.Proofs.ConditionEffects
import SqlEngine.Proofs.Confinement

/-!
# Independence of sessions

A run is local to a session if it leaves all other sessions alone and if its outcome and what becomes of
the session depend on nothing but the session. On a settled registry all evaluation is, and so is all that
the owner of a session does to it. So what the tasks of a session come to does not depend on the tasks of
other sessions in between.
-/

namespace SqlEngine

section Local

variable {base : Engine} {id : Nat}

/-- Nothing but this session and the journal was written. -/
structure OnlySession (id : Nat) (e f : Engine) : Prop where
  catalog : f.catalog = e.catalog
  sessions : SameSessions e f
  others : ∀ other, other ≠ id → f.session other = e.session other

theorem OnlySession.refl (id : Nat) (e : Engine) : OnlySession id e e := ⟨rfl, rfl, fun _ _ => rfl⟩

theorem OnlySession.trans {e f g : Engine} (first : OnlySession id e f)
    (second : OnlySession id f g) : OnlySession id e g where
  catalog := second.catalog.trans first.catalog
  sessions := sameSessions_writes.trans first.sessions second.sessions
  others other apart := (second.others other apart).trans (first.others other apart)

theorem onlySession_setSession (e : Engine) {s : Session} (own : s.id = id) :
    OnlySession id e (e.setSession s) where
  catalog := rfl
  sessions := e.ids_setSession s
  others _ apart := e.session_setSession_of_ne (own ▸ apart)

theorem onlySession_updateSession (e : Engine) {f : Session → Session} (keeps : ∀ s, (f s).id = s.id) :
    OnlySession id e (e.updateSession id f) :=
  onlySession_setSession e ((keeps _).trans (e.session_id id))

/-- The same sessions are there, and this one is in the same state. -/
structure Alike (id : Nat) (e f : Engine) : Prop where
  sessions : SameSessions e f
  session : f.session id = e.session id

/-- The same write has the same effect on sessions that are alike. -/
theorem Alike.setSession {e f : Engine} (alike : Alike id e f) (s : Session) :
    Alike id (e.setSession s) (f.setSession s) where
  sessions := (f.ids_setSession s).trans (alike.sessions.trans (e.ids_setSession s).symm)
  session := by
    rw [Engine.session_setSession_eq, Engine.session_setSession_eq, alike.sessions, alike.session]

theorem Alike.updateSession {e f : Engine} (alike : Alike id e f) (u : Session → Session) :
    Alike id (e.updateSession id u) (f.updateSession id u) := by
  have written := alike.setSession (u (e.session id))
  rw [Engine.updateSession, Engine.updateSession, alike.session]
  exact written

/-- On engines with this catalog the run writes nothing but the session, and what comes of it and of the
session is determined by the session. -/
structure Run.Local {α : Type} (base : Engine) (id : Nat) (r : Run α) : Prop where
  stays : ∀ e : Engine, e.catalog = base.catalog → OnlySession id e (r.outcome e).2
  determined : ∀ e f : Engine, e.catalog = base.catalog → f.catalog = base.catalog → Alike id e f →
    (r.outcome f).1 = (r.outcome e).1 ∧ Alike id (r.outcome e).2 (r.outcome f).2

theorem local_compositional : Compositional fun _ r => r.Local base id where
  ofExcept _ := ⟨fun _ _ => .refl id _, fun _ _ _ _ alike => ⟨rfl, alike⟩⟩
  bind {_ _ r _} first rest := by
    constructor
    · intro e known
      have before := first.stays e known
      rw [Run.outcome_bind]
      cases ran : r.outcome e with
      | mk x m =>
        rw [ran] at before
        cases x with
        | error x => exact before
        | ok a =>
          exact before.trans ((rest a ⟨e, m, ran⟩).stays m (before.catalog.trans known))
    · intro e f knownE knownF alike
      have same := first.determined e f knownE knownF alike
      have stayE := (first.stays e knownE).catalog.trans knownE
      have stayF := (first.stays f knownF).catalog.trans knownF
      rw [Run.outcome_bind, Run.outcome_bind]
      cases ran : r.outcome e with
      | mk x m =>
        cases ran' : r.outcome f with
        | mk y n =>
          rw [ran, ran'] at same
          rw [ran] at stayE
          rw [ran'] at stayF
          obtain ⟨equal, after⟩ := same
          cases equal
          cases x with
          | error x => exact ⟨rfl, after⟩
          | ok a => exact (rest a ⟨e, m, ran⟩).determined m n stayE stayF after
  get reads onEach := by
    refine ⟨fun e => (onEach e).stays e, fun e f knownE knownF alike => ?_⟩
    have same := reads f e (knownF.trans knownE.symm)
    rw [Run.outcome_bind, Run.outcome_bind, Run.outcome_get, Run.outcome_get]
    dsimp only
    rw [same]
    exact (onEach e).determined e f knownE knownF alike

/-- A run that reads and writes its session in one go. -/
theorem local_update {α : Type} (x : Session → Except EngineError α) {u : Session → Session}
    (keeps : ∀ s, (u s).id = s.id) :
    (Run.ofOutcome fun e => (x (e.session id), e.updateSession id u)).Local base id where
  stays e _ := onlySession_updateSession e keeps
  determined _ _ _ _ alike := ⟨congrArg x alike.session, alike.updateSession u⟩

theorem local_connect (mode : ConnectionMode) : (Run.connect id mode).Local base id :=
  local_update (fun s => .ok (s.newConnection mode)) (u := Session.connected) fun _ => rfl

theorem local_modify {u : Session → Session} (keeps : ∀ s, (u s).id = s.id) :
    (modify (·.updateSession id u) : Run PUnit).Local base id :=
  local_update (fun _ => .ok PUnit.unit) keeps

/-- All these connections are of the session. -/
def OwnConnections (id : Nat) (cs : List Connection) : Prop := ∀ c ∈ cs, c.session = id

/-- On behalf of a call that has adopted connections of the session alone, the run is local, and it adopts no
others. -/
structure CallRun.Local {α : Type} (base : Engine) (id : Nat) (r : CallRun α) : Prop where
  run : ∀ adopted, OwnConnections id adopted → (r.startedIn adopted).Local base id
  own : ∀ adopted, OwnConnections id adopted → ∀ e, OwnConnections id (r.outcome adopted e).2.1

theorem local_callCompositional :
    CallCompositional (fun _ r => r.Local base id) fun _ r => CallRun.Local base id r where
  toCompositional := local_compositional
  onEngine {_ r} only := by
    refine ⟨fun adopted _ => ⟨only.stays, fun e f knownE knownF alike => ?_⟩, fun _ own _ => own⟩
    obtain ⟨same, after⟩ := only.determined e f knownE knownF alike
    exact ⟨congrArg (fun x => Except.ok (x, adopted)) same, after⟩
  adopted := ⟨fun adopted _ => local_compositional.pure (Except.ok adopted, adopted), fun _ own _ => own⟩
  inTurn {_ _ r f} first rest := by
    constructor
    · intro adopted own
      rw [RunWith.startedIn_bind]
      refine local_compositional.bind (first.run adopted own) ?_
      rintro ⟨x, later⟩ ⟨e, g, ran⟩
      cases x with
      | error x => exact local_compositional.pure _
      | ok a =>
        have still := first.own adopted own e
        have led := RunWith.startedIn_ok.1 ran
        rw [led] at still
        exact (rest a ⟨adopted, e, later, g, led⟩).run later still
    · intro adopted own e
      have still := first.own adopted own e
      rw [RunWith.outcome_bind]
      generalize led : r.outcome adopted e = o at still
      obtain ⟨x, later, g⟩ := o
      cases x with
      | error x => exact still
      | ok a => exact (rest a ⟨adopted, e, later, g, led⟩).own later still g

theorem local_callConnect (mode : ConnectionMode) : CallRun.Local base id (CallRun.connect id mode) where
  run adopted _ := local_compositional.andThen (local_connect mode) fun c =>
    local_compositional.pure (Except.ok c, adopted ++ [c])
  own adopted own e c there := by
    rw [CallRun.outcome_connect] at there
    rcases List.mem_append.1 there with before | new
    · exact own c before
    · rw [List.mem_singleton.1 new]
      exact e.session_id id

/-- To close connections of the session is local. -/
theorem local_closeAll {cs : List Connection} (own : OwnConnections id cs) :
    (modify (·.closeAll cs) : Run PUnit).Local base id := by
  induction cs with
  | nil => exact local_compositional.pure PUnit.unit
  | cons c rest ih =>
    have first : (modify (·.close c) : Run PUnit).Local base id := by
      obtain rfl := own c List.mem_cons_self
      exact local_modify fun _ => rfl
    exact local_compositional.andThen first fun _ => ih fun c listed => own c (List.mem_cons_of_mem _ listed)

theorem local_closing {α : Type} {r : CallRun α} (inside : CallRun.Local base id r) :
    (CallRun.closing r).Local base id := by
  have same : CallRun.closing r = r.startedIn [] >>= fun done =>
      modify (·.closeAll done.2) >>= fun _ => Run.ofExcept done.1 := rfl
  rw [same]
  refine local_compositional.bind (inside.run [] nofun) ?_
  rintro ⟨x, adopted⟩ ⟨e, f, ran⟩
  have own := inside.own [] nofun e
  rw [RunWith.startedIn_ok.1 ran] at own
  exact local_compositional.andThen (local_closeAll own) fun _ => local_compositional.ofExcept x

theorem local_isolated {α : Type} {r : CallRun α} (inside : CallRun.Local base id r) :
    CallRun.Local base id (CallRun.isolated id r) where
  run adopted own := by
    let enter : Run Session := Run.ofOutcome fun e => (.ok (e.session id), e.updateSession id Session.entered)
    have same : (CallRun.isolated id r).startedIn adopted = enter >>= fun before =>
        r.startedIn adopted >>= fun done => modify (·.updateSession id before.exited) >>= fun _ => pure done :=
      rfl
    rw [same]
    have entered : enter.Local base id := local_update (fun s => .ok s) fun _ => rfl
    refine local_compositional.andThen entered fun before => ?_
    refine local_compositional.andThen (inside.run adopted own) fun done => ?_
    exact local_compositional.andThen (local_modify fun _ => rfl) fun _ => local_compositional.pure done
  own adopted own e := inside.own adopted own _

section Bodies

variable {known : List Connection} {i : Interaction}

/-- A confined body writes to the session of its connections alone. -/
theorem Interaction.Confined.stays (confined : i.Confined known) (own : ∀ c ∈ known, c.session = id)
    (e : Engine) : OnlySession id e (i.conduct e).engine := by
  induction i generalizing e with
  | done v => exact .refl id e
  | fail x => exact .refl id e
  | act c a next ih =>
    obtain ⟨there, rest⟩ := confined
    have written : OnlySession id e (e.act c a).2 :=
      onlySession_setSession e ((Session.id_act _ c a).trans ((e.session_id _).trans (own c there)))
    have inside := rest (e.act c a).1 fun conn handed => handedOut_act handed ▸ there
    exact written.trans (ih (e.act c a).1 inside (e.act c a).2)
  | remark r next ih => exact ih confined e
  | rewrite frame next ih => exact ih confined e

/-- What comes of it depends on that session alone. -/
theorem Interaction.Confined.determined (confined : i.Confined known)
    (own : ∀ c ∈ known, c.session = id) {e f : Engine} (alike : Alike id e f) :
    (i.conduct f).result = (i.conduct e).result ∧ (i.conduct f).frame = (i.conduct e).frame ∧
      Alike id (i.conduct e).engine (i.conduct f).engine := by
  induction i generalizing e f with
  | done v => exact ⟨rfl, rfl, alike⟩
  | fail x => exact ⟨rfl, rfl, alike⟩
  | act c a next ih =>
    obtain ⟨there, rest⟩ := confined
    obtain rfl := own c there
    have reply : (f.act c a).1 = (e.act c a).1 := by rw [Engine.act, Engine.act, alike.session]
    have after : Alike c.session (e.act c a).2 (f.act c a).2 := by
      rw [Engine.act, Engine.act, alike.session]
      exact alike.setSession _
    have inside := rest (e.act c a).1 fun conn handed => handedOut_act handed ▸ there
    have goesOn := ih (e.act c a).1 inside after
    simp only [conduct]
    rw [reply]
    exact goesOn
  | remark r next ih => exact ih confined alike
  | rewrite frame next ih =>
    obtain ⟨same, left, after⟩ := ih confined alike
    exact ⟨same, congrArg (·.or (some frame)) left, after⟩

theorem local_native {m : NativeMethod} {frame : CallFrame}
    (confined : (m.body frame).Confined frame.connections)
    (own : ∀ c ∈ frame.connections, c.session = id) : (Run.native id m frame).Local base id where
  stays e _ := (confined.stays own e).trans ⟨rfl, rfl, fun _ _ => rfl⟩
  determined e f _ _ alike := by
    obtain ⟨same, left, after⟩ := confined.determined own alike
    exact ⟨congrArg Except.ok (Prod.ext same (congrArg (·.getD frame) left)), after.sessions, after.session⟩

end Bodies

/-- Calls of confined candidates are local to the calling session, if their arguments are. -/
theorem local_calls :
    CallProperty id Candidate.Confined (fun _ r => r.Local base id) fun _ r => CallRun.Local base id r where
  toCallCompositional := local_callCompositional
  connect := local_callConnect
  closing := local_closing
  run {c k args params} same confined given := by
    subst same
    refine local_isolated (local_callCompositional.inside (local_callConnect k.mode)
      (fun conn => local_modify (u := ({ · with ambient := some conn })) fun _ => rfl)
      fun default around => local_native (confined _) fun conn there => ?_)
    rcases List.mem_append.1 there with ambient | inside
    · obtain rfl : default = some conn := Option.mem_toList.1 ambient
      exact Candidate.own_of_openAmbient around
    · exact Candidate.own_of_marshal given inside

theorem Run.Local.congr {α : Type} {r r' : Run α} (h : r'.Local base id)
    (same : ∀ e : Engine, e.catalog = base.catalog → r.outcome e = r'.outcome e) : r.Local base id where
  stays e known := by
    rw [same e known]
    exact h.stays e known
  determined e f knownE knownF alike := by
    rw [same e knownE, same f knownF]
    exact h.determined e f knownE knownF alike

/-- What goes on with a candidate that is found is local, if it is for every confined candidate. -/
theorem local_of_finds {α : Type} {r : Run Candidate} {f : Candidate → Run α} (finds : r.Finds base)
    (rest : ∀ c, c.Confined → (f c).Local base id) : (r >>= f).Local base id := by
  obtain ⟨x, confined, outcome⟩ := finds
  have found : (Run.ofExcept x >>= f).Local base id :=
    local_compositional.bind (local_compositional.ofExcept x) fun c ⟨_, _, given⟩ =>
      rest c (confined c (Run.ofExcept_ok.1 given).1)
  refine found.congr fun e known => ?_
  rw [Run.outcome_bind, Run.outcome_bind, outcome e known, Run.outcome_ofExcept]

theorem local_call (settled : base.Settled) {k : Caller} (name : String) (args : List (Run Value))
    (onArgs : ∀ r ∈ args, r.Local base k.session) : (Run.call k name args).Local base k.session :=
  local_of_finds (finds_resolve settled name args.length) fun _ confined =>
    local_calls.invoke confined args onArgs

theorem local_eval (settled : base.Settled) (s : Scope) (row : Row) (x : Expr) :
    (x.eval s row).Local base s.session :=
  local_compositional.evalAt (local_call settled (k := s.caller)) row 0 x

end Local

/-- What is done on behalf of a session: an expression or a condition is evaluated, an alias is called by
whoever holds it, or its owner sets a part of its state. -/
inductive Task
  | evaluate (s : Scope) (row : Row) (x : Expr)
  | test (s : Scope) (row : Row) (cond : Condition)
  | call (k : Caller) (place : Nat) (args : List Value)
  | setAutoCommit (id : Nat) (b : Bool)
  | setLastIdentity (id : Nat) (v : Value)

namespace Task

def session : Task → Nat
  | evaluate s .. | test s .. => s.session
  | call k .. => k.session
  | setAutoCommit id _ | setLastIdentity id _ => id

def run : Task → Run Value
  | evaluate s row x => x.eval s row
  | test s row cond => cond.evaluate s row
  | call k place args => do (← Run.findHeld place args.length).invokeValues k args
  | setAutoCommit id b => do
    modify (·.updateSession id ({ · with autoCommit := b }))
    return .null
  | setLastIdentity id v => do
    modify (·.updateSession id ({ · with lastIdentity := v }))
    return .null

/-- Every task is local to its session. -/
theorem local_run {base : Engine} (settled : base.Settled) (t : Task) : t.run.Local base t.session := by
  have basics : Compositional (fun _ r => r.Local base t.session) := local_compositional
  cases t with
  | evaluate s row x => exact local_eval settled s row x
  | test s row cond =>
    exact local_compositional.evaluate (local_call settled (k := s.caller)) row cond
  | call k place args =>
    refine local_of_finds (finds_findHeld settled place args.length) fun c confined => ?_
    refine local_calls.invoke confined _ fun r listed => ?_
    obtain ⟨v, _, rfl⟩ := List.mem_map.1 listed
    exact local_compositional.pure v
  | setAutoCommit id b =>
    exact basics.andThen (local_modify (u := ({ · with autoCommit := b })) fun _ => rfl)
      fun _ => basics.pure _
  | setLastIdentity id v =>
    exact basics.andThen (local_modify (u := ({ · with lastIdentity := v })) fun _ => rfl)
      fun _ => basics.pure _

end Task

namespace Engine

/-- Carries out tasks one after the other. Each is listed with what came of it. -/
def perform (e : Engine) : List Task → List (Task × Except EngineError Value) × Engine
  | [] => ([], e)
  | t :: r =>
    let (x, e) := t.run.outcome e
    let (answers, e) := e.perform r
    ((t, x) :: answers, e)

/-- The tasks of one session. -/
def tasksOf (id : Nat) (tasks : List Task) : List Task := tasks.filter (·.session == id)

theorem perform_cons (e : Engine) (t : Task) (r : List Task) :
    e.perform (t :: r) =
      ((t, (t.run.outcome e).1) :: ((t.run.outcome e).2.perform r).1, ((t.run.outcome e).2.perform r).2) :=
  rfl

/-- A task of the session comes to the same where sessions are alike, and they stay alike; a task of
another one leaves them alike. -/
theorem perform_alike {base : Engine} {id : Nat} (settled : base.Settled) (tasks : List Task)
    {e f : Engine} (knownE : e.catalog = base.catalog) (knownF : f.catalog = base.catalog)
    (alike : Alike id e f) :
    (f.perform (tasksOf id tasks)).1 = (e.perform tasks).1.filter (·.1.session == id) ∧
      Alike id (e.perform tasks).2 (f.perform (tasksOf id tasks)).2 := by
  induction tasks generalizing e f with
  | nil => exact ⟨rfl, alike⟩
  | cons t rest ih =>
    have ran := t.local_run settled
    have stays := ran.stays e knownE
    by_cases mine : t.session = id
    · subst mine
      obtain ⟨same, after⟩ := ran.determined e f knownE knownF alike
      obtain ⟨answers, last⟩ := ih (stays.catalog.trans knownE)
        ((ran.stays f knownF).catalog.trans knownF) after
      have kept : tasksOf t.session (t :: rest) = t :: tasksOf t.session rest :=
        List.filter_cons_of_pos (beq_self_eq_true _)
      rw [kept, perform_cons, perform_cons, same, answers]
      dsimp only
      rw [List.filter_cons_of_pos (by exact beq_self_eq_true t.session)]
      exact ⟨rfl, last⟩
    · have apart : ¬ (t.session == id) = true := by simpa using mine
      have kept : tasksOf id (t :: rest) = tasksOf id rest := List.filter_cons_of_neg apart
      have still : Alike id (t.run.outcome e).2 f :=
        ⟨alike.sessions.trans stays.sessions.symm,
          alike.session.trans (stays.others id (Ne.symm mine)).symm⟩
      obtain ⟨answers, last⟩ := ih (stays.catalog.trans knownE) knownF still
      rw [kept, perform_cons, answers]
      dsimp only
      rw [List.filter_cons_of_neg (by exact apart)]
      exact ⟨rfl, last⟩

/-- Sessions do not interfere. Among any tasks, those of a session come to what they come to without the
others, and the session ends in the same state. -/
theorem perform_tasksOf (e : Engine) (settled : e.Settled) (tasks : List Task) (id : Nat) :
    (e.perform (tasksOf id tasks)).1 = (e.perform tasks).1.filter (·.1.session == id) ∧
      (e.perform (tasksOf id tasks)).2.session id = (e.perform tasks).2.session id := by
  obtain ⟨answers, last⟩ := perform_alike settled tasks rfl rfl ⟨rfl, rfl⟩
  exact ⟨answers, last.session⟩

/-- Two sessions, default connections, and an alias for a body that turns commits on through one
connection of its frame and writes an identity through the other one. -/
def sharedEngine : Engine :=
  let script : Script :=
    ⟨[(.param 0, .act (.setAutoCommit true)), (.default, .act (.setLastIdentity (.integer 7)))],
      .autoCommit .default⟩
  let method : NativeMethod := ⟨"tamper", [⟨.connection, false⟩], .boolean, false, true, script.body⟩
  { settings := { defaultConnection := true },
    aliases := [{ schema := "PUBLIC", id := 1, name := "TAMPER", target := none,
                  candidates := some [⟨"demo.Tamper", method, 0⟩] }],
    names := [("TAMPER", 0)],
    sessions := [{ id := 1, user := "SA" }, { id := 2, user := "GUEST" }] }

/-- Between two tasks of the first session, the second one calls the alias and writes its own state. -/
theorem perform_tasksOf_crossed :
    let tasks : List Task :=
      [.setLastIdentity 1 (.integer 5), .evaluate { session := 2 } [] (.call "TAMPER" []),
        .setAutoCommit 2 false, .setLastIdentity 2 (.integer 9), .call ⟨1, false⟩ 0 []]
    sharedEngine.Settled ∧
      (sharedEngine.perform tasks).2.journal.map (·.session) = [2, 1] ∧
      ((sharedEngine.perform tasks).1.filter (·.1.session == 1)).map (·.2.toOption) =
        [some .null, some (.boolean true)] ∧
      ((sharedEngine.perform tasks).2.session 1).lastIdentity = .integer 5 := by
  intro tasks
  have settled : sharedEngine.Settled := by
    intro a listed
    obtain rfl := List.mem_singleton.1 listed
    refine .inr ⟨_, rfl, fun c there => ?_⟩
    obtain rfl := List.mem_singleton.1 there
    exact Script.body_confined _
  obtain ⟨answers, last⟩ := perform_tasksOf sharedEngine settled tasks 1
  refine ⟨settled, rfl, ?_, ?_⟩
  · rw [← answers]
    rfl
  · rw [← last]
    rfl

end Engine

end SqlEngine
