import Mathlib.Logic.Relation
import SqlEngine.Proofs.ConditionEffects
import SqlEngine.Proofs.OpenConnections

/-!
# The life of connections

Whatever an engine does, it does to one session at a time, and no step opens a connection that was closed
before: numbers only go up. A call adopts each connection that is made for it, wherever that is, and closes
what it has adopted, so each of them, and each copy of its handle, is of no use from then on.
-/

namespace SqlEngine

/-- What happens to a session at a time: a step on one of its connections, the parts of a call, and what
its owner does. -/
inductive Session.Step : Session → Session → Prop
  | asked {s : Session} (c : Connection) (a : ConnectionAction) : Step s (s.act c a).2
  | connected {s : Session} : Step s s.connected
  | disconnected {s : Session} (number : Nat) : Step s (s.disconnected number)
  | entered {s : Session} : Step s s.entered
  | exited {s : Session} (before : Session) : Step s (before.exited s)
  | ambient {s : Session} (c : Connection) : Step s { s with ambient := some c }
  | autoCommit {s : Session} (b : Bool) : Step s { s with autoCommit := b }
  | lastIdentity {s : Session} (v : Value) : Step s { s with lastIdentity := v }
  | ended {s : Session} : Step s { s with isLive := false }

/-- What happens to an engine at a time. Settings, aliases, classes and the journal are of no concern to
sessions. -/
inductive Engine.Step : Engine → Engine → Prop
  | onSession {e : Engine} {s : Session} (id : Nat) (step : (e.session id).Step s) :
      Step e (e.setSession s)
  | newSession {e : Engine} (user : String) : Step e (e.newSession user)
  | elsewhere {e f : Engine} (same : SessionsStay e f) : Step e f

/-- The engine after any steps. -/
def Engine.Later : Engine → Engine → Prop := Relation.ReflTransGen Engine.Step

theorem later_updates : UpdateRelation Session.Step Engine.Later where
  refl _ := .refl
  trans := Relation.ReflTransGen.trans
  act _ := .asked
  connected _ := .connected
  disconnected _ := .disconnected
  entered _ := .entered
  exited before _ := .exited before
  ambient _ := .ambient
  setSession _ id _ step := .single (.onSession id step)
  journal _ _ := .single (.elsewhere rfl)

/-- Evaluation and calls take the engine on by such steps. -/
theorem later_calls (session : Nat) : CallRelation session Engine.Later :=
  later_updates.calls session fun name count e =>
    .single (.elsewhere (sessionsStay_loads.resolve name count e))

/-- What can be asked of an engine from outside: expressions, conditions and calls, aliases, sessions and
their connections, and handles that native code kept. -/
inductive Request
  | evaluate (s : Scope) (row : Row) (x : Expr)
  | typeOf (s : Scope) (x : Expr)
  | plan (s : Scope) (x : Expr)
  | test (s : Scope) (row : Row) (cond : Condition)
  | invoke (c : Candidate) (k : Caller) (args : List Value)
  | createAlias (name : String) (target : Except EngineError AliasTarget) (force : Bool)
  | findMethod (place : Nat) (a : Alias) (count : Nat)
  | dropAlias (name : String)
  | setAlias (place : Nat) (a : Alias)
  | install (library : Library) (compiler : Compiler)
  | newSession (user : String)
  | endSession (id : Nat)
  | setAutoCommit (id : Nat) (b : Bool)
  | setLastIdentity (id : Nat) (v : Value)
  | connect (id : Nat) (mode : ConnectionMode)
  | ask (c : Connection) (a : ConnectionAction)

/-- The engine after a request, whatever is answered. -/
def Request.perform (e : Engine) : Request → Engine
  | evaluate s row x => ((x.eval s row).outcome e).2
  | typeOf s x => ((x.typeIn s).run e).2
  | plan s x => ((Condition.ofExpr s x).outcome e).2
  | test s row cond => ((cond.evaluate s row).outcome e).2
  | invoke c k args => ((c.invokeValues k args).outcome e).2
  | createAlias name target force => ((Run.createAlias name target force).outcome e).2
  | findMethod place a count => ((Run.findMethod place a count).outcome e).2
  | dropAlias name => ((Run.dropAlias name).outcome e).2
  | setAlias place a => e.setAlias place a
  | install library compiler => { e with library := library, compiler := compiler }
  | newSession user => e.newSession user
  | endSession id => e.endSession id
  | setAutoCommit id b => e.updateSession id ({ · with autoCommit := b })
  | setLastIdentity id v => e.updateSession id ({ · with lastIdentity := v })
  | connect id mode => ((Run.connect id mode).outcome e).2
  | ask c a => (e.act c a).2

/-- Every request is met by such steps. -/
theorem later_perform (r : Request) (e : Engine) : e.Later (r.perform e) := by
  cases r with
  | evaluate s row x => exact (later_calls s.session).evalAt row 0 x e
  | typeOf s x => exact Expr.relates_typeIn (later_calls s.session) x e
  | plan s x => exact Condition.relates_ofExpr (later_calls s.session) x e
  | test s row cond => exact cond.relates_evaluate (later_calls s.session) row e
  | invoke c k args =>
    refine (later_calls k.session).invoke c _ (fun r listed => ?_) e
    obtain ⟨v, _, rfl⟩ := List.mem_map.1 listed
    exact (later_calls k.session).pure v
  | createAlias name target force =>
    exact .single (.elsewhere (sessionsStay_createAlias name target force e))
  | findMethod place a count =>
    exact .single (.elsewhere (sessionsStay_loads.findMethod place a count e))
  | dropAlias name => exact .single (.elsewhere (sessionsStay_dropAlias name e))
  | setAlias | install => exact .single (.elsewhere rfl)
  | newSession user => exact .single (.newSession user)
  | endSession id => exact .single (.onSession id .ended)
  | setAutoCommit id b => exact .single (.onSession id (.autoCommit b))
  | setLastIdentity id v => exact .single (.onSession id (.lastIdentity v))
  | connect id mode => exact .single (.onSession id .connected)
  | ask c a => exact .single (.onSession c.session (.asked c a))

/-- So are all requests of a list, one after the other. -/
theorem later_foldl_perform (rs : List Request) (e : Engine) :
    e.Later (rs.foldl Request.perform e) := by
  induction rs generalizing e with
  | nil => exact .refl
  | cons r rest ih => exact (later_perform r e).trans (ih (r.perform e))

/-- Nothing is taken back: numbers that were given out stay so, and those that were closed stay
closed. -/
structure Session.Ages (s t : Session) : Prop where
  id : t.id = s.id
  numbers : s.nextNumber ≤ t.nextNumber
  closed : ∀ n < s.nextNumber, n ∉ s.openNumbers → n ∉ t.openNumbers

namespace Session

variable {s t u : Session}

theorem Ages.refl (s : Session) : s.Ages s := ⟨rfl, Nat.le_refl _, fun _ _ closed => closed⟩

theorem Ages.trans (first : s.Ages t) (second : t.Ages u) : s.Ages u where
  id := second.id.trans first.id
  numbers := Nat.le_trans first.numbers second.numbers
  closed n given closed :=
    second.closed n (Nat.lt_of_lt_of_le given first.numbers) (first.closed n given closed)

/-- Changes that leave the connections alone. -/
theorem Ages.of_same (id : t.id = s.id) (next : t.nextNumber = s.nextNumber)
    (open_ : t.openNumbers = s.openNumbers) : s.Ages t :=
  ⟨id, next.ge, fun n _ closed => by rwa [open_]⟩

theorem ages_change (c : Connection) (same : s.Ages t) : s.Ages (s.change c t).2 := by
  unfold change
  split
  · exact same
  · exact .refl s

theorem Step.ages (step : s.Step t) : s.Ages t := by
  cases step with
  | asked c a =>
    cases a with
    | setAutoCommit b => exact ages_change c (.of_same rfl rfl rfl)
    | setLastIdentity v => exact ages_change c (.of_same rfl rfl rfl)
    | _ => exact .refl s
  | connected =>
    refine ⟨rfl, Nat.le_succ _, fun n given closed listed => ?_⟩
    rcases List.mem_cons.1 listed with rfl | listed
    · exact Nat.lt_irrefl _ given
    · exact closed listed
  | disconnected number =>
    exact ⟨rfl, Nat.le_refl _, fun n _ closed listed => closed (List.mem_filter.1 listed).1⟩
  | _ => exact .of_same rfl rfl rfl

end Session

namespace Engine

variable {e f g : Engine}

theorem session_newSession (e : Engine) (user : String) (id : Nat) :
    (e.session id).Ages ((e.newSession user).session id) := by
  cases found : e.sessions.find? (·.id == id) with
  | some s =>
    have kept : (e.newSession user).session id = e.session id := by
      simp only [session, newSession, List.find?_append, found, Option.some_or]
    rw [kept]
    exact .refl _
  | none =>
    have absent : e.session id = .absent id := by rw [session, found]; rfl
    rw [absent]
    exact ⟨session_id _ id, Nat.zero_le _, fun n given => absurd given (Nat.not_lt_zero n)⟩

/-- No step opens what was closed. -/
theorem Step.ages (step : e.Step f) (id : Nat) : (e.session id).Ages (f.session id) := by
  cases step with
  | @onSession s other step =>
    have ages := step.ages
    rw [session_setSession_eq]
    split
    · next h => rwa [h.1, ages.id, e.session_id other]
    · exact .refl _
  | newSession user => exact e.session_newSession user id
  | elsewhere same =>
    rw [Engine.session, Engine.session, same]
    exact .refl _

theorem Later.ages (later : e.Later f) (id : Nat) : (e.session id).Ages (f.session id) := by
  induction later with
  | refl => exact .refl _
  | tail _ step ih => exact ih.trans (step.ages id)

theorem Later.sessionIds {id : Nat} (later : e.Later f) (there : id ∈ e.sessionIds) :
    id ∈ f.sessionIds := by
  induction later with
  | refl => exact there
  | tail _ step ih =>
    cases step with
    | onSession => rwa [Engine.sessionIds, ids_setSession]
    | newSession =>
      rw [Engine.sessionIds, newSession, List.map_append]
      exact List.mem_append_left _ ih
    | elsewhere same => rwa [Engine.sessionIds, same]

/-- A closed number is closed in every later engine. -/
theorem Later.isOpen_eq_false {c : Connection} (later : e.Later f)
    (given : c.number < (e.session c.session).nextNumber) (closed : e.isOpen c = false) :
    f.isOpen c = false := by
  simp only [isOpen, Session.isOpen, List.contains_eq_mem, decide_eq_false_iff_not] at closed ⊢
  exact (later.ages c.session).closed c.number given closed

end Engine

namespace Session

variable {s : Session} {c : Connection}

theorem onOpen_of_closed (closed : s.isOpen c = false) (r : Except NativeFailure Reply) :
    s.onOpen c r = .error Session.closed := by
  rw [onOpen, closed]
  rfl

/-- Through a closed connection nothing can be read, written or made. -/
theorem act_of_closed (closed : s.isOpen c = false) {a : ConnectionAction} (asks : a ≠ .isOpen) :
    s.act c a = (.error Session.closed, s) := by
  have read (r : Reply) : s.read c r = .error Session.closed := onOpen_of_closed closed _
  have change (t : Session) : s.change c t = (.error Session.closed, s) := by
    have write : s.write c = .error Session.closed := by
      unfold Session.write
      split
      · exact onOpen_of_closed closed _
      · exact read _
    rw [Session.change, write]
  cases a with
  | isOpen => exact absurd rfl asks
  | create content => exact Prod.ext (onOpen_of_closed closed _) rfl
  | autoCommit => exact Prod.ext (read _) rfl
  | lastIdentity => exact Prod.ext (read _) rfl
  | setAutoCommit b => exact change _
  | setLastIdentity v => exact change _

end Session

/-- A connection that is closed, with all that it can still be asked: everything fails, and no session
changes. -/
structure Engine.Dead (g : Engine) (c : Connection) : Prop where
  closed : g.isOpen c = false
  fails : ∀ a, a ≠ .isOpen → (g.act c a).1 = .error Session.closed
  harmless : ∀ a id, (g.act c a).2.session id = g.session id

theorem Engine.dead_of_closed {g : Engine} {c : Connection} (closed : g.isOpen c = false) :
    g.Dead c where
  closed := closed
  fails a asks := congrArg Prod.fst (Session.act_of_closed closed asks)
  harmless a id := by
    have kept : ((g.session c.session).act c a).2 = g.session c.session := by
      by_cases asks : a = .isOpen
      · rw [asks]
        rfl
      · exact congrArg Prod.snd (Session.act_of_closed closed asks)
    simp only [act]
    rw [kept]
    exact g.session_setSession_session c.session id

/-- The connection of a session got its number between two states of the engine. -/
structure GivenOut (id : Nat) (c : Connection) (e f : Engine) : Prop where
  session : c.session = id
  since : (e.session id).nextNumber ≤ c.number
  before : c.number < (f.session id).nextNumber

theorem GivenOut.widen {id : Nat} {c : Connection} {d e f g : Engine} (h : GivenOut id c e f)
    (earlier : d.Later e) (later : f.Later g) : GivenOut id c d g where
  session := h.session
  since := Nat.le_trans (earlier.ages id).numbers h.since
  before := Nat.lt_of_lt_of_le h.before (later.ages id).numbers

theorem givenOut_connect {id : Nat} {mode : ConnectionMode} {c : Connection} {e f : Engine}
    (there : id ∈ e.sessionIds) (connects : (Run.connect id mode).outcome e = (.ok c, f)) :
    GivenOut id c e f := by
  have made := Candidate.session_connect there connects
  obtain ⟨rfl, _⟩ := Candidate.connect_ok.1 connects
  refine ⟨e.session_id id, Nat.le_refl _, ?_⟩
  rw [made]
  exact Nat.lt_succ_self _

/-- A call keeps what it has adopted, and the engine goes on by steps. -/
structure Advances (adopted : List Connection) (e : Engine) (last : List Connection) (f : Engine) : Prop where
  kept : adopted ⊆ last
  later : e.Later f

theorem Advances.trans {adopted later last : List Connection} {e f g : Engine}
    (first : Advances adopted e later f) (second : Advances later f last g) : Advances adopted e last g :=
  ⟨List.Subset.trans first.kept second.kept, first.later.trans second.later⟩

/-- So it is on the whole run, however it ends. -/
def CallRun.Proceeds {α : Type} (r : CallRun α) : Prop :=
  ∀ adopted e, Advances adopted e (r.outcome adopted e).2.1 (r.outcome adopted e).2.2

section Proceedings

variable {α β : Type} {adopted last : List Connection} {e f : Engine}

/-- What comes after the first part of a run. -/
theorem CallRun.Proceeds.rest {r : CallRun α} {next : α → CallRun β} {x : Except EngineError α}
    (ran : r.outcome adopted e = (x, last, f)) (rest : ∀ a, r.GivesFrom adopted a → (next a).Proceeds) :
    Advances last f ((r >>= next).outcome adopted e).2.1 ((r >>= next).outcome adopted e).2.2 := by
  rw [RunWith.outcome_bind, ran]
  cases x with
  | error x => exact ⟨List.Subset.refl last, .refl⟩
  | ok a => exact rest a ⟨e, last, f, ran⟩ last f

theorem proceeds_callCompositional :
    CallCompositional (fun _ r => r.Relates Engine.Later) fun _ r => CallRun.Proceeds r where
  toCompositional := later_updates.compositional
  onEngine only adopted e := ⟨List.Subset.refl adopted, only e⟩
  adopted adopted _ := ⟨List.Subset.refl adopted, .refl⟩
  inTurn first rest adopted e :=
    (first adopted e).trans (CallRun.Proceeds.rest rfl fun a given => rest a ⟨adopted, given⟩)

/-- Calls of the session proceed like that, if their arguments take the engine on by steps. -/
theorem proceeds_calls (session : Nat) :
    CallProperty session (fun _ => True) (fun _ r => r.Relates Engine.Later) fun _ r =>
      CallRun.Proceeds r where
  toCallCompositional := proceeds_callCompositional
  connect mode adopted e := ⟨List.subset_append_left adopted _, later_updates.connect session mode e⟩
  closing inside e := (inside [] e).later.trans (later_updates.closeAll later_updates.close _ _)
  run {c k _ params} _ _ _ adopted e := by
    have inside : (c.inside k params).Proceeds := by
      refine proceeds_callCompositional.inside (fun adopted e => ?_) (fun conn e => ?_) fun default _ => ?_
      · exact ⟨List.subset_append_left adopted _, later_updates.connect k.session k.mode e⟩
      · exact later_updates.updateSession k.session (fun _ => .ambient conn) e
      · exact later_updates.native k.session c.method ⟨params, default⟩
    rw [Candidate.run_eq, CallRun.outcome_isolated]
    obtain ⟨kept, later⟩ := inside adopted (e.updateSession k.session Session.entered)
    refine ⟨kept, ?_⟩
    have entered := later_updates.updateSession k.session (fun s => .entered (s := s)) e
    exact entered.trans (later.trans (later_updates.updateSession k.session (fun _ => .exited _) _))

/-- The call has adopted the connection, whose number was given out since the engine was in that state. -/
structure AdoptedSince (id : Nat) (c : Connection) (e : Engine) (adopted : List Connection) (f : Engine) :
    Prop where
  listed : c ∈ adopted
  given : GivenOut id c e f

theorem AdoptedSince.after {id : Nat} {c : Connection} {d g : Engine} (h : AdoptedSince id c e adopted f)
    (earlier : d.Later e) (rest : Advances adopted f last g) : AdoptedSince id c d last g :=
  ⟨rest.kept h.listed, h.given.widen earlier rest.later⟩

theorem adoptedSince_connect {id : Nat} {mode : ConnectionMode} {c : Connection}
    (there : id ∈ e.sessionIds) (connects : (CallRun.connect id mode).outcome adopted e = (.ok c, last, f)) :
    AdoptedSince id c e last f := by
  obtain ⟨made, rfl⟩ := adopts_connect.1 connects
  exact ⟨List.mem_append_right adopted List.mem_cons_self, givenOut_connect there made⟩

end Proceedings

namespace Candidate

/-- The data connection is made for one of the arguments from an index on, whatever comes of that
argument then. -/
inductive OpensData (c : Candidate) (k : Caller) : Nat → Engine → List (Run Value) → Connection → Prop
  | here {index e arg args v spec evaluated conn made opened result}
      (met : c.specAt? index = some spec) (evaluates : arg.outcome e = (.ok v, evaluated))
      (connects : (CallRun.connect k.session .full).outcome [] evaluated = (.ok conn, made, opened))
      (marshals : (marshalValue k v spec).outcome [] evaluated = (result, made, opened)) :
      OpensData c k index e (arg :: args) conn
  | there {index e arg args v spec evaluated n marshaled conn}
      (met : c.specAt? index = some spec) (evaluates : arg.outcome e = (.ok v, evaluated))
      (marshals : (marshalValue k v spec).outcome [] evaluated = (.ok (some n), [], marshaled))
      (later : OpensData c k (index + 1) marshaled args conn) :
      OpensData c k index e (arg :: args) conn

/-- The connections that are made for a call: the one in front of the parameters, the one for data where
there is none in front, and the ambient one. -/
inductive Opens (c : Candidate) (k : Caller) (args : List (Run Value)) (e : Engine) : Connection → Prop
  | front {conn adopted opened}
      (inFront : (c.openFront k).outcome [] e = (.ok (some conn), adopted, opened)) : Opens c k args e conn
  | data {conn opened} (inFront : (c.openFront k).outcome [] e = (.ok none, [], opened))
      (enough : ¬ (c.isVariadic = true ∧ args.length < c.fixedCount))
      (made : OpensData c k 0 opened args conn) : Opens c k args e conn
  | ambient {conn params last marshaled adopted begun}
      (marshals : (c.marshal k args).outcome [] e = (.ok (some params), last, marshaled))
      (around : (openAmbient k).outcome last (marshaled.updateSession k.session Session.entered) =
        (.ok (some conn), adopted, begun)) : Opens c k args e conn

/-- A call up to where it closes what it has adopted. -/
def unclosed (c : Candidate) (k : Caller) (args : List (Run Value)) : CallRun Value := do
  match ← c.marshal k args with
  | none => return .null
  | some params => c.run k params

theorem outcome_invoke_eq (c : Candidate) (k : Caller) (args : List (Run Value)) (e : Engine) :
    (c.invoke k args).outcome e =
      (((c.unclosed k args).outcome [] e).1,
        ((c.unclosed k args).outcome [] e).2.2.closeAll ((c.unclosed k args).outcome [] e).2.1) :=
  rfl

section Owned

variable {c : Candidate} {k : Caller} {args : List (Run Value)} {e f : Engine} {conn : Connection}

theorem OpensData.adopted {index : Nat} (h : OpensData c k index e args conn)
    (there : k.session ∈ e.sessionIds) (onArgs : ∀ r ∈ args, r.Relates Engine.Later) :
    AdoptedSince k.session conn e ((c.marshalFrom k index args).outcome [] e).2.1
      ((c.marshalFrom k index args).outcome [] e).2.2 := by
  have calls := proceeds_calls k.session
  induction h with
  | @here index e arg args v spec evaluated conn made opened result met evaluates connects marshals =>
    have started : e.Later evaluated := (onArgs arg List.mem_cons_self).after evaluates
    refine (adoptedSince_connect (started.sessionIds there) connects).after started ?_
    simp only [marshalFrom, met]
    rw [RunWith.outcome_bind, RunWith.outcome_onEngine, evaluates]
    refine CallRun.Proceeds.rest marshals fun m _ => ?_
    split
    · exact calls.return_ none
    · exact calls.after
        (calls.marshalFrom c args (fun r hr => onArgs r (List.mem_cons_of_mem arg hr)) _)
        fun _ => calls.return_ _
  | @there index e arg args v spec evaluated n marshaled conn met evaluates marshals _ ih =>
    have started : e.Later evaluated := (onArgs arg List.mem_cons_self).after evaluates
    have went : evaluated.Later marshaled := ((later_calls k.session).marshalValue v spec).after marshals
    have before : e.Later marshaled := started.trans went
    refine (ih (before.sessionIds there) fun r hr => onArgs r (List.mem_cons_of_mem arg hr)).after before ?_
    simp only [marshalFrom, met]
    rw [RunWith.outcome_bind, RunWith.outcome_onEngine, evaluates]
    dsimp only
    rw [RunWith.outcome_bind, marshals]
    exact CallRun.Proceeds.rest rfl fun _ _ => calls.return_ _

/-- What the call does once its arguments are marshaled, or cannot be. -/
theorem proceeds_unclosed (c : Candidate) (k : Caller) (args : List (Run Value)) (e : Engine) :
    Advances ((c.marshal k args).outcome [] e).2.1 ((c.marshal k args).outcome [] e).2.2
      ((c.unclosed k args).outcome [] e).2.1 ((c.unclosed k args).outcome [] e).2.2 := by
  have calls := proceeds_calls k.session
  refine CallRun.Proceeds.rest rfl fun params given => ?_
  cases params with
  | none => exact calls.return_ Value.null
  | some params => exact calls.run rfl trivial given

/-- What the call does once its ambient connection is there. -/
theorem proceeds_run {params : List NativeValue} {default : Option Connection}
    {last adopted : List Connection} {begun : Engine}
    (around : (openAmbient k).outcome last (e.updateSession k.session Session.entered) =
      (.ok default, adopted, begun)) :
    Advances adopted begun ((c.run k params).outcome last e).2.1 ((c.run k params).outcome last e).2.2 := by
  have calls := proceeds_callCompositional
  rw [run_eq, CallRun.outcome_isolated]
  have inside : Advances adopted begun _ _ := CallRun.Proceeds.rest around fun default _ =>
    calls.onEngine (calls.callMethod (c := c) (k := k)
      (later_updates.native k.session c.method ⟨params, default⟩))
  exact inside.trans
    ⟨List.Subset.refl _, later_updates.updateSession k.session (fun _ => .exited _) _⟩

/-- A connection that is made for a call is adopted by it, and its number was given out during the call. -/
theorem Opens.adopted (h : c.Opens k args e conn) (there : k.session ∈ e.sessionIds)
    (onArgs : ∀ r ∈ args, r.Relates Engine.Later) :
    AdoptedSince k.session conn e ((c.unclosed k args).outcome [] e).2.1
      ((c.unclosed k args).outcome [] e).2.2 := by
  have calls := proceeds_calls k.session
  have ends := proceeds_unclosed c k args e
  cases h with
  | front inFront =>
    rcases openFront_cases inFront with ⟨_, other, same, connects, adopts⟩ | ⟨_, missing, _⟩
    · cases same
      have made := adoptedSince_connect there (adopts_connect.2 ⟨connects, adopts⟩)
      refine made.after .refl (Advances.trans ?_ ends)
      rw [marshal_eq]
      exact CallRun.Proceeds.rest inFront fun front _ => calls.marshalBehind c args onArgs front
    · cases missing
  | data inFront enough made =>
    rcases openFront_cases inFront with ⟨_, _, missing, _⟩ | ⟨_, _, _, rfl⟩
    · cases missing
    · refine (made.adopted there onArgs).after .refl (Advances.trans ?_ ends)
      rw [marshal_eq, RunWith.outcome_bind, inFront]
      dsimp only
      rw [marshalBehind, if_neg enough]
      exact CallRun.Proceeds.rest rfl fun natives _ => calls.checked c none natives
  | @ambient params last marshaled adopted begun marshals around =>
    have entered := later_updates.updateSession k.session (fun s => .entered (s := s)) marshaled
    have before : e.Later (marshaled.updateSession k.session Session.entered) :=
      Relation.ReflTransGen.trans (((later_calls k.session).marshal c args onArgs).after marshals) entered
    obtain ⟨opened, connects, adopts, known⟩ := openAmbient_some around
    have made := adoptedSince_connect (before.sessionIds there) (adopts_connect.2 ⟨connects, adopts⟩)
    have whole : (c.unclosed k args).outcome [] e = (c.run k params).outcome last marshaled := by
      rw [unclosed, RunWith.outcome_bind, marshals]
    rw [whole]
    refine made.after before (Advances.trans ⟨List.Subset.refl adopted, ?_⟩ (proceeds_run around))
    rw [known]
    exact later_updates.updateSession k.session (fun _ => .ambient conn) opened

theorem Course.opens {index : Nat} {adopted last : List Connection} {values : List Value}
    {natives : List NativeValue} (h : Course c k index adopted e args values natives last f)
    (made : last.head? = some conn) :
    adopted.head? = some conn ∨ (adopted = [] ∧ OpensData c k index e args conn) := by
  induction h with
  | nil => exact .inl made
  | @cons index adopted e arg v evaluated spec n later marshaled args values natives last f met evaluates
      marshals rest ih =>
    have handed := handed_of_marshalValue marshals
    cases adopted with
    | cons d others =>
      have kept : later.head? = some d := handed.keeps rfl
      rcases ih made with same | ⟨missing, _⟩
      · exact .inl (kept.symm.trans same)
      · rw [missing] at kept
        cases kept
    | nil =>
      refine .inr ⟨rfl, ?_⟩
      rcases ih made with opened | ⟨rfl, opened⟩
      · have here {other : Connection}
            (connects : k.dataConnection.outcome [] evaluated = (.ok other, later, marshaled)) :
            OpensData c k index e (arg :: args) conn := by
          cases opened.symm.trans (head_of_dataConnection connects)
          exact .here met evaluates connects marshals
        cases handed with
        | plain => cases opened
        | object o _ connects => exact here connects
        | bridge content _ _ connects => exact here connects
      · exact .there met evaluates marshals opened

/-- All connections that a body can reach from its frame were made for the call. -/
theorem Reaches.opens {values : List Value} {frame : CallFrame} {adopted : List Connection} {begun : Engine}
    (reached : c.Reaches k args e values frame adopted begun) (there : conn ∈ frame.connections) :
    c.Opens k args e conn := by
  obtain ⟨last, f, marshals, around⟩ := reaches_iff.1 ⟨values, reached⟩
  rcases List.mem_append.1 there with ambient | inside
  · rw [Option.mem_toList.1 ambient] at around
    exact .ambient marshals around
  · cases reached with
    | @intro front first _ _ _ _ _ _ natives _ inFront enough course arranged =>
      have ahead := front_adopted inFront
      rw [arranged, allConnections_arrange] at inside
      have fromFront (same : front = some conn) : c.Opens k args e conn := by
        rw [same] at inFront
        exact .front inFront
      rcases List.mem_append.1 inside with inPlace | behind
      · exact fromFront (Option.mem_toList.1 inPlace)
      · rcases course.opens (course.over_data behind) with first | ⟨rfl, made⟩
        · rw [ahead, Option.head?_toList] at first
          exact fromFront first
        · cases front with
          | none => exact .data inFront enough made
          | some other => cases ahead

/-- A call adopts every connection that is made for it, so it is closed as the call ends, whatever comes
of the call. -/
theorem Opens.isOpen_invoke {copy : Connection} (opens : c.Opens k args e conn)
    (there : k.session ∈ e.sessionIds) (onArgs : ∀ r ∈ args, r.Relates Engine.Later)
    (same : copy.sameAs conn = true) : ((c.invoke k args).outcome e).2.isOpen copy = false := by
  rw [outcome_invoke_eq]
  exact Engine.isOpen_closeAll (opens.adopted there onArgs).listed same _

/-- The number of such a connection was given out as the call ends. -/
theorem Opens.given (opens : c.Opens k args e conn) (there : k.session ∈ e.sessionIds)
    (onArgs : ∀ r ∈ args, r.Relates Engine.Later) :
    GivenOut k.session conn e ((c.invoke k args).outcome e).2 := by
  rw [outcome_invoke_eq]
  refine (opens.adopted there onArgs).given.widen .refl ?_
  exact later_updates.closeAll later_updates.close _ _

/-- Connections end with their call. All that a body can reach from its frame were made for the call, and
each that was made for it, however the call ended, is dead in every later engine, and so is every copy of
its handle. Of all connections that were given out by the end of the call, those are open that were open
before it, as long as the arguments are evaluated or come from other calls. -/
theorem connections_end_with_call (there : k.session ∈ e.sessionIds)
    (onArgs : ∀ r ∈ args, r.Relates Engine.Later) :
    (∀ values frame adopted begun, c.Reaches k args e values frame adopted begun →
      ∀ conn ∈ frame.connections, c.Opens k args e conn) ∧
    (∀ conn copy, c.Opens k args e conn → copy.sameAs conn = true →
      ∀ g, Engine.Later ((c.invoke k args).outcome e).2 g → g.Dead copy) ∧
    ((∀ r ∈ args, r.Supplies) → ∀ conn, conn.session ∈ e.sessionIds →
      conn.number < (((c.invoke k args).outcome e).2.session conn.session).nextNumber →
        (((c.invoke k args).outcome e).2.isOpen conn = true ↔
          conn.number < (e.session conn.session).nextNumber ∧ e.isOpen conn = true)) := by
  refine ⟨fun values frame adopted begun reached conn => reached.opens, ?_, ?_⟩
  · intro conn copy opens same g later
    have given := opens.given there onArgs
    obtain ⟨session, number⟩ : copy.session = conn.session ∧ copy.number = conn.number := by
      simpa [Connection.sameAs] using same
    refine Engine.dead_of_closed (later.isOpen_eq_false ?_ (opens.isOpen_invoke there onArgs same))
    rw [session, given.session, number]
    exact given.before
  · intro supplied conn known given
    have settled := (adopts_calls conn.session k.session).invoke (c := c) trivial args
      (fun r listed => leavesOpen_of_supplies conn.session (supplied r listed)) e
    have listed := (settled.session known).listed_iff conn.number given
    simpa [Engine.isOpen, Session.isOpen, numbersOf] using listed

end Owned

/-- Gives back the content that it gets, with the connection that it came over. -/
def keeping : Candidate where
  className := "demo.C"
  method := ⟨"keep", [⟨.blob, false⟩], .blob, false, true, fun frame => .ofExcept (frame.param 0)⟩
  position := 0

/-- The connection of the content is made for the call. It is dead as soon as the call is over, and also
after the session made another connection and the handle was used. The connection that was there before is
still open. -/
theorem connections_end_with_call_kept :
    let e : Engine := { sessions := [{ id := 1, user := "SA", openNumbers := [0], nextNumber := 1 }] }
    let k : Caller := ⟨1, false⟩
    let args : List (Run Value) := [pure (.blob [0])]
    let kept : Connection := ⟨1, 1, "SA", .full⟩
    let after := ((keeping.invoke k args).outcome e).2
    let requests : List Request :=
      [.newSession "GUEST", .connect 1 .full, .ask kept (.setAutoCommit false)]
    1 ∈ e.sessionIds ∧ (∀ r ∈ args, r.Relates Engine.Later) ∧ keeping.Opens k args e kept ∧
      after.Dead kept ∧ (requests.foldl Request.perform after).Dead kept ∧
      after.isOpen ⟨1, 0, "SA", .full⟩ = true := by
  intro e k args kept after requests
  have there : 1 ∈ e.sessionIds := by decide
  have onArgs : ∀ r ∈ args, r.Relates Engine.Later := by
    intro r listed
    rw [List.mem_singleton.1 listed]
    exact (later_calls 1).pure _
  have supplied : ∀ r ∈ args, r.Supplies := by
    intro r listed
    rw [List.mem_singleton.1 listed]
    exact .value _
  have reached : keeping.Reaches k args e [.blob [0]] ⟨[.bridge (.blob [0]) kept], none⟩ [kept]
      { sessions :=
          [{ id := 1, user := "SA", autoCommit := false, openNumbers := [1, 0], nextNumber := 2 }] } :=
    .intro rfl (by decide) (.cons rfl rfl rfl .nil) rfl rfl rfl
  obtain ⟨made, ends, settled⟩ := connections_end_with_call (k := k) there onArgs
  have opens := made _ _ _ _ reached kept List.mem_cons_self
  exact ⟨there, onArgs, opens, ends kept kept opens rfl after .refl,
    ends kept kept opens rfl _ (later_foldl_perform requests after),
    (settled supplied ⟨1, 0, "SA", .full⟩ there (by decide)).2 (by decide)⟩

end Candidate

end SqlEngine
