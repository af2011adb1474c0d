import SqlEngine.Native.Script
import SqlEngine.Proofs.CallFrames
import SqlEngine.Proofs.Retention

/-!
# Confined bodies

A body is confined if it acts on the connections of its frame alone. Since all connections of a frame are
of the calling session, so is everything that a confined body reads or writes. Bodies that are given as
scripts are confined. A registry is settled if each of its aliases was dropped or is loaded with candidates
that are confined; then looking up a candidate changes nothing.
-/

namespace SqlEngine

/-- The connections that a reply hands out. -/
def handedOut : Except NativeFailure Reply → List Connection
  | .ok (.bridge _ on) => [on]
  | _ => []

/-- Replies hand out no connection but the one that was asked. -/
theorem handedOut_act {s : Session} {c conn : Connection} {a : ConnectionAction}
    (handed : conn ∈ handedOut (s.act c a).1) : conn = c := by
  have onOpen {r : Except NativeFailure Reply} (plain : handedOut r = []) :
      handedOut (s.onOpen c r) = [] := by
    rw [Session.onOpen]
    split
    · exact plain
    · rfl
  have read {r : Reply} (plain : handedOut (.ok r) = []) : handedOut (s.read c r) = [] := by
    refine onOpen ?_
    split
    · exact plain
    · rfl
  have write : handedOut (s.write c) = [] := by
    rw [Session.write]
    split
    · exact onOpen rfl
    · exact read rfl
  have change (t : Session) : handedOut (s.change c t).1 = [] := by
    rw [Session.change]
    split
    · next r allowed => rwa [allowed] at write
    · rfl
  cases a with
  | isOpen => cases handed
  | create content =>
    simp only [Session.act, Session.onOpen] at handed
    split at handed
    · exact List.mem_singleton.1 handed
    · cases handed
  | autoCommit => cases (read (r := .flag s.autoCommit) rfl ▸ handed : conn ∈ [])
  | lastIdentity => cases (read (r := .value s.lastIdentity) rfl ▸ handed : conn ∈ [])
  | setAutoCommit b => cases (change _ ▸ handed : conn ∈ [])
  | setLastIdentity v => cases (change _ ▸ handed : conn ∈ [])

/-- All steps are on known connections, as long as the replies hand out no others. -/
def Interaction.Confined (known : List Connection) : Interaction → Prop
  | done _ | fail _ => True
  | act c _ next => c ∈ known ∧ ∀ reply, handedOut reply ⊆ known → (next reply).Confined known
  | remark _ next => next.Confined known
  | rewrite _ next => next.Confined known

/-- In every frame the body acts on the connections of the frame alone. -/
def Candidate.Confined (c : Candidate) : Prop :=
  ∀ frame : CallFrame, (c.method.body frame).Confined frame.connections

namespace Interaction.Confined

variable {known : List Connection}

theorem ofExcept (x : Except NativeFailure NativeValue) : (Interaction.ofExcept x).Confined known := by
  cases x <;> trivial

theorem bind {α : Type} {x : Except NativeFailure α} {next : α → Interaction}
    (rest : ∀ a, x = .ok a → (next a).Confined known) : (Interaction.bind x next).Confined known := by
  cases x with
  | error e => trivial
  | ok a => exact rest a rfl

theorem step {on : Connection} {action : ConnectionAction} {next : Reply → Interaction}
    (there : on ∈ known) (rest : ∀ r, (next r).Confined known) :
    (Interaction.step on action next).Confined known :=
  ⟨there, fun _ _ => bind fun r _ => rest r⟩

end Interaction.Confined

theorem NativeValue.mem_allConnections {c : Connection} {n : NativeValue} {ns : List NativeValue}
    (listed : n ∈ ns) (there : c ∈ n.connections) : c ∈ allConnections ns := by
  induction ns with
  | nil => cases listed
  | cons m rest ih =>
    rcases List.mem_cons.1 listed with rfl | listed
    · exact List.mem_append_left _ there
    · exact List.mem_append_right _ (ih listed)

namespace Script

variable {f : CallFrame} {c : Connection}

theorem param_mem {i : Nat} {n : NativeValue} (h : f.param i = .ok n) : n ∈ f.params := by
  rw [CallFrame.param] at h
  split at h
  · next v found =>
    cases h
    exact List.mem_of_getElem? found
  · cases h

/-- Scripts refer to connections of the frame. -/
theorem resolve_mem {ref : ConnectionRef} (h : ref.resolve f = .ok c) : c ∈ f.connections := by
  have inParams {i : Nat} {n : NativeValue} (read : f.param i = .ok n) (there : c ∈ n.connections) :
      c ∈ f.connections :=
    List.mem_append_right _ (NativeValue.mem_allConnections (param_mem read) there)
  cases ref with
  | param i =>
    obtain ⟨n, read, viewed⟩ := bind_eq_ok.1 h
    split at viewed
    · next conn same =>
      cases viewed
      dsimp only at same
      split at same
      · cases same
        exact inParams read List.mem_cons_self
      · cases same
    · cases viewed
  | default =>
    simp only [ConnectionRef.resolve] at h
    split at h
    · next conn given =>
      cases h
      rw [CallFrame.connections, given]
      exact List.mem_cons_self
    · cases h
  | bridge i =>
    obtain ⟨n, read, viewed⟩ := bind_eq_ok.1 h
    split at viewed
    · cases viewed
      exact inParams read List.mem_cons_self
    · cases viewed

theorem performThen_confined {known : List Connection} (there : c ∈ known) (action : ScriptAction)
    {next : Interaction} (rest : next.Confined known) : (performThen c action next).Confined known := by
  cases action with
  | info => exact rest
  | text =>
    refine .step there fun r => ?_
    split
    · exact rest
    · exact rest
  | act action => exact .step there fun _ => rest
  | keep name => exact rest

theorem resultOf_confined (f : CallFrame) (result : ScriptResult) :
    (resultOf f result).Confined f.connections := by
  cases result with
  | const v => trivial
  | sum => trivial
  | concat => trivial
  | fail message cause => trivial
  | connection ref => exact .bind fun c _ => trivial
  | autoCommit ref =>
    refine .bind fun c found => .step (resolve_mem found) fun r => ?_
    split <;> trivial
  | _ => exact .ofExcept _

theorem runSteps_confined {result : Interaction} (last : result.Confined f.connections)
    (steps : List (ConnectionRef × ScriptAction)) :
    (runSteps f result steps).Confined f.connections := by
  induction steps with
  | nil => exact last
  | cons step rest ih => exact .bind fun c found => performThen_confined (resolve_mem found) step.2 ih

/-- A body that is a script is confined. -/
theorem body_confined (s : Script) (f : CallFrame) : (s.body f).Confined f.connections :=
  runSteps_confined (resultOf_confined f s.result) s.steps

end Script

namespace Candidate

variable {c : Candidate} {k : Caller} {args : List (Run Value)} {conn : Connection}

theorem own_of_connect {id : Nat} {mode : ConnectionMode} (given : (Run.connect id mode).Gives conn) :
    conn.session = id := by
  obtain ⟨e, f, connects⟩ := given
  obtain ⟨rfl, _⟩ := connect_ok.1 connects
  exact e.session_id id

theorem own_of_openAmbient (given : (openAmbient k).Gives (some conn)) : conn.session = k.session := by
  obtain ⟨_, e, _, f, around⟩ := given
  obtain ⟨opened, connects, _⟩ := openAmbient_some around
  exact own_of_connect ⟨e, opened, connects⟩

/-- All connections that marshaling hands over are of the calling session. -/
theorem own_of_marshal {params : List NativeValue}
    (given : (c.marshal k args).GivesFrom [] (some params))
    (there : conn ∈ NativeValue.allConnections params) : conn.session = k.session := by
  obtain ⟨e, _, f, marshals⟩ := given
  rw [marshal_eq] at marshals
  obtain ⟨front, first, opened, inFront, behind⟩ := RunWith.bind_ok.1 marshals
  obtain ⟨_, natives, through, rfl, _⟩ := marshalBehind_ok.1 behind
  obtain ⟨values, course⟩ := course_iff.1 through
  have ownFront (ahead : front = some conn) : conn.session = k.session := by
    rcases openFront_cases inFront with ⟨_, other, same, connects, _⟩ | ⟨_, missing, _⟩
    · cases same.symm.trans ahead
      exact own_of_connect ⟨e, opened, connects⟩
    · cases missing.symm.trans ahead
  rw [allConnections_arrange] at there
  rcases List.mem_append.1 there with ahead | inside
  · exact ownFront (Option.mem_toList.1 ahead)
  · rcases course.made (course.over_data inside) with ahead | ⟨_, connected⟩
    · rw [front_adopted inFront, Option.head?_toList] at ahead
      exact ownFront ahead
    · exact own_of_connect connected

end Candidate

/-- The alias was dropped, or it is loaded with confined candidates. -/
def Alias.Settled (a : Alias) : Prop :=
  a.Gone ∨ ∃ cs, a.candidates = some cs ∧ ∀ c ∈ cs, c.Confined

/-- All aliases are dropped or loaded. -/
def Engine.Settled (e : Engine) : Prop := ∀ a ∈ e.aliases, a.Settled

theorem Engine.setAlias_same {e : Engine} {place : Nat} {a : Alias} (there : e.alias? place = some a) :
    e.setAlias place a = e := by
  obtain ⟨bound, rfl⟩ := List.getElem?_eq_some_iff.1 there
  rw [Engine.setAlias, List.set_getElem_self]

/-- The run changes nothing and ends in the same way on every engine with this catalog, and what it gives
is confined. -/
def Run.Finds (base : Engine) (r : Run Candidate) : Prop :=
  ∃ x : Except EngineError Candidate, (∀ c, x = .ok c → c.Confined) ∧
    ∀ e : Engine, e.catalog = base.catalog → r.outcome e = (x, e)

section Lookups

variable {base : Engine}

theorem alias_of_catalog {e : Engine} (same : e.catalog = base.catalog) (place : Nat) :
    e.alias? place = base.alias? place := by
  change e.catalog.alias? place = base.catalog.alias? place
  rw [same]

theorem place_of_catalog {e : Engine} (same : e.catalog = base.catalog) (name : String) :
    e.place? name = base.place? name := by
  change e.catalog.place? name = base.catalog.place? name
  rw [same]

theorem finds_findMethod {place : Nat} {a : Alias} (settled : a.Settled)
    (there : base.alias? place = some a) (count : Nat) : (Run.findMethod place a count).Finds base := by
  rcases settled with gone | ⟨cs, loaded, confined⟩
  · refine ⟨.error (.functionNotFound a.name), nofun, fun e same => ?_⟩
    rw [Run.findMethod, Run.outcome_bind, outcome_load, load_of_gone gone]
  · refine ⟨a.select cs count, fun c selected => ?_, fun e same => ?_⟩
    · exact confined c (List.mem_of_find?_eq_some (select_eq_ok.1 selected))
    · rw [Run.findMethod, Run.outcome_bind, outcome_load, load_of_candidates loaded]
      exact congrArg (a.select cs count, ·) (Engine.setAlias_same ((alias_of_catalog same place).trans there))

theorem finds_throw (x : EngineError) : (throw x : Run Candidate).Finds base :=
  ⟨.error x, nofun, fun _ _ => rfl⟩

theorem finds_get {f : Engine → Run Candidate}
    (reads : ∀ e : Engine, e.catalog = base.catalog → f e = f base) (h : (f base).Finds base) :
    (get >>= f : Run Candidate).Finds base := by
  obtain ⟨x, confined, finds⟩ := h
  exact ⟨x, confined, fun e same => (congrArg (·.outcome e) (reads e same)).trans (finds e same)⟩

/-- Calls by name find what they bind to without any change. -/
theorem finds_resolve (settled : base.Settled) (name : String) (count : Nat) :
    (Run.resolve name count).Finds base := by
  refine finds_get (fun e same => ?_) ?_
  · simp only [place_of_catalog same, alias_of_catalog same]
  · split
    · exact finds_throw _
    · split
      · exact finds_throw _
      · next a found => exact finds_findMethod (settled a (List.mem_of_getElem? found)) found count

/-- So do calls by whoever holds an alias. -/
theorem finds_findHeld (settled : base.Settled) (place count : Nat) :
    (Run.findHeld place count).Finds base := by
  refine finds_get (fun e same => ?_) ?_
  · rw [alias_of_catalog same]
  · split
    · exact finds_throw _
    · next a found => exact finds_findMethod (settled a (List.mem_of_getElem? found)) found count

end Lookups

end SqlEngine
