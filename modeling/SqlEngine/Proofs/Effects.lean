import SqlEngine.Proofs.Composition

/-!
# Effects of evaluation

A relation between the engine before and after a run composes along the run. If each thing that a
call does to the engine stays within the relation, so does the evaluation of every expression,
whatever comes of it. Calls write to sessions and to the journal, also from within native bodies, and
they load aliases; nothing else of the engine is ever written.
-/

namespace SqlEngine

namespace Run

variable {α β : Type} {R : Engine → Engine → Prop}

/-- What catches a failure goes on from the engine that the failure left. -/
theorem outcome_tryCatch (r : Run α) (f : EngineError → Run α) (e : Engine) :
    (tryCatch r f).outcome e =
      match r.outcome e with
      | (.ok a, e') => (.ok a, e')
      | (.error x, e') => (f x).outcome e' := by
  simp only [outcome, tryCatch, tryCatchThe, MonadExceptOf.tryCatch, ExceptT.tryCatch]
  rw [ExceptT.run_mk, StateT.run_bind, ExceptT.run]
  cases StateT.run r e with
  | mk x e' => cases x <;> rfl

/-- The run leads from every engine to a related one, also when it fails. -/
def Relates (R : Engine → Engine → Prop) (r : Run α) : Prop := ∀ e, R e (r.outcome e).2

theorem Relates.after {r : Run α} {e f : Engine} {x : Except EngineError α} (h : r.Relates R)
    (ran : r.outcome e = (x, f)) : R e f := by
  have led := h e
  rwa [ran] at led

end Run

namespace RunWith

variable {σ α : Type} {R : Engine → Engine → Prop}

/-- So does a run with a state of its own, whatever that state is. -/
def Relates (R : Engine → Engine → Prop) (r : RunWith σ α) : Prop := ∀ s e, R e (r.outcome s e).2.2

theorem Relates.after {r : RunWith σ α} {s t : σ} {e f : Engine} {x : Except EngineError α}
    (h : r.Relates R) (ran : r.outcome s e = (x, t, f)) : R e f := by
  have led := h s e
  rwa [ran] at led

end RunWith

/-- A relation that runs compose in. -/
structure EffectOrder (R : Engine → Engine → Prop) : Prop where
  refl : ∀ e, R e e
  trans : ∀ {e f g}, R e f → R f g → R e g

/-- A relation that what native bodies do stays within. -/
structure WriteRelation (R : Engine → Engine → Prop) : Prop extends EffectOrder R where
  setSession : ∀ e s, R e (e.setSession s)
  journal : ∀ e records, R e { e with journal := records }

/-- What a relation has to allow so that the calls of a session stay within it. -/
structure CallRelation (session : Nat) (R : Engine → Engine → Prop) : Prop extends EffectOrder R where
  connect : ∀ mode, (Run.connect session mode).Relates R
  close : ∀ e c, R e (Engine.close e c)
  resolve : ∀ name count, (Run.resolve name count).Relates R
  run : ∀ (c : Candidate) (k : Caller) params, k.session = session → (c.run k params).Relates R

namespace EffectOrder

variable {α β : Type} {R : Engine → Engine → Prop}

/-- To stay within the relation is a property that runs inherit from their parts. -/
theorem compositional (h : EffectOrder R) : Compositional fun _ r => r.Relates R where
  ofExcept _ := h.refl
  bind {_ _ r _} first rest := by
    intro e
    rw [Run.outcome_bind]
    have before := first e
    generalize ran : r.outcome e = o at before
    obtain ⟨x, e'⟩ := o
    cases x with
    | error x => exact before
    | ok a => exact h.trans before (rest a ⟨e, e', ran⟩ e')
  get _ onEach e := onEach e e

theorem pure (h : EffectOrder R) (a : α) : (Pure.pure a : Run α).Relates R :=
  h.compositional.pure a

theorem throw (h : EffectOrder R) (x : EngineError) :
    (MonadExcept.throw x : Run α).Relates R :=
  h.compositional.throw x

theorem ofExcept (h : EffectOrder R) (x : Except EngineError α) :
    (Run.ofExcept x).Relates R :=
  h.compositional.ofExcept x

theorem get (h : EffectOrder R) : (MonadState.get : Run Engine).Relates R :=
  fun e => h.refl e

theorem bind (h : EffectOrder R) {r : Run α} {f : α → Run β} (first : r.Relates R)
    (rest : ∀ a, (f a).Relates R) : (r >>= f).Relates R :=
  h.compositional.andThen first rest

theorem map (h : EffectOrder R) (f : α → β) {r : Run α} (only : r.Relates R) :
    (f <$> r).Relates R :=
  h.compositional.map f only

/-- Runs on behalf of calls inherit it, too, whatever they adopt. -/
theorem callCompositional (h : EffectOrder R) :
    CallCompositional (fun _ r => r.Relates R) fun _ r => RunWith.Relates R r where
  toCompositional := h.compositional
  onEngine only _ e := only e
  adopted _ e := h.refl e
  inTurn {_ _ r _} first rest := by
    intro adopted e
    rw [RunWith.outcome_bind]
    have before := first adopted e
    generalize ran : r.outcome adopted e = o at before
    obtain ⟨x, adopted', e'⟩ := o
    cases x with
    | error x => exact before
    | ok a => exact h.trans before (rest a ⟨adopted, e, adopted', e', ran⟩ adopted' e')

theorem closeAll (h : EffectOrder R) (close : ∀ e c, R e (Engine.close e c)) (cs : List Connection)
    (e : Engine) : R e (e.closeAll cs) := by
  induction cs generalizing e with
  | nil => exact h.refl e
  | cons c rest ih => exact h.trans (close e c) (ih (e.close c))

/-- Calls stay within the relation if all that they do to sessions does. -/
theorem callProperty (h : EffectOrder R) {session : Nat}
    (connect : ∀ mode, (Run.connect session mode).Relates R) (close : ∀ e c, R e (Engine.close e c))
    (run : ∀ (c : Candidate) (k : Caller) params, k.session = session → (c.run k params).Relates R) :
    CallProperty session (fun _ => True) (fun _ r => r.Relates R) fun _ r => RunWith.Relates R r where
  toCallCompositional := h.callCompositional
  connect mode _ := connect mode
  closing inside e := h.trans (inside [] e) (h.closeAll close _ _)
  run same _ _ := run _ _ _ same

theorem tryCatch (h : EffectOrder R) {r : Run α} {f : EngineError → Run α} (first : r.Relates R)
    (rest : ∀ x, (f x).Relates R) : (MonadExcept.tryCatch r f).Relates R := by
  intro e
  have before := first e
  rw [Run.outcome_tryCatch]
  generalize r.outcome e = o at before
  obtain ⟨x, e'⟩ := o
  cases x with
  | error x => exact h.trans before (rest x e')
  | ok a => exact before

/-- A native body does nothing to the engine but steps on connections. -/
theorem conduct (h : EffectOrder R) (act : ∀ e c a, R e (Engine.act e c a).2) (i : Interaction)
    (e : Engine) : R e (i.conduct e).engine := by
  induction i generalizing e with
  | done v => exact h.refl e
  | fail f => exact h.refl e
  | act c a next ih => exact h.trans (act e c a) (ih _ _)
  | remark r next ih => exact ih e
  | rewrite frame next ih => exact ih e

theorem native (h : EffectOrder R) (act : ∀ e c a, R e (Engine.act e c a).2)
    (journal : ∀ e records, R e { e with journal := records }) (session : Nat) (m : NativeMethod)
    (frame : CallFrame) : (Run.native session m frame).Relates R :=
  fun e => h.trans (h.conduct act (m.body frame) e) (journal _ _)

end EffectOrder

/-- A relation that loading an alias stays within. -/
structure LoadRelation (R : Engine → Engine → Prop) : Prop extends EffectOrder R where
  compiler : ∀ e compiler, R e { e with compiler := compiler }
  setAlias : ∀ e place a, R e (e.setAlias place a)

namespace LoadRelation

variable {R : Engine → Engine → Prop}

theorem loadAlias (h : LoadRelation R) (a : Alias) : (Run.loadAlias a).Relates R :=
  fun e => h.compiler e _

theorem load (h : LoadRelation R) (place : Nat) (a : Alias) : (Run.load place a).Relates R :=
  h.bind (h.loadAlias a) fun _ => h.bind (fun e => h.setAlias e place _) fun _ => h.pure _

theorem findMethod (h : LoadRelation R) (place : Nat) (a : Alias) (count : Nat) :
    (Run.findMethod place a count).Relates R :=
  h.bind (h.load place a) fun _ => h.ofExcept _

theorem resolve (h : LoadRelation R) (name : String) (count : Nat) :
    (Run.resolve name count).Relates R := by
  refine h.bind h.get fun e => ?_
  split
  · exact h.throw _
  · split
    · exact h.throw _
    · exact h.findMethod _ _ count

end LoadRelation

namespace Session

/-- The session as an isolated run gets it. -/
def entered (s : Session) : Session := { s with autoCommit := false }

/-- The session as an isolated run leaves it. -/
def exited (before s : Session) : Session :=
  { s with autoCommit := before.autoCommit, lastIdentity := before.lastIdentity, ambient := none }

end Session

namespace CallRun

variable {α : Type}

theorem outcome_connect (id : Nat) (mode : ConnectionMode) (adopted : List Connection) (e : Engine) :
    (connect id mode).outcome adopted e =
      (.ok ((e.session id).newConnection mode), adopted ++ [(e.session id).newConnection mode],
        e.updateSession id Session.connected) :=
  rfl

theorem outcome_closing (r : CallRun α) (e : Engine) :
    (closing r).outcome e =
      ((r.outcome [] e).1, (r.outcome [] e).2.2.closeAll (r.outcome [] e).2.1) :=
  rfl

theorem outcome_isolated (id : Nat) (r : CallRun α) (adopted : List Connection) (e : Engine) :
    (isolated id r).outcome adopted e =
      let (x, adopted, f) := r.outcome adopted (e.updateSession id Session.entered)
      (x, adopted, f.updateSession id (e.session id).exited) :=
  rfl

end CallRun

/-- Updates of a session among which are all that calls make. -/
structure CallUpdates (A : Session → Session → Prop) : Prop where
  act : ∀ s c a, A s (s.act c a).2
  connected : ∀ s, A s s.connected
  disconnected : ∀ s number, A s (s.disconnected number)
  entered : ∀ s, A s s.entered
  exited : ∀ before s : Session, A s (before.exited s)
  ambient : ∀ s c, A s { s with ambient := some c }

/-- A relation that such updates and entries in the journal stay within. -/
structure UpdateRelation (A : Session → Session → Prop) (R : Engine → Engine → Prop) : Prop
    extends EffectOrder R, CallUpdates A where
  setSession : ∀ e id s, A (e.session id) s → R e (e.setSession s)
  journal : ∀ e records, R e { e with journal := records }

namespace UpdateRelation

variable {A : Session → Session → Prop} {R : Engine → Engine → Prop}

theorem updateSession (h : UpdateRelation A R) {f : Session → Session} (id : Nat)
    (allowed : ∀ s, A s (f s)) (e : Engine) : R e (e.updateSession id f) :=
  h.setSession e id _ (allowed _)

theorem connect (h : UpdateRelation A R) (session : Nat) (mode : ConnectionMode) :
    (Run.connect session mode).Relates R :=
  fun e => h.setSession e session _ (h.connected _)

theorem native (h : UpdateRelation A R) (session : Nat) (m : NativeMethod) (frame : CallFrame) :
    (Run.native session m frame).Relates R :=
  h.toEffectOrder.native (fun e c a => h.setSession e c.session _ (h.act _ c a)) h.journal session m
    frame

theorem close (h : UpdateRelation A R) (e : Engine) (c : Connection) : R e (e.close c) :=
  h.updateSession c.session (h.disconnected · c.number) e

theorem isolated (h : UpdateRelation A R) {α : Type} {session : Nat} {r : CallRun α}
    (inside : r.Relates R) : (CallRun.isolated session r).Relates R := by
  intro adopted e
  rw [CallRun.outcome_isolated]
  have entered := h.updateSession session h.entered e
  exact h.trans entered (h.trans (inside _ _) (h.updateSession session (h.exited _) _))

theorem inside (h : UpdateRelation A R) (c : Candidate) (k : Caller) (params : List NativeValue) :
    (c.inside k params).Relates R :=
  h.callCompositional.inside (fun _ => h.connect k.session k.mode)
    (fun conn => h.updateSession k.session (h.ambient · conn))
    fun default _ => h.native k.session c.method ⟨params, default⟩

/-- Calls need nothing more than that their aliases can be loaded. -/
theorem calls (h : UpdateRelation A R) (session : Nat)
    (resolve : ∀ name count, (Run.resolve name count).Relates R) : CallRelation session R where
  toEffectOrder := h.toEffectOrder
  connect := h.connect session
  close := h.close
  resolve := resolve
  run c k params _ := h.isolated (h.inside c k params)

end UpdateRelation

/-- A relation that all writes stay within allows every update. -/
theorem WriteRelation.updates {R : Engine → Engine → Prop} (h : WriteRelation R) :
    UpdateRelation (fun _ _ => True) R where
  toEffectOrder := h.toEffectOrder
  act _ _ _ := trivial
  connected _ := trivial
  disconnected _ _ := trivial
  entered _ := trivial
  exited _ _ := trivial
  ambient _ _ := trivial
  setSession e _ s _ := h.setSession e s
  journal := h.journal

namespace CallRelation

variable {R : Engine → Engine → Prop}

/-- Calls of every candidate stay within the relation, whatever the parameters. -/
theorem property {session : Nat} (h : CallRelation session R) :
    CallProperty session (fun _ => True) (fun _ r => r.Relates R) fun _ r => RunWith.Relates R r :=
  h.callProperty h.connect h.close h.run

section Marshaling

variable {k : Caller}

theorem marshalValue (h : CallRelation k.session R) (v : Value) (spec : ParamSpec) :
    (Candidate.marshalValue k v spec).Relates R :=
  h.property.marshalValue v spec

theorem marshal (h : CallRelation k.session R) (c : Candidate) (args : List (Run Value))
    (onArgs : ∀ r ∈ args, r.Relates R) : (c.marshal k args).Relates R :=
  h.property.marshal c args onArgs

theorem invoke (h : CallRelation k.session R) (c : Candidate) (args : List (Run Value))
    (onArgs : ∀ r ∈ args, r.Relates R) : (c.invoke k args).Relates R :=
  h.property.invoke trivial args onArgs

theorem call (h : CallRelation k.session R) (name : String) (args : List (Run Value))
    (onArgs : ∀ r ∈ args, r.Relates R) : (Run.call k name args).Relates R :=
  h.bind (h.resolve name args.length) fun c => h.invoke c args onArgs

end Marshaling

section Evaluation

variable {s : Scope}

/-- Evaluation stays within the relation, at every depth. -/
theorem evalAt (h : CallRelation s.session R) (row : Row) (depth : Nat) (x : Expr) :
    (x.evalAt s row depth).Relates R :=
  h.compositional.evalAt (h.call (k := s.caller)) row depth x

end Evaluation

end CallRelation

end SqlEngine
