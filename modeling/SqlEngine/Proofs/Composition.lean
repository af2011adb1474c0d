import SqlEngine.Eval

/-!
# Properties of runs

A run is put together from smaller ones. Take a property that passes from the parts of a run to the
whole, where the rest of the run has to have it only for what the first part can give. A property of the
runs on behalf of calls goes with it, which may speak of the connections that a call adopts. Once the two
hold of what calls do to their session, they hold of marshaling, of calls and of every evaluation.
-/

namespace SqlEngine

/-- Everything of the engine but its sessions and its journal. -/
def Engine.catalog (e : Engine) : Engine := { e with sessions := [], journal := [] }

section Catalog

variable {e f : Engine}

theorem Engine.settings_of_catalog (same : e.catalog = f.catalog) : e.settings = f.settings := by
  change e.catalog.settings = f.catalog.settings
  rw [same]

theorem Engine.compare_of_catalog (same : e.catalog = f.catalog) : e.compare = f.compare := by
  change e.catalog.compare = f.catalog.compare
  rw [same]

theorem Engine.serializer_of_catalog (same : e.catalog = f.catalog) :
    e.serializer = f.serializer := by
  change e.catalog.serializer = f.catalog.serializer
  rw [same]

end Catalog

/-- The run can end well with this. -/
def Run.Gives {α : Type} (r : Run α) (a : α) : Prop := ∃ e f, r.outcome e = (.ok a, f)

/-- A property that runs inherit from their parts. Of the engine they read the catalog alone. -/
structure Compositional (P : ⦃α : Type⦄ → Run α → Prop) : Prop where
  ofExcept : ∀ {α : Type} (x : Except EngineError α), P (Run.ofExcept x)
  bind : ∀ {α β : Type} {r : Run α} {f : α → Run β}, P r → (∀ a, r.Gives a → P (f a)) → P (r >>= f)
  get : ∀ {α : Type} {f : Engine → Run α}, (∀ e e', e.catalog = e'.catalog → f e = f e') →
    (∀ e, P (f e)) → P (MonadState.get >>= f)

namespace Compositional

variable {α β : Type} {P : ⦃α : Type⦄ → Run α → Prop}

theorem pure (h : Compositional P) (a : α) : P (Pure.pure a : Run α) := h.ofExcept (.ok a)

theorem throw (h : Compositional P) (x : EngineError) : P (MonadExcept.throw x : Run α) :=
  h.ofExcept (.error x)

theorem andThen (h : Compositional P) {r : Run α} {f : α → Run β} (first : P r)
    (rest : ∀ a, P (f a)) : P (r >>= f) :=
  h.bind first fun a _ => rest a

theorem map (h : Compositional P) (f : α → β) {r : Run α} (only : P r) : P (f <$> r) := by
  rw [← bind_pure_comp]
  exact h.andThen only fun a => h.pure (f a)

theorem atDepth (h : Compositional P) (s : Scope) (depth : Nat) {r : Run α} (inside : P r) :
    P (s.atDepth depth r) := by
  simp only [Scope.atDepth]
  split
  · split
    · exact h.throw _
    · exact inside
  · exact inside

theorem compare (h : Compositional P) (op : BinaryOp) (l r : Value) : P (Run.compare op l r) := by
  refine h.get (fun e e' same => ?_) fun e => h.ofExcept _
  rw [Engine.compare_of_catalog same]

theorem conjoin (h : Compositional P) {left right : Run Value} (onLeft : P left)
    (onRight : P right) : P (Run.conjoin left right) := by
  refine h.andThen onLeft fun l => ?_
  split
  · exact h.pure l
  · exact h.andThen onRight fun _ => h.ofExcept _

theorem disjoin (h : Compositional P) {left right : Run Value} (onLeft : P left)
    (onRight : P right) : P (Run.disjoin left right) := by
  refine h.andThen onLeft fun l => ?_
  split
  · exact h.pure l
  · exact h.andThen onRight fun _ => h.ofExcept _

theorem operands (h : Compositional P) {left right : Run Value} (onLeft : P left)
    (onRight : P right) {f : Value → Value → Run Value} (rest : ∀ l r, P (f l r)) :
    P (do let l ← left; let r ← right; f l r : Run Value) :=
  h.andThen onLeft fun l => h.andThen onRight fun r => rest l r

theorem binary (h : Compositional P) (op : BinaryOp) {left right : Run Value} (onLeft : P left)
    (onRight : P right) : P (Run.binary op left right) := by
  cases op with
  | and => exact h.conjoin onLeft onRight
  | or => exact h.disjoin onLeft onRight
  | concat => exact h.operands onLeft onRight fun l r => h.pure _
  | plus | minus | times => exact h.operands onLeft onRight fun l r => h.ofExcept _
  | _ => exact h.operands onLeft onRight fun l r => h.compare _ l r

theorem search (h : Compositional P) (negated : Bool) (v : Value) (items : List (Run Value))
    (onItems : ∀ r ∈ items, P r) (sawNull : Bool) : P (Run.search negated v sawNull items) := by
  induction items generalizing sawNull with
  | nil => exact h.pure _
  | cons item rest ih =>
    have onRest := ih fun r hr => onItems r (List.mem_cons_of_mem item hr)
    refine h.andThen (onItems item List.mem_cons_self) fun w => ?_
    split
    · exact onRest true
    · refine h.andThen (h.compare .equal v w) fun u => ?_
      split
      · exact h.pure _
      · exact onRest sawNull

theorem inList (h : Compositional P) (negated : Bool) {left : Run Value} {items : List (Run Value)}
    (onLeft : P left) (onItems : ∀ r ∈ items, P r) : P (Run.inList negated left items) := by
  refine h.andThen onLeft fun v => ?_
  split
  · exact h.pure _
  · exact h.search negated v items onItems false

section Evaluation

variable {s : Scope}

mutual

/-- Evaluation has the property, at every depth, if calls have it. -/
theorem evalAt (h : Compositional P) (call : ∀ name args, (∀ r ∈ args, P r) →
      P (Run.call s.caller name args)) (row : Row) (depth : Nat) :
    ∀ x : Expr, P (x.evalAt s row depth)
  | .literal v => h.atDepth s depth (h.pure v)
  | .column .. => h.atDepth s depth (h.ofExcept _)
  | .binary op l r =>
    h.atDepth s depth
      (h.binary op (evalAt h call row (depth + 1) l) (evalAt h call row (depth + 1) r))
  | .not x => h.atDepth s depth (h.andThen (evalAt h call row (depth + 1) x) fun _ => h.ofExcept _)
  | .negate x =>
    h.atDepth s depth (h.andThen (evalAt h call row (depth + 1) x) fun _ => h.ofExcept _)
  | .isNull x _ => h.atDepth s depth (h.andThen (evalAt h call row (depth + 1) x) fun _ => h.pure _)
  | .inList x values negated =>
    h.atDepth s depth
      (h.inList negated (evalAt h call row (depth + 1) x) (evalEach h call row (depth + 1) values))
  | .cast x _ =>
    h.atDepth s depth (h.andThen (evalAt h call row (depth + 1) x) fun _ => h.ofExcept _)
  | .call name args => h.atDepth s depth (call name _ (evalEach h call row (depth + 1) args))

theorem evalEach (h : Compositional P) (call : ∀ name args, (∀ r ∈ args, P r) →
      P (Run.call s.caller name args)) (row : Row) (depth : Nat) :
    ∀ (values : List Expr), ∀ r ∈ Expr.evalEach s row depth values, P r
  | [], r, hr => nomatch hr
  | x :: rest, r, hr => by
    rcases List.mem_cons.1 hr with rfl | hr
    · exact evalAt h call row depth x
    · exact evalEach h call row depth rest r hr

end

end Evaluation

end Compositional

namespace Candidate

/-- The connection in front of the parameters, where the method takes one. -/
def openFront (c : Candidate) (k : Caller) : CallRun (Option Connection) :=
  if c.takesConnection then some <$> CallRun.connect k.session k.mode else pure none

/-- The parameters, if they are as many as the method has. -/
def checked (c : Candidate) (front : Option Connection) :
    Option (List NativeValue) → CallRun (Option (List NativeValue))
  | none => pure none
  | some natives =>
    let params := c.arrange front natives
    if params.length = c.method.params.length then pure (some params)
    else throw (c.wrongCount params.length)

/-- Marshaling of the arguments behind the connection in front. -/
def marshalBehind (c : Candidate) (k : Caller) (args : List (Run Value)) (front : Option Connection) :
    CallRun (Option (List NativeValue)) :=
  if c.isVariadic ∧ args.length < c.fixedCount then throw (c.tooFew args.length)
  else marshalFrom c k 0 args >>= c.checked front

theorem marshal_eq (c : Candidate) (k : Caller) (args : List (Run Value)) :
    c.marshal k args = c.openFront k >>= c.marshalBehind k args := by
  unfold marshal openFront marshalBehind
  by_cases short : c.isVariadic = true ∧ args.length < c.fixedCount
  · simp only [if_pos short]
    cases c.takesConnection <;> rfl
  · simp only [if_neg short]
    cases c.takesConnection <;> rfl

/-- What a call does while it is isolated. -/
def inside (c : Candidate) (k : Caller) (params : List NativeValue) : CallRun Value := do
  let default ← openAmbient k
  RunWith.onEngine (c.callMethod k ⟨params, default⟩)

theorem run_eq (c : Candidate) (k : Caller) (params : List NativeValue) :
    c.run k params = CallRun.isolated k.session (c.inside k params) :=
  rfl

end Candidate

/-- From that state on, the run can end well with this. -/
def RunWith.GivesFrom {σ α : Type} (s : σ) (r : RunWith σ α) (a : α) : Prop :=
  ∃ e s' f, r.outcome s e = (.ok a, s', f)

/-- The run can end well with this. -/
def RunWith.Gives {σ α : Type} (r : RunWith σ α) (a : α) : Prop := ∃ s, r.GivesFrom s a

/-- The run from that state on, with what becomes of the state as a part of what it gives. It never fails. -/
def RunWith.startedIn {σ α : Type} (s : σ) (r : RunWith σ α) : Run (Except EngineError α × σ) :=
  Run.ofOutcome fun e =>
    let (x, s, e) := r.outcome s e
    (.ok (x, s), e)

theorem RunWith.startedIn_ok {σ α : Type} {s t : σ} {r : RunWith σ α} {x : Except EngineError α}
    {e f : Engine} : (r.startedIn s).outcome e = (.ok (x, t), f) ↔ r.outcome s e = (x, t, f) := by
  simp only [startedIn, Run.outcome_ofOutcome, Prod.ext_iff, Except.ok.injEq, and_assoc]

theorem RunWith.startedIn_bind {σ α β : Type} (s : σ) (r : RunWith σ α) (f : α → RunWith σ β) :
    (r >>= f).startedIn s = do
      match ← r.startedIn s with
      | (.ok a, s) => (f a).startedIn s
      | (.error x, s) => return (.error x, s) := by
  refine Run.ext fun e => ?_
  rw [Run.outcome_bind]
  simp only [startedIn, Run.outcome_ofOutcome, outcome_bind]
  generalize r.outcome s e = o
  obtain ⟨x, s, e⟩ := o
  cases x <;> rfl

/-- What closes its connections begins with none of them, so only what the first part gives then counts. -/
theorem CallRun.closing_congr {α β : Type} {r : CallRun α} {f g : α → CallRun β}
    (same : ∀ a, r.GivesFrom [] a → f a = g a) :
    CallRun.closing (r >>= f) = CallRun.closing (r >>= g) := by
  refine Run.ext fun e => ?_
  simp only [closing, Run.outcome_ofOutcome, RunWith.outcome_bind]
  generalize ran : r.outcome [] e = o
  obtain ⟨x, adopted, e'⟩ := o
  cases x with
  | error x => rfl
  | ok a =>
    dsimp only
    rw [same a ⟨e, adopted, e', ran⟩]

/-- A property of runs, and one that the runs on behalf of calls inherit from their parts. -/
structure CallCompositional (P : ⦃α : Type⦄ → Run α → Prop) (Q : ⦃α : Type⦄ → CallRun α → Prop) : Prop
    extends Compositional P where
  onEngine : ∀ {α : Type} {r : Run α}, P r → Q (RunWith.onEngine r)
  adopted : Q (getThe (List Connection) : CallRun (List Connection))
  inTurn : ∀ {α β : Type} {r : CallRun α} {f : α → CallRun β}, Q r → (∀ a, r.Gives a → Q (f a)) →
    Q (r >>= f)

namespace CallCompositional

variable {α β : Type} {P : ⦃α : Type⦄ → Run α → Prop} {Q : ⦃α : Type⦄ → CallRun α → Prop}

theorem return_ (h : CallCompositional P Q) (a : α) : Q (Pure.pure a : CallRun α) :=
  h.onEngine (h.toCompositional.pure a)

theorem fail (h : CallCompositional P Q) (x : EngineError) : Q (MonadExcept.throw x : CallRun α) :=
  h.onEngine (h.toCompositional.throw x)

theorem after (h : CallCompositional P Q) {r : CallRun α} {f : α → CallRun β} (first : Q r)
    (rest : ∀ a, Q (f a)) : Q (r >>= f) :=
  h.inTurn first fun a _ => rest a

theorem mapped (h : CallCompositional P Q) (f : α → β) {r : CallRun α} (only : Q r) :
    Q (f <$> r) := by
  rw [← bind_pure_comp]
  exact h.after only fun a => h.return_ (f a)

end CallCompositional

/-- What a property needs besides, so that calls of the session have it: those of candidates that are
allowed, with parameters that marshaling can give as nothing is adopted yet. -/
structure CallProperty (session : Nat) (Allowed : Candidate → Prop)
    (P : ⦃α : Type⦄ → Run α → Prop) (Q : ⦃α : Type⦄ → CallRun α → Prop) : Prop
    extends CallCompositional P Q where
  connect : ∀ mode, Q (CallRun.connect session mode)
  closing : ∀ {α : Type} {r : CallRun α}, Q r → P (CallRun.closing r)
  run : ∀ {c : Candidate} {k : Caller} {args : List (Run Value)} {params : List NativeValue},
    k.session = session → Allowed c → (c.marshal k args).GivesFrom [] (some params) →
      Q (c.run k params)

namespace CallProperty

variable {P : ⦃α : Type⦄ → Run α → Prop} {Q : ⦃α : Type⦄ → CallRun α → Prop}
  {Allowed : Candidate → Prop} {k : Caller}

theorem dataConnection (h : CallProperty k.session Allowed P Q) : Q k.dataConnection := by
  refine h.after h.adopted fun adopted => ?_
  split
  · exact h.return_ _
  · exact h.connect .full

theorem marshalPresent (h : CallProperty k.session Allowed P Q) (v : Value) (type : NativeType) :
    Q (Candidate.marshalPresent k v type) := by
  simp only [Candidate.marshalPresent]
  split
  · refine h.after h.dataConnection fun c => ?_
    refine h.after (h.onEngine (h.get (fun e e' same => ?_) fun e => h.ofExcept _)) fun o => h.return_ _
    rw [Engine.serializer_of_catalog same]
  · split
    · refine h.after (h.onEngine (h.ofExcept _)) fun content => ?_
      exact h.after h.dataConnection fun c => h.return_ _
    · exact h.onEngine (h.ofExcept _)

theorem marshalValue (h : CallProperty k.session Allowed P Q) (v : Value) (spec : ParamSpec) :
    Q (Candidate.marshalValue k v spec) := by
  simp only [Candidate.marshalValue]
  split
  · exact h.return_ _
  · split
    · exact h.return_ _
    · exact h.mapped some (h.marshalPresent v spec.type)

theorem marshalFrom (h : CallProperty k.session Allowed P Q) (c : Candidate) (args : List (Run Value))
    (onArgs : ∀ r ∈ args, P r) (index : Nat) : Q (c.marshalFrom k index args) := by
  induction args generalizing index with
  | nil => exact h.return_ _
  | cons arg rest ih =>
    have onRest := ih fun r hr => onArgs r (List.mem_cons_of_mem arg hr)
    simp only [Candidate.marshalFrom]
    split
    · exact h.fail _
    · next spec _ =>
      refine h.after (h.onEngine (onArgs arg List.mem_cons_self)) fun v => ?_
      refine h.after (h.marshalValue v spec) fun m => ?_
      split
      · exact h.return_ none
      · exact h.after (onRest _) fun _ => h.return_ _

theorem openFront (h : CallProperty k.session Allowed P Q) (c : Candidate) : Q (c.openFront k) := by
  rw [Candidate.openFront]
  split
  · exact h.mapped some (h.connect k.mode)
  · exact h.return_ none

theorem checked (h : CallProperty k.session Allowed P Q) (c : Candidate) (front : Option Connection)
    (natives : Option (List NativeValue)) : Q (c.checked front natives) := by
  cases natives with
  | none => exact h.return_ none
  | some natives =>
    dsimp only [Candidate.checked]
    split
    · exact h.return_ _
    · exact h.fail _

theorem marshalBehind (h : CallProperty k.session Allowed P Q) (c : Candidate) (args : List (Run Value))
    (onArgs : ∀ r ∈ args, P r) (front : Option Connection) : Q (c.marshalBehind k args front) := by
  rw [Candidate.marshalBehind]
  split
  · exact h.fail _
  · exact h.after (h.marshalFrom c args onArgs 0) fun natives => h.checked c front natives

theorem marshal (h : CallProperty k.session Allowed P Q) (c : Candidate) (args : List (Run Value))
    (onArgs : ∀ r ∈ args, P r) : Q (c.marshal k args) := by
  rw [Candidate.marshal_eq]
  exact h.after (h.openFront c) fun front => h.marshalBehind c args onArgs front

theorem invoke (h : CallProperty k.session Allowed P Q) {c : Candidate} (allowed : Allowed c)
    (args : List (Run Value)) (onArgs : ∀ r ∈ args, P r) : P (c.invoke k args) := by
  classical
  let goOn : Option (List NativeValue) → CallRun Value
    | none => return .null
    | some params => c.run k params
  have same : c.invoke k args = CallRun.closing do
      let params ← c.marshal k args
      if (c.marshal k args).GivesFrom [] params then goOn params else return .null :=
    CallRun.closing_congr fun params given => (if_pos given).symm
  rw [same]
  refine h.closing (h.after (h.marshal c args onArgs) fun params => ?_)
  split
  · next given =>
    cases params with
    | none => exact h.return_ Value.null
    | some params => exact h.run rfl allowed given
  · exact h.return_ Value.null

end CallProperty

namespace Compositional

variable {P : ⦃α : Type⦄ → Run α → Prop} {c : Candidate} {k : Caller} {frame : CallFrame}

/-- A call of a method has the property, if the body has it in the frame. -/
theorem callMethod (h : Compositional P) (native : P (Run.native k.session c.method frame)) :
    P (c.callMethod k frame) := by
  refine h.andThen native fun conducted => ?_
  split
  · exact h.throw _
  · refine h.get (fun e e' same => ?_) fun e => h.ofExcept _
    rw [Engine.serializer_of_catalog same]

end Compositional

namespace CallCompositional

variable {P : ⦃α : Type⦄ → Run α → Prop} {Q : ⦃α : Type⦄ → CallRun α → Prop} {c : Candidate}
  {k : Caller} {params : List NativeValue}

theorem openAmbient (h : CallCompositional P Q) (connect : Q (CallRun.connect k.session k.mode))
    (known : ∀ conn, P (modify (·.updateSession k.session ({ · with ambient := some conn })) :
      Run PUnit)) : Q (Candidate.openAmbient k) := by
  have settings : P (do return (← MonadState.get).settings.defaultConnection : Run Bool) := by
    refine h.get (fun e e' same => ?_) fun e => h.pure _
    rw [Engine.settings_of_catalog same]
  refine h.after (h.onEngine settings) fun wanted => ?_
  split
  · exact h.after connect fun conn => h.after (h.onEngine (known conn)) fun _ => h.return_ _
  · exact h.return_ none

/-- What a call does while it is isolated has the property, if its parts have it: the ambient connection,
and the body in the frame that comes of it. -/
theorem inside (h : CallCompositional P Q) (connect : Q (CallRun.connect k.session k.mode))
    (known : ∀ conn, P (modify (·.updateSession k.session ({ · with ambient := some conn })) :
      Run PUnit))
    (native : ∀ default, (Candidate.openAmbient k).Gives default →
      P (Run.native k.session c.method ⟨params, default⟩)) : Q (c.inside k params) :=
  h.inTurn (h.openAmbient connect known) fun default given =>
    h.onEngine (h.callMethod (native default given))

end CallCompositional

end SqlEngine
