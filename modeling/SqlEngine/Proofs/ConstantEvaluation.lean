import SqlEngine.Proofs.MembershipHistory
import SqlEngine.Proofs.SessionState

/-!
# Constants

What a constant gives, a value or an error, is settled by how values compare. The session, the columns and
the row play no part in it, nor do aliases and classes, since no native method is called. So a constant may
be evaluated ahead of the rows.
-/

namespace SqlEngine

section Journal

/-- Nothing is taken from the journal, nor changed in it. -/
def JournalGrows (e f : Engine) : Prop := e.journal <+: f.journal

theorem journalGrows_order : EffectOrder JournalGrows where
  refl e := List.prefix_refl e.journal
  trans first second := List.IsPrefix.trans first second

theorem journalGrows_loads : LoadRelation JournalGrows where
  toEffectOrder := journalGrows_order
  compiler e _ := List.prefix_refl e.journal
  setAlias e _ _ := List.prefix_refl e.journal

/-- A native body cannot get at the journal. -/
theorem journal_conduct (i : Interaction) (e : Engine) : (i.conduct e).engine.journal = e.journal := by
  have order : EffectOrder fun e f : Engine => f.journal = e.journal :=
    ⟨fun _ => rfl, fun first second => second.trans first⟩
  exact order.conduct (fun _ _ _ => rfl) i e

theorem journalGrows_native (session : Nat) (m : NativeMethod) (frame : CallFrame) :
    (Run.native session m frame).Relates JournalGrows := by
  intro e
  refine ⟨[⟨session, m.name, frame, (e.session session).ambient, ((m.body frame).conduct e).remarks⟩], ?_⟩
  exact congrArg (· ++ _) (journal_conduct (m.body frame) e).symm

theorem journalGrows_calls (session : Nat) : CallRelation session JournalGrows where
  toEffectOrder := journalGrows_order
  connect _ e := List.prefix_refl e.journal
  close e _ := List.prefix_refl e.journal
  resolve := journalGrows_loads.resolve
  run c k params _ adopted e := by
    have inside : (c.inside k params).Relates JournalGrows :=
      journalGrows_order.callCompositional.inside (fun _ e => List.prefix_refl e.journal)
        (fun _ e => List.prefix_refl e.journal) fun default _ =>
          journalGrows_native k.session c.method ⟨params, default⟩
    exact inside adopted (e.updateSession k.session Session.entered)

namespace Run

variable {α : Type}

/-- The native calls that a run makes. -/
def callsMade (r : Run α) (e : Engine) : List CallRecord := (r.outcome e).2.journal.drop e.journal.length

theorem callsMade_native (session : Nat) (m : NativeMethod) (frame : CallFrame) (e : Engine) :
    (native session m frame).callsMade e =
      [⟨session, m.name, frame, (e.session session).ambient, ((m.body frame).conduct e).remarks⟩] := by
  change List.drop e.journal.length (((m.body frame).conduct e).engine.journal ++ _) = _
  rw [journal_conduct, List.drop_left]

end Run

/-- The journal tells all native calls of an evaluation. -/
theorem journal_evalAt (s : Scope) (row : Row) (depth : Nat) (x : Expr) (e : Engine) :
    ((x.evalAt s row depth).outcome e).2.journal = e.journal ++ (x.evalAt s row depth).callsMade e :=
  (List.prefix_iff_eq_append.1 ((journalGrows_calls s.session).evalAt row depth x e)).symm

end Journal

section Constants

variable {cmp : Value → Value → Ordering} {s s' : Scope} {x : Expr}

theorem Outcome.congruence_eq : Congruence Eq where
  refl _ := rfl
  bind {x y f g} first rest := by rw [first, funext rest]

theorem Outcome.limitsKeep_eq (limit : s.depthLimit = s'.depthLimit) (depth : Nat) :
    LimitsKeep Eq s depth s' depth := by
  rintro k x _ rfl
  rw [atDepth, atDepth, limit]

/-- At a depth, a constant has the same outcome in all scopes with the same limit. -/
theorem Expr.constant_computes (constant : x.isConstant = true) (cmp : Value → Value → Ordering)
    (limit : Option Nat) (depth : Nat) :
    ∃ result, ∀ s : Scope, s.depthLimit = limit → ∀ row,
      Run.Computes cmp (x.evalAt s row depth) result := by
  let t : Scope := { session := 0, depthLimit := limit }
  refine ⟨x.valueAt cmp t [] depth, fun s limited row => ?_⟩
  have same : x.valueAt cmp s row depth = x.valueAt cmp t [] depth :=
    x.valueAt_related Outcome.congruence_eq cmp (Outcome.limitsKeep_eq limited depth) (.inl constant)
  rw [← same]
  exact x.evalAt_computes cmp s row depth (x.isCallFree_of_isConstant constant)

variable {β : Type} {first : Row → Run Value} {e : Engine}

/-- A value that is computed for each row anew may be put in, as long as nobody touches the comparison. -/
theorem Run.mapM_computed {v : Value} (computed : ∀ row, Computes cmp (first row) (.ok v))
    {k : Row → Value → Run β} (keeps : ∀ row v, (k row v).Relates SameComparison) (rows : List Row)
    {e : Engine} (comparison : e.compare = cmp) :
    (rows.mapM fun row => first row >>= k row).outcome e = (rows.mapM fun row => k row v).outcome e := by
  induction rows generalizing e with
  | nil => rfl
  | cons row rest ih =>
    have here : (first row >>= k row).outcome e = (k row v).outcome e := by
      rw [outcome_bind, computed row e comparison]
    rw [List.mapM_cons, List.mapM_cons, outcome_bind (first row >>= k row), outcome_bind (k row v), here]
    -- The rest starts from an engine that the row may have changed, but not in its comparison.
    have kept := keeps row v e
    generalize (k row v).outcome e = o at kept
    obtain ⟨y, f⟩ := o
    cases y with
    | error y => rfl
    | ok b =>
      dsimp only
      rw [outcome_bind, outcome_bind, ih (kept.trans comparison)]

/-- If there is any row, one computation in front does for all rows. -/
theorem Run.mapM_computed_once {result : Outcome} (computed : ∀ row, Computes cmp (first row) result)
    {once : Run Value} (computedOnce : Computes cmp once result) {k : Row → Value → Run β}
    (keeps : ∀ row v, (k row v).Relates SameComparison) {rows : List Row} (nonempty : rows ≠ [])
    (comparison : e.compare = cmp) :
    (rows.mapM fun row => first row >>= k row).outcome e =
      (once >>= fun v => rows.mapM fun row => k row v).outcome e := by
  rw [outcome_bind once, computedOnce e comparison]
  cases result with
  | ok v => exact mapM_computed computed keeps rows comparison
  | error y =>
    obtain ⟨row, rest, rfl⟩ := List.exists_cons_of_ne_nil nonempty
    rw [List.mapM_cons, outcome_bind, outcome_bind, computed row e comparison]

theorem Run.Computes.callsMade {α : Type} {r : Run α} {y : Except EngineError α}
    (computes : Computes cmp r y) (comparison : e.compare = cmp) : r.callsMade e = [] := by
  rw [Run.callsMade, computes e comparison, List.drop_length]

/-- A constant gives one result in all scopes with one limit, for all rows and over all engines that compare values
alike. It calls no native method and leaves the engine as it is, where the calls of an evaluation are all that it
enters in the journal, and every native call enters itself. What is done for each of some rows with its result may as
well be done with the result of an evaluation in front, in whatever scope. -/
theorem Expr.constant_independent (constant : x.isConstant = true) (limit : s.depthLimit = s'.depthLimit)
    {e e' : Engine} (comparator : ∀ v w, e.compare v w = e'.compare v w) (row row' : Row) :
    (∃ result, (x.eval s row).outcome e = (result, e) ∧ (x.eval s' row').outcome e' = (result, e') ∧
        (x.evalConstant s).outcome e = (result, e) ∧ (x.evalConstant s').outcome e' = (result, e')) ∧
      (x.eval s row).callsMade e = [] ∧ (x.eval s' row').callsMade e' = [] ∧
      (∀ (t : Scope) (row : Row) (y : Expr) (g : Engine),
        ((y.eval t row).outcome g).2.journal = g.journal ++ (y.eval t row).callsMade g) ∧
      (∀ (session : Nat) (m : NativeMethod) (frame : CallFrame) (g : Engine),
        (Run.native session m frame).callsMade g =
          [⟨session, m.name, frame, (g.session session).ambient, ((m.body frame).conduct g).remarks⟩]) ∧
      ∀ (β : Type) (k : Row → Value → Run β), (∀ row v, (k row v).Relates SameComparison) →
        ∀ rows : List Row, rows ≠ [] →
          (rows.mapM fun row => x.eval s row >>= k row).outcome e =
            (x.evalConstant s' >>= fun v => rows.mapM fun row => k row v).outcome e := by
  have comparison : e'.compare = e.compare := by
    funext v w
    exact (comparator v w).symm
  obtain ⟨result, computes⟩ := Expr.constant_computes constant e.compare s'.depthLimit 0
  refine ⟨⟨result, ?_, ?_, ?_, ?_⟩, ?_, ?_, fun t row y => journal_evalAt t row 0 y, Run.callsMade_native,
    fun β k keeps rows nonempty => ?_⟩
  · exact computes s limit row e rfl
  · exact computes s' rfl row' e' comparison
  · exact computes s limit [] e rfl
  · exact computes s' rfl [] e' comparison
  · exact (computes s limit row).callsMade rfl
  · exact (computes s' rfl row').callsMade comparison
  · exact Run.mapM_computed_once (computes s limit) (computes s' rfl []) keeps nonempty rfl

/-- Text compares alike in both engines, so what the constant gives without any columns or aliases it gives in the
scope and the engine of a call too. In front of two calls it may be evaluated once. -/
theorem Expr.constant_independent_tampered :
    let x : Expr := .binary .equal (.cast (.literal (.varchar "a")) (.char 2)) (.literal (.varchar "A"))
    let s : Scope := { session := 1, tableAlias := some "T", columnList := true }
    let e : Engine := { tamperedEngine with compare := Collation.compare { ignoreCase := true } }
    let tamper (row : Row) (_ : Value) : Run Value := (Expr.call "TAMPER" []).eval s row
    let rows : List Row := [[.null], []]
    (x.eval s [.null]).outcome e = (.ok (.boolean true), e) ∧ (x.eval s [.null]).callsMade e = [] ∧
      (rows.mapM fun row => x.eval s row >>= tamper row).outcome e =
        (x.evalConstant { session := 0 } >>= fun v => rows.mapM fun row => tamper row v).outcome e := by
  intro x s e tamper rows
  let nowhere : Scope := { session := 0 }
  let plain : Engine := { collation := { ignoreCase := true } }
  have constant : x.isConstant = true := rfl
  have limit : s.depthLimit = nowhere.depthLimit := rfl
  have comparator (v w : Value) : e.compare v w = plain.compare v w := rfl
  obtain ⟨⟨result, here, alone, _⟩, silent, _, _, _, once⟩ :=
    constant_independent constant limit comparator [.null] []
  have gives : result = .ok (.boolean true) := (congrArg (·.1) alone).symm.trans rfl
  rw [gives] at here
  refine ⟨here, silent, once Value tamper (fun row _ => ?_) rows (by decide)⟩
  exact (sameComparison_calls 1).evalAt row 0 _

end Constants

end SqlEngine
