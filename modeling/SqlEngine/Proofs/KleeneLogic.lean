import Mathlib.Order.Lattice
import SqlEngine.Proofs.BinaryRounding
import SqlEngine.Proofs.DepthLimit
import SqlEngine.Proofs.ShortCircuit

/-!
# Three-valued logic of connectives

An expression built from connectives is a formula over leaves. Its evaluation goes from left to right, may pass over
right sides and ends at the first leaf that fails. What it gives is read off the leaves that it has reached, and is
the truth of the formula in Kleene's logic, whatever the leaves that were passed over would have been.
-/

namespace SqlEngine

/-! ## Truths -/

namespace Truth

/-- Truths in their order, from what fails to what holds. -/
def level : Truth → Nat
  | fails => 0
  | unknown => 1
  | holds => 2

theorem level_injective : Function.Injective level := by
  intro s t same
  cases s <;> cases t <;> first | rfl | cases same

instance : LinearOrder Truth := LinearOrder.lift' level level_injective

theorem toValue_ofBool (b : Bool) : (ofBool b).toValue = .boolean b := by
  cases b <;> rfl

theorem and_eq_min (s t : Truth) : s.and t = min s t := by
  cases s <;> cases t <;> rfl

theorem or_eq_max (s t : Truth) : s.or t = max s t := by
  cases s <;> cases t <;> rfl

end Truth

namespace Value

/-- The truth of null, of a truth value, and of an exact whole number, which holds unless it is zero. -/
inductive HasTruth : Value → Truth → Prop where
  | null : HasTruth null .unknown
  | boolean (b : Bool) : HasTruth (boolean b) (.ofBool b)
  | smallint (n : Int16) : HasTruth (smallint n) (.ofBool (n != 0))
  | integer (n : Int32) : HasTruth (integer n) (.ofBool (n != 0))
  | bigint (n : Int64) : HasTruth (bigint n) (.ofBool (n != 0))

variable {v w : Value} {t u : Truth}

theorem HasTruth.ofValue? (h : v.HasTruth t) : Truth.ofValue? v = some t := by
  have whole {n : Int} {b : Bool} (zero : (n == 0) = !b) :
      some (Truth.ofBool (!(Binary.ofInt .double n).eq (.zero false))) = some (.ofBool b) := by
    rw [Binary.ofInt_eq_zero, zero, Bool.not_not]
  cases h with
  | null => rfl
  | boolean b => rfl
  | smallint n =>
    refine whole ?_
    rw [Bool.eq_iff_iff]
    simp [← Int16.toInt_inj]
  | integer n =>
    refine whole ?_
    rw [Bool.eq_iff_iff]
    simp [← Int32.toInt_inj]
  | bigint n =>
    refine whole ?_
    rw [Bool.eq_iff_iff]
    simp [← Int64.toInt_inj]

theorem HasTruth.operand (h : v.HasTruth t) (op : String) : Truth.operand op v = .ok t := by
  rw [Truth.operand, h.ofValue?]

theorem hasTruth_toValue (t : Truth) : t.toValue.HasTruth t := by
  cases t with
  | fails => exact .boolean false
  | unknown => exact .null
  | holds => exact .boolean true

theorem HasTruth.unique (h : v.HasTruth t) (h' : v.HasTruth u) : t = u :=
  Option.some.inj (h.ofValue?.symm.trans h'.ofValue?)

theorem HasTruth.logicalNot (h : v.HasTruth t) : v.logicalNot = .ok t.not.toValue := by
  rw [Value.logicalNot, h.operand]
  rfl

end Value

/-! ## Formulas -/

inductive Junction where
  | and
  | or

namespace Junction

def op : Junction → BinaryOp
  | and => .and
  | or => .or

/-- The left value that makes the right side unnecessary. -/
def stop : Junction → Bool
  | and => false
  | or => true

/-- In Kleene's logic the lesser and the greater truth. -/
def join : Junction → Truth → Truth → Truth
  | and => min
  | or => max

def combine : Junction → Value → Value → Outcome
  | and => Value.conjoin
  | or => Value.disjoin

/-- What came of the left side makes the right side unnecessary: it failed, or its value decides. -/
def Settles (j : Junction) : Outcome → Prop
  | .error _ => True
  | .ok l => l = .boolean j.stop

theorem settles_or_open (j : Junction) (x : Outcome) : j.Settles x ∨ ∃ l, x = .ok l ∧ l ≠ .boolean j.stop := by
  cases x with
  | error x => exact .inl trivial
  | ok l =>
    by_cases decided : l = .boolean j.stop
    · exact .inl decided
    · exact .inr ⟨l, rfl, decided⟩

theorem join_stop (j : Junction) (t : Truth) : j.join (.ofBool j.stop) t = .ofBool j.stop := by
  cases j <;> cases t <;> rfl

theorem combine_eq (j : Junction) {l r : Value} {s t : Truth} (left : l.HasTruth s) (right : r.HasTruth t) :
    j.combine l r = .ok (j.join s t).toValue := by
  cases j with
  | and =>
    rw [combine, Value.conjoin, left.operand, right.operand, join, ← Truth.and_eq_min]
    rfl
  | or =>
    rw [combine, Value.disjoin, left.operand, right.operand, join, ← Truth.or_eq_max]
    rfl

end Junction

/-- Connectives over leaves of some kind. -/
inductive Formula (α : Type) where
  | leaf (a : α)
  | not (f : Formula α)
  | join (j : Junction) (f g : Formula α)

namespace Formula

variable {α β : Type}

def isComposed : Formula α → Bool
  | leaf _ => false
  | not _ | join .. => true

/-- So many connectives are nested. -/
def nesting : Formula α → Nat
  | leaf _ => 0
  | not f => f.nesting + 1
  | join _ f g => max f.nesting g.nesting + 1

/-- From left to right. -/
def leaves : Formula α → List α
  | leaf a => [a]
  | not f => f.leaves
  | join _ f g => f.leaves ++ g.leaves

def map (h : α → β) : Formula α → Formula β
  | leaf a => leaf (h a)
  | not f => not (f.map h)
  | join j f g => join j (f.map h) (g.map h)

/-- The same connectives, with related leaves in the same places. -/
inductive Forall₂ (R : α → β → Prop) : Formula α → Formula β → Prop where
  | leaf {a : α} {b : β} : R a b → Forall₂ R (leaf a) (leaf b)
  | not {f : Formula α} {g : Formula β} : Forall₂ R f g → Forall₂ R (not f) (not g)
  | join (j : Junction) {f f' : Formula α} {g g' : Formula β} :
    Forall₂ R f g → Forall₂ R f' g' → Forall₂ R (join j f f') (join j g g')

/-- The truth of a formula over truths in Kleene's logic. -/
def kleene : Formula Truth → Truth
  | leaf t => t
  | not f => f.kleene.not
  | join j f g => j.join f.kleene g.kleene

def toExpr : Formula Expr → Expr
  | leaf x => x
  | not f => .not f.toExpr
  | join j f g => .binary j.op f.toExpr g.toExpr

/-- Each leaf as the evaluation that it is at its place. -/
def placed (s : Scope) (row : Row) (depth : Nat) : Formula Expr → Formula (Run Value)
  | leaf x => leaf (x.evalAt s row depth)
  | not f => not (f.placed s row (depth + 1))
  | join j f g => join j (f.placed s row (depth + 1)) (g.placed s row (depth + 1))

/-- The evaluation of a formula whose leaves are evaluations. -/
def run : Formula (Run Value) → Run Value
  | leaf r => r
  | not f => do Run.ofExcept (← f.run).logicalNot
  | join j f g => do
    let l ← f.run
    if l.same (.boolean j.stop) then return l else Run.ofExcept (j.combine l (← g.run))

/-- Connectives at allowed depths are evaluated without regard to the limit. -/
theorem evalAt_toExpr {s : Scope} (row : Row) {depth : Nat} {f : Formula Expr}
    (within : s.Allows (depth + f.nesting)) : f.toExpr.evalAt s row depth = (f.placed s row depth).run := by
  induction f generalizing depth with
  | leaf x => rfl
  | not f ih =>
    have here : s.Allows depth := within.mono (Nat.le_add_right _ _)
    have inside : s.Allows (depth + 1 + f.nesting) := within.mono (by simp only [nesting]; omega)
    rw [toExpr, Expr.evalAt, Scope.atDepth_of_allows here, ih inside]
    rfl
  | join j f g ihf ihg =>
    have here : s.Allows depth := within.mono (Nat.le_add_right _ _)
    have onLeft : s.Allows (depth + 1 + f.nesting) := within.mono (by simp only [nesting]; omega)
    have onRight : s.Allows (depth + 1 + g.nesting) := within.mono (by simp only [nesting]; omega)
    rw [toExpr, Expr.evalAt, Scope.atDepth_of_allows here, ihf onLeft, ihg onRight]
    cases j <;> rfl

/-- In an expression that fits, the place of a leaf does not matter. -/
theorem placed_of_fits {s : Scope} (row : Row) {depth : Nat} {f : Formula Expr} (fits : f.toExpr.Fits s depth) :
    f.placed s row depth = f.map (·.eval s row) := by
  induction f generalizing depth with
  | leaf x =>
    have alone : x.Fits s 0 := fun n path => (fits n path).mono (by omega)
    have same := (x.evalAt_of_fits row 0 fits).trans (x.evalAt_of_fits row 0 alone).symm
    rw [placed, same]
    rfl
  | not f ih => rw [placed, ih (fits.operand List.mem_cons_self), map]
  | join j f g ihf ihg =>
    rw [placed, ihf (fits.operand List.mem_cons_self), ihg (fits.operand (.tail _ List.mem_cons_self)), map]

/-! ## The course of an evaluation -/

/-- An evaluation seen from its leaves: what came of each one that was reached, and how it all ended. -/
structure Visit where
  reached : Formula (Option Outcome)
  outcome : Outcome
  engine : Engine

/-- Evaluation that keeps account of the leaves. -/
def visit : Formula (Run Value) → Engine → Visit
  | leaf r, e => ⟨leaf (some (r.outcome e).1), (r.outcome e).1, (r.outcome e).2⟩
  | not f, e =>
    let v := f.visit e
    ⟨not v.reached, v.outcome >>= (·.logicalNot), v.engine⟩
  | join j f g, e =>
    let v := f.visit e
    let passedOver : Visit := ⟨join j v.reached (g.map fun _ => none), v.outcome, v.engine⟩
    match v.outcome with
    | .error _ => passedOver
    | .ok l =>
      if l.same (.boolean j.stop) then passedOver
      else
        let w := g.visit v.engine
        ⟨join j v.reached w.reached, w.outcome >>= j.combine l, w.engine⟩

variable {f g : Formula (Run Value)} {j : Junction} {e : Engine}

theorem visit_settled (settled : j.Settles (f.visit e).outcome) :
    (join j f g).visit e =
      ⟨join j (f.visit e).reached (g.map fun _ => none), (f.visit e).outcome, (f.visit e).engine⟩ := by
  rw [visit]
  cases ended : (f.visit e).outcome with
  | error x => rfl
  | ok l =>
    rw [ended] at settled
    exact if_pos (Value.same_boolean.2 settled)

theorem visit_open {l : Value} (ended : (f.visit e).outcome = .ok l) (undecided : l ≠ .boolean j.stop) :
    (join j f g).visit e =
      ⟨join j (f.visit e).reached (g.visit (f.visit e).engine).reached,
        (g.visit (f.visit e).engine).outcome >>= j.combine l, (g.visit (f.visit e).engine).engine⟩ := by
  rw [visit, ended]
  exact if_neg fun same => undecided (Value.same_boolean.1 same)

theorem outcome_run (f : Formula (Run Value)) (e : Engine) :
    f.run.outcome e = ((f.visit e).outcome, (f.visit e).engine) := by
  induction f generalizing e with
  | leaf r => rfl
  | not f ih =>
    rw [run, Run.outcome_bind, ih, visit]
    cases (f.visit e).outcome <;> rfl
  | join j f g ihf ihg =>
    rw [run, Run.outcome_bind, ihf, visit]
    cases (f.visit e).outcome with
    | error x => rfl
    | ok l =>
      simp only []
      split
      · rfl
      · rw [Run.outcome_bind, ihg]
        cases (g.visit (f.visit e).engine).outcome <;> rfl

def failure? : Option Outcome → Option EngineError
  | some (.error x) => some x
  | _ => none

/-- The first failure from left to right. -/
def firstFailure? (reached : Formula (Option Outcome)) : Option EngineError := reached.leaves.findSome? failure?

/-- The truths are those of the leaves that were reached and did not fail, and any others elsewhere. -/
def Completes (reached : Formula (Option Outcome)) (g : Formula Truth) : Prop :=
  Forall₂ (fun o t => ∀ v, o = some (.ok v) → v.HasTruth t) reached g

theorem firstFailure?_join (j : Junction) (f g : Formula (Option Outcome)) :
    (join j f g).firstFailure? = f.firstFailure?.or g.firstFailure? :=
  List.findSome?_append

theorem firstFailure?_unreached (f : Formula α) : (f.map fun _ => none).firstFailure? = none := by
  induction f with
  | leaf a => rfl
  | not f ih => exact ih
  | join j f g ihf ihg => rw [map, firstFailure?_join, ihf, ihg, Option.or_none]

/-- Truths for all leaves exist as soon as the leaves that were reached have theirs. -/
theorem exists_completion {reached : Formula (Option Outcome)}
    (truths : ∀ v, some (.ok v) ∈ reached.leaves → ∃ t, v.HasTruth t) : ∃ g, Completes reached g := by
  induction reached with
  | leaf o =>
    by_cases found : ∃ v, o = some (.ok v)
    · obtain ⟨v, rfl⟩ := found
      obtain ⟨t, truth⟩ := truths v List.mem_cons_self
      refine ⟨leaf t, .leaf fun w same => ?_⟩
      cases same
      exact truth
    · exact ⟨leaf .unknown, .leaf fun v same => absurd ⟨v, same⟩ found⟩
  | not f ih =>
    obtain ⟨g, completes⟩ := ih truths
    exact ⟨not g, .not completes⟩
  | join j f f' ih ih' =>
    obtain ⟨g, completes⟩ := ih fun v h => truths v (List.mem_append_left _ h)
    obtain ⟨g', completes'⟩ := ih' fun v h => truths v (List.mem_append_right _ h)
    exact ⟨join j g g', .join j completes completes'⟩

/-- The first failure that was reached ends an evaluation; without one the evaluation has the truth that the formula
has with the leaves that were reached, whatever the others are. -/
theorem visit_kleene (f : Formula (Run Value)) (e : Engine) {g : Formula Truth}
    (completes : Completes (f.visit e).reached g) :
    (∃ x, (f.visit e).reached.firstFailure? = some x ∧ (f.visit e).outcome = .error x) ∨
      (f.visit e).reached.firstFailure? = none ∧ ∃ w, (f.visit e).outcome = .ok w ∧ w.HasTruth g.kleene ∧
        (f.isComposed = true → w = g.kleene.toValue) := by
  -- the engine is generalized because the right side starts where the left one has ended
  induction f generalizing e g with
  | leaf r =>
    rw [visit] at completes ⊢
    cases completes with
    | leaf truth =>
      cases ended : (r.outcome e).1 with
      | error x => exact .inl ⟨x, rfl, rfl⟩
      | ok w => exact .inr ⟨rfl, w, rfl, truth w (by rw [ended]), nofun⟩
  | not f ih =>
    rw [visit] at completes ⊢
    obtain _ | inside := completes
    rcases ih e inside with ⟨x, first, failed⟩ | ⟨none, w, ended, truth, _⟩
    · refine .inl ⟨x, first, ?_⟩
      simp only [failed]
      rfl
    · refine .inr ⟨none, _, ?_, Value.hasTruth_toValue _, fun _ => rfl⟩
      simp only [ended]
      exact truth.logicalNot
  | join j f f' ih ih' =>
    rcases j.settles_or_open (f.visit e).outcome with settled | ⟨l, ended, undecided⟩
    · rw [visit_settled settled] at completes ⊢
      obtain _ | _ | ⟨_, onLeft, _⟩ := completes
      rw [firstFailure?_join, firstFailure?_unreached, Option.or_none]
      rcases ih e onLeft with failed | ⟨none, w, given, truth, _⟩
      · exact .inl failed
      · -- the left side is the truth value that decides, so any truth on the right gives the same
        rw [given] at settled
        obtain rfl : w = .boolean j.stop := settled
        have stopped : Truth.ofBool j.stop = _ := (Value.HasTruth.boolean j.stop).unique truth
        refine .inr ⟨none, _, given, ?_, fun _ => ?_⟩
        · rw [kleene, ← stopped, j.join_stop]
          exact .boolean _
        · rw [kleene, ← stopped, j.join_stop, Truth.toValue_ofBool]
    · rw [visit_open ended undecided] at completes ⊢
      obtain _ | _ | ⟨_, onLeft, onRight⟩ := completes
      rw [firstFailure?_join]
      rcases ih e onLeft with ⟨x, _, failed⟩ | ⟨none, w, given, truth, _⟩
      · cases ended.symm.trans failed
      obtain rfl := Except.ok.inj (ended.symm.trans given)
      rw [none, Option.none_or]
      rcases ih' _ onRight with ⟨x, first, failed⟩ | ⟨none', r, given', truth', _⟩
      · refine .inl ⟨x, first, ?_⟩
        simp only [failed]
        rfl
      · refine .inr ⟨none', _, ?_, Value.hasTruth_toValue _, fun _ => rfl⟩
        simp only [given']
        exact j.combine_eq truth truth'

/-- From engines of some kind the evaluation gives a value of this truth and leaves such an engine. -/
def Gives (S : Engine → Prop) (r : Run Value) (t : Truth) : Prop :=
  ∀ e, S e → ∃ v e', r.outcome e = (.ok v, e') ∧ v.HasTruth t ∧ S e'

theorem completes_unreached {R : α → Truth → Prop} {f : Formula α} {g : Formula Truth} (same : Forall₂ R f g) :
    Completes (f.map fun _ => none) g := by
  induction same with
  | leaf _ => exact .leaf nofun
  | not _ ih => exact .not ih
  | join j _ _ ih ih' => exact .join j ih ih'

/-- Where all leaves have a truth, the leaves that are reached do not fail. -/
theorem visit_gives {S : Engine → Prop} {f : Formula (Run Value)} {g : Formula Truth} (given : Forall₂ (Gives S) f g)
    {e : Engine} (h : S e) :
    Completes (f.visit e).reached g ∧ (f.visit e).reached.firstFailure? = none ∧ S (f.visit e).engine := by
  induction given generalizing e with
  | leaf gives =>
    obtain ⟨v, e', ended, truth, kept⟩ := gives e h
    rw [visit, ended]
    refine ⟨.leaf fun w same => ?_, rfl, kept⟩
    cases same
    exact truth
  | not _ ih =>
    obtain ⟨completes, none, kept⟩ := ih h
    exact ⟨.not completes, none, kept⟩
  | @join j f f' g g' given given' ih ih' =>
    obtain ⟨completes, none, kept⟩ := ih h
    rcases j.settles_or_open (f.visit e).outcome with settled | ⟨l, ended, undecided⟩
    · rw [visit_settled settled, firstFailure?_join, firstFailure?_unreached, Option.or_none]
      exact ⟨.join j completes (completes_unreached given'), none, kept⟩
    · obtain ⟨completes', none', kept'⟩ := ih' kept
      rw [visit_open ended undecided, firstFailure?_join, none, Option.none_or]
      exact ⟨.join j completes completes', none', kept'⟩

theorem forall₂_map {R : α → β → Prop} {k : α → β} (f : Formula α) (h : ∀ a, R a (k a)) : f.Forall₂ R (f.map k) := by
  induction f with
  | leaf a => exact .leaf (h a)
  | not f ih => exact .not ih
  | join j f g ihf ihg => exact .join j ihf ihg

/-- What was reached, if it was, is what the evaluation gives from some engine of this kind. -/
def ReachedFrom (S : Engine → Prop) (r : Run Value) (o : Option Outcome) : Prop :=
  ∀ x, o = some x → ∃ e, S e ∧ (r.outcome e).1 = x

/-- The account of the leaves says nothing that they do not give. -/
theorem visit_reached {S : Engine → Prop} {f : Formula (Run Value)}
    (kept : ∀ r ∈ f.leaves, ∀ e, S e → S (r.outcome e).2) {e : Engine} (h : S e) :
    f.Forall₂ (ReachedFrom S) (f.visit e).reached ∧ S (f.visit e).engine := by
  induction f generalizing e with
  | leaf r =>
    refine ⟨.leaf fun x same => ⟨e, h, Option.some.inj same⟩, kept r List.mem_cons_self e h⟩
  | not f ih =>
    obtain ⟨reached, stays⟩ := ih kept h
    exact ⟨.not reached, stays⟩
  | join j f g ihf ihg =>
    obtain ⟨reached, stays⟩ := ihf (fun r listed => kept r (List.mem_append_left _ listed)) h
    have passedOver : g.Forall₂ (ReachedFrom S) (g.map fun _ => none) := g.forall₂_map fun r x => nofun
    rcases j.settles_or_open (f.visit e).outcome with settled | ⟨l, ended, undecided⟩
    · rw [visit_settled settled]
      exact ⟨.join j reached passedOver, stays⟩
    · obtain ⟨reached', stays'⟩ := ihg (fun r listed => kept r (List.mem_append_right _ listed)) stays
      rw [visit_open ended undecided]
      exact ⟨.join j reached reached', stays'⟩

/-- The evaluation of connectives, by what comes of the leaves that it reaches. If all leaves have a truth, it gives
the truth of the formula in Kleene's logic. If leaves fail, it ends with the first failure that it reaches, or it
reaches none and gives the truth that the formula has whatever the leaves are that it passes over. In an expression
within the limit each leaf counts as by itself. -/
theorem connectives_follow_kleene (s : Scope) (row : Row) (f : Formula Expr) (composed : f.isComposed = true)
    (within : s.Allows f.nesting) (e : Engine) :
    let leaves := f.placed s row 0
    let v := leaves.visit e
    (f.toExpr.eval s row).outcome e = (v.outcome, v.engine) ∧
      (∀ S, S e → (∀ r ∈ leaves.leaves, ∀ e, S e → S (r.outcome e).2) → leaves.Forall₂ (ReachedFrom S) v.reached) ∧
      (∀ S g, S e → leaves.Forall₂ (Gives S) g → v.outcome = .ok g.kleene.toValue ∧ S v.engine) ∧
      ((∀ w, some (.ok w) ∈ v.reached.leaves → ∃ t, w.HasTruth t) →
        (∃ x, v.reached.firstFailure? = some x ∧ v.outcome = .error x) ∨
          v.reached.firstFailure? = none ∧
            ∃ t : Truth, v.outcome = .ok t.toValue ∧ ∀ g, Completes v.reached g → g.kleene = t) ∧
      (f.toExpr.Fits s 0 → leaves = f.map (·.eval s row)) := by
  intro leaves v
  have composed : leaves.isComposed = true := by
    cases f with
    | leaf x => cases composed
    | not f => rfl
    | join j f g => rfl
  refine ⟨?_, fun S h kept => (visit_reached kept h).1, fun S g h given => ?_, fun truths => ?_, placed_of_fits row⟩
  · rw [Expr.eval, evalAt_toExpr row (by rwa [Nat.zero_add]), outcome_run]
  · obtain ⟨completes, none, kept⟩ := visit_gives given h
    rcases leaves.visit_kleene e completes with ⟨x, first, _⟩ | ⟨_, w, ended, _, value⟩
    · cases none.symm.trans first
    · rw [← value composed]
      exact ⟨ended, kept⟩
  · obtain ⟨g, completes⟩ := exists_completion truths
    rcases leaves.visit_kleene e completes with failed | ⟨none, w, ended, _, value⟩
    · exact .inl failed
    · refine .inr ⟨none, g.kleene, value composed ▸ ended, fun g' completes' => ?_⟩
      rcases leaves.visit_kleene e completes' with ⟨x, first, _⟩ | ⟨_, w', ended', truth', _⟩
      · cases none.symm.trans first
      · obtain rfl := Except.ok.inj (ended.symm.trans ended')
        rw [value composed] at truth'
        exact truth'.unique (Value.hasTruth_toValue _)

/-- A disjunction that holds on its left side passes over a right side that would fail. -/
theorem connectives_follow_kleene_passing_over :
    let failing : Expr := .cast (.literal (.varchar "x")) .integer
    let f : Formula Expr := join .or (not (leaf (.literal (.integer 0)))) (leaf failing)
    f.isComposed = true ∧ (Scope.constants 1).Allows f.nesting ∧
      (f.toExpr.eval (.constants 1) []).outcome {} = (.ok (.boolean true), {}) := by
  intro failing f
  have within : (Scope.constants 1).Allows f.nesting := by
    intro limit limited
    cases limited
    decide
  exact ⟨rfl, within, (connectives_follow_kleene (.constants 1) [] f rfl within {}).1⟩

example :
    let failing : Expr := .cast (.literal (.varchar "x")) .integer
    ((Expr.binary .or (.literal (.integer 1)) failing).eval (.constants 1) [] |>.outcome {}).1.isOk = false := by
  decide +kernel

end Formula

end SqlEngine
