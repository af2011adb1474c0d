import Mathlib.Logic.Function.Iterate
import SqlEngine.Proofs.PureEvaluation

/-!
# The depth limit

Evaluation ends with an error where it comes below the limit. Anything else that it gives is what evaluation without
a limit gives, and an expression none of whose paths leads below the limit is evaluated as without one, calls
included.
-/

namespace SqlEngine

namespace Scope

variable {s : Scope} {depth : Nat}

def Allows (s : Scope) (depth : Nat) : Prop := ∀ limit, s.depthLimit = some limit → depth ≤ limit

theorem Allows.mono {depth' : Nat} (allowed : s.Allows depth) (h : depth' ≤ depth) : s.Allows depth' :=
  fun limit limited => Nat.le_trans h (allowed limit limited)

theorem atDepth_of_allows {α : Type} (allowed : s.Allows depth) (r : Run α) : s.atDepth depth r = r := by
  unfold atDepth
  cases limited : s.depthLimit with
  | none => rfl
  | some limit => exact if_neg (Nat.not_lt_of_le (allowed limit limited))

end Scope

namespace Expr

/-- The expressions that an expression is made of. -/
def operands : Expr → List Expr
  | literal _ | column .. => []
  | binary _ l r => [l, r]
  | not x | negate x | isNull x _ | cast x _ => [x]
  | inList x values _ => x :: values
  | call _ args => args

/-- A path of so many edges leads down from the root. -/
inductive HasPath : Expr → Nat → Prop where
  | root (x : Expr) : HasPath x 0
  | down {x y : Expr} {n : Nat} : y ∈ x.operands → HasPath y n → HasPath x (n + 1)

/-- With its root at this depth, the expression has no path below the limit. -/
def Fits (s : Scope) (depth : Nat) (x : Expr) : Prop := ∀ n, x.HasPath n → s.Allows (depth + n)

variable {s : Scope} {depth : Nat} {x y : Expr}

theorem Fits.here (fits : x.Fits s depth) : s.Allows depth := fits 0 (.root x)

theorem Fits.operand (fits : x.Fits s depth) (h : y ∈ x.operands) : y.Fits s (depth + 1) := by
  intro n path
  have below := fits (n + 1) (.down h path)
  rwa [Nat.add_comm n 1, ← Nat.add_assoc] at below

mutual

/-- An expression that fits is evaluated as without a limit, and then its depth does not matter. -/
theorem evalAt_of_fits (row : Row) {s : Scope} {depth : Nat} (depth' : Nat) :
    ∀ x : Expr, x.Fits s depth → x.evalAt s row depth = x.evalAt s.unlimited row depth'
  | literal v, fits => Scope.atDepth_of_allows fits.here _
  | column table name, fits => Scope.atDepth_of_allows fits.here _
  | binary op l r, fits => by
    have onLeft := evalAt_of_fits row (depth' + 1) l (fits.operand List.mem_cons_self)
    have onRight := evalAt_of_fits row (depth' + 1) r (fits.operand (.tail l List.mem_cons_self))
    rw [evalAt, Scope.atDepth_of_allows fits.here, onLeft, onRight]
    rfl
  | not x, fits => by
    rw [evalAt, Scope.atDepth_of_allows fits.here, evalAt_of_fits row (depth' + 1) x (fits.operand List.mem_cons_self)]
    rfl
  | negate x, fits => by
    rw [evalAt, Scope.atDepth_of_allows fits.here, evalAt_of_fits row (depth' + 1) x (fits.operand List.mem_cons_self)]
    rfl
  | isNull x _, fits => by
    rw [evalAt, Scope.atDepth_of_allows fits.here, evalAt_of_fits row (depth' + 1) x (fits.operand List.mem_cons_self)]
    rfl
  | inList x values _, fits => by
    have onLeft := evalAt_of_fits row (depth' + 1) x (fits.operand List.mem_cons_self)
    have onItems := evalEach_of_fits row (depth' + 1) values fun y h => fits.operand (.tail x h)
    rw [evalAt, Scope.atDepth_of_allows fits.here, onLeft, onItems]
    rfl
  | cast x _, fits => by
    rw [evalAt, Scope.atDepth_of_allows fits.here, evalAt_of_fits row (depth' + 1) x (fits.operand List.mem_cons_self)]
    rfl
  | call _ args, fits => by
    rw [evalAt, Scope.atDepth_of_allows fits.here, evalEach_of_fits row (depth' + 1) args fun y h => fits.operand h]
    rfl

theorem evalEach_of_fits (row : Row) {s : Scope} {depth : Nat} (depth' : Nat) :
    ∀ xs : List Expr, (∀ x ∈ xs, x.Fits s depth) → evalEach s row depth xs = evalEach s.unlimited row depth' xs
  | [], _ => rfl
  | x :: rest, fits => by
    have onFirst := evalAt_of_fits row depth' x (fits x List.mem_cons_self)
    have onRest := evalEach_of_fits row depth' rest fun y h => fits y (.tail x h)
    rw [evalEach, evalEach, onFirst, onRest]

end

end Expr

/-- The same, unless the limit has ended the first. -/
def SameUnlessEnded (x y : Outcome) : Prop := TooDeep x ∨ x = y

theorem SameUnlessEnded.congruence : Outcome.Congruence SameUnlessEnded where
  refl _ := .inr rfl
  bind := by
    rintro x y f g (⟨depth, limit, rfl⟩ | rfl) rest
    · exact .inl ⟨depth, limit, rfl⟩
    · cases x with
      | error x => exact .inr rfl
      | ok v => exact rest v

/-- Only the limit ends an evaluation as too deep. -/
theorem not_tooDeep_congruence : Outcome.Congruence fun x _ => ¬ TooDeep x where
  refl calm := calm
  bind := not_tooDeep_bind

namespace Expr

variable {cmp : Value → Value → Ordering} {s s' : Scope} {depth depth' : Nat}

theorem valueAt_sameUnlessEnded (cmp : Value → Value → Ordering) (row : Row) (x : Expr)
    (laxer : s.LaxerAt depth s' depth') (columns : ∀ t n, s.column row t n = s'.column row t n) :
    SameUnlessEnded (x.valueAt cmp s row depth) (x.valueAt cmp s' row depth') :=
  valueAt_related SameUnlessEnded.congruence cmp (.of_laxer .inl laxer) x
    (.inr fun t n => .inr (columns t n))

theorem not_tooDeep_unlimited (cmp : Value → Value → Ordering) (s : Scope) (row : Row) (depth : Nat)
    (x : Expr) :
    ¬ TooDeep (x.valueAt cmp s.unlimited row depth) := by
  have keep : Outcome.LimitsKeep (fun x _ => ¬ TooDeep x) s.unlimited depth s.unlimited depth :=
    fun _ _ _ inside => inside
  exact @valueAt_related _ _ _ row row not_tooDeep_congruence cmp _ _ keep x
    (.inr fun t n => s.unlimited.not_tooDeep_column row t n)

end Expr

/-- How the evaluation of an expression without calls depends on the limit and on the depth at which it starts:
not at all, but for the limit's own error. Without a limit there is no such error. -/
theorem depth_limit_transparent (s : Scope) (row : Row) (x : Expr) (free : x.isCallFree = true) (e : Engine) :
    (∀ depth, ¬ TooDeep ((x.evalAt s row depth).outcome e).1 →
        (x.evalAt s row depth).outcome e = (x.eval s.unlimited row).outcome e) ∧
      (∀ depth, x.Fits s depth → ¬ TooDeep ((x.evalAt s row depth).outcome e).1) ∧
      (∀ depth depth', depth' ≤ depth → ¬ TooDeep ((x.evalAt s row depth).outcome e).1 →
        (x.evalAt s row depth').outcome e = (x.evalAt s row depth).outcome e) ∧
      ¬ TooDeep ((x.eval s.unlimited row).outcome e).1 := by
  have computes (s : Scope) (depth : Nat) :
      (x.evalAt s row depth).outcome e = (x.valueAt e.compare s row depth, e) :=
    x.evalAt_computes e.compare s row depth free e rfl
  have never : ¬ TooDeep ((x.eval s.unlimited row).outcome e).1 := by
    rw [Expr.eval, computes]
    exact x.not_tooDeep_unlimited e.compare s row 0
  refine ⟨fun depth reached => ?_, fun depth fits => ?_, fun depth depth' le reached => ?_, never⟩
  · rw [computes] at reached
    rw [Expr.eval, computes, computes]
    have laxer := s.laxerAt_unlimited s depth 0
    rcases x.valueAt_sameUnlessEnded e.compare row laxer fun _ _ => rfl with ended | same
    · exact absurd ended reached
    · rw [same]
  · rw [x.evalAt_of_fits row 0 fits]
    exact never
  · rw [computes] at reached
    rw [computes, computes]
    have laxer := s.laxerAt_shallower le
    rcases x.valueAt_sameUnlessEnded e.compare row laxer fun _ _ => rfl with ended | same
    · exact absurd ended reached
    · rw [same]

/-- A right side far below the limit that a disjunction does not look at. -/
theorem depth_limit_transparent_unreached :
    (.binary .or (.literal (.boolean true)) (Expr.not^[300] (.literal .null)) : Expr).isCallFree = true ∧
      ((Expr.binary .or (.literal (.boolean true)) (Expr.not^[300] (.literal .null))).eval
          (Scope.constants 1).unlimited []).outcome {} = (.ok (.boolean true), {}) := by
  have reached : ((Expr.binary .or (.literal (.boolean true)) (Expr.not^[300] (.literal .null))).eval
      (Scope.constants 1) []).outcome {} = (.ok (.boolean true), {}) := rfl
  refine ⟨rfl, ?_⟩
  have same := (depth_limit_transparent (.constants 1) []
    (.binary .or (.literal (.boolean true)) (Expr.not^[300] (.literal .null))) rfl {}).1 0 (by
      rw [← Expr.eval, reached]
      exact not_tooDeep_ok _)
  rw [← same]
  exact reached

end SqlEngine
