import SqlEngine.Condition
import SqlEngine.Proofs.TypeSoundness

/-!
# Effects of conditions

Planning a condition types operands and evaluates constants, and a condition is evaluated by evaluating
its parts. So both stay within every relation that calls stay within, and what evaluation inherits from
calls the evaluation of conditions inherits too.
-/

namespace SqlEngine

namespace Compositional

variable {P : ⦃α : Type⦄ → Run α → Prop} {s : Scope}

theorem evaluateRow (h : Compositional P) (call : ∀ name args, (∀ r ∈ args, P r) →
    P (Run.call s.caller name args)) (row : Row) (m : Membership) : P (m.evaluateRow s row) := by
  refine h.andThen (h.evalAt call row 0 m.left) fun v => h.get (fun e e' same => ?_) fun e => h.pure _
  rw [Engine.compare_of_catalog same]

/-- Conditions are evaluated by evaluating their parts. -/
theorem evaluate (h : Compositional P) (call : ∀ name args, (∀ r ∈ args, P r) →
    P (Run.call s.caller name args)) (row : Row) (cond : Condition) : P (cond.evaluate s row) := by
  induction cond with
  | member m => exact h.evaluateRow call row m
  | and l r onLeft onRight => exact h.conjoin onLeft onRight
  | or l r onLeft onRight => exact h.disjoin onLeft onRight
  | expr x => exact h.evalAt call row 0 x

end Compositional

variable {R : Engine → Engine → Prop}

namespace Membership

theorem relates_constantValue {session : Nat} (h : CallRelation session R) (type : DataType) (k : Expr) :
    (constantValue session type k).Relates R :=
  h.bind (h.evalAt (s := .constants session) [] 0 k) fun _ => h.ofExcept _

theorem relates_addConstants {session : Nat} (h : CallRelation session R) (ks : List Expr)
    (m : Membership) : (m.addConstants session ks).Relates R := by
  induction ks generalizing m with
  | nil => exact h.pure m
  | cons k rest ih =>
    exact h.bind (relates_constantValue h m.leftType k) fun v => h.bind h.get fun _ => ih _

theorem relates_build {session : Nat} (h : CallRelation session R) (left : Expr) (type : DataType)
    (negated whenOperand : Bool) (ks : List Expr) :
    (build session left type negated whenOperand ks).Relates R := by
  unfold build
  split
  · exact h.throw _
  · exact relates_addConstants h ks _

theorem relates_merge {session : Nat} (h : CallRelation session R) (m : Membership) (e : Expr) :
    (m.merge session e).Relates R := by
  rw [merge_eq]
  split
  · exact h.pure none
  · exact h.bind (relates_constantValue h _ _) fun v => h.bind h.get fun _ => h.pure _

end Membership

namespace Condition

variable {s : Scope}

theorem relates_evaluate (h : CallRelation s.session R) (row : Row) (cond : Condition) :
    (cond.evaluate s row).Relates R :=
  h.compositional.evaluate (h.call (k := s.caller)) row cond

theorem relates_mergeInto {session : Nat} (h : CallRelation session R) (m : Membership) (e : Expr) :
    (mergeInto session m e).Relates R := by
  refine h.bind (m.relates_merge h e) fun merged => ?_
  split
  · exact h.pure _
  · exact h.pure _

theorem relates_disjunction {session : Nat} (h : CallRelation session R) (l r : Condition) :
    (disjunction session l r).Relates R := by
  refine h.bind h.get fun e => ?_
  split
  · split
    · exact relates_mergeInto h _ _
    · exact relates_mergeInto h _ _
    · exact h.pure _
  · exact h.pure _

theorem relates_ofList (h : CallRelation s.session R) (left : Expr) (ks : List Expr) (negated : Bool) :
    (ofList s left ks negated).Relates R := by
  have typing : (liftM (left.typeIn s) : Run (Option DataType)).Relates R :=
    fun e => Expr.relates_typeIn h left e
  refine h.bind typing fun type => ?_
  split
  · exact h.bind (Membership.relates_build h left _ negated false ks) fun _ => h.pure _
  · exact h.pure _

/-- Planning types operands and evaluates constants, and does nothing else. -/
theorem relates_ofExpr (h : CallRelation s.session R) : ∀ x : Expr, (ofExpr s x).Relates R := by
  intro x
  fun_induction ofExpr s x with
  | case1 l r onLeft onRight => exact h.bind onLeft fun _ => h.bind onRight fun _ => h.pure _
  | case2 l r onLeft onRight =>
    exact h.bind onLeft fun a => h.bind onRight fun b => relates_disjunction h a b
  | case3 e inside =>
    refine h.bind inside fun cond => ?_
    split
    · exact h.pure _
    · exact h.pure _
  | case4 left ks negated listed => exact relates_ofList h left ks negated
  | case5 left ks negated => exact h.pure _
  | case6 => exact h.pure _

end Condition

end SqlEngine
