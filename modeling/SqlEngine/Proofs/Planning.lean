import SqlEngine.Condition
import SqlEngine.Proofs.MembershipVerdicts
import SqlEngine.Proofs.TypeSoundness

/-!
# Planning without calls

The condition of an expression without calls depends on the comparison and on whether disjunctions are
merged, and finding it leaves the engine as it is. Every test in it stands for the values of its
constants in the type of its operand.
-/

namespace SqlEngine

namespace Expr

/-- The type of an expression without calls. -/
def staticType (s : Scope) (x : Expr) : Option DataType := ((x.typeIn s).run {}).1

/-- The value of a constant in a type. -/
def constantIn (cmp : Value → Value → Ordering) (session : Nat) (type : DataType) (k : Expr) : Outcome :=
  k.valueAt cmp (.constants session) [] 0 >>= (·.convertOrFail type)

theorem run_typeIn (s : Scope) :
    ∀ (x : Expr) (_ : x.isCallFree = true) (e : Engine), (x.typeIn s).run e = (x.staticType s, e)
  | literal _, _, e | column .., _, e => rfl
  | not _, _, e | isNull .., _, e | inList .., _, e | cast .., _, e => rfl
  | negate x, free, e => run_typeIn s x free e
  | binary op l r, free, e => by
    obtain ⟨onLeft, onRight⟩ := Bool.and_eq_true_iff.1 free
    have arithmetic (e : Engine) : (arithmeticType (typeIn s l) (typeIn s r)).run e =
        (((arithmeticType (typeIn s l) (typeIn s r)).run {}).1, e) := by
      rw [run_arithmeticType, run_arithmeticType, run_typeIn s l onLeft e, run_typeIn s l onLeft {}]
      cases l.staticType s with
      | none => rfl
      | some t => simp only [run_typeIn s r onRight]
    cases op with
    | plus | minus | times => exact arithmetic e
    | _ => rfl

/-- A value of an expression without calls has the type of the expression. -/
theorem hasType_valueAt {cmp : Value → Value → Ordering} {s : Scope} {row : Row} {x : Expr}
    {t : DataType} {v : Value} {depth : Nat} (typed : s.schema.RowTyped row) (free : x.isCallFree = true)
    (type : x.staticType s = some t) (value : x.valueAt cmp s row depth = .ok v) : v.HasType t := by
  let e : Engine := { compare := cmp }
  have typing : (x.typeIn s).run e = (some t, e) := by rw [run_typeIn s x free, type]
  have evaluation : (x.evalAt s row depth).outcome e = (.ok v, e) := by
    rw [evalAt_computes cmp s row depth x free e rfl, value]
  exact typeIn_sound typed x depth typing (retains_writes.refl e) evaluation

end Expr

namespace Membership

/-- The test with a further constant `k`, which has the value `w`. -/
def absorb (cmp : Value → Value → Ordering) (m : Membership) (k : Expr) (w : Value) : Membership :=
  { m with constants := m.constants ++ [k] }.add cmp w

def gathered (cmp : Value → Value → Ordering) (session : Nat) (m : Membership) :
    List Expr → Except EngineError Membership
  | [] => .ok m
  | k :: rest => do gathered cmp session (m.add cmp (← k.constantIn cmp session m.leftType)) rest

def built (cmp : Value → Value → Ordering) (session : Nat) (left : Expr) (type : DataType)
    (negated : Bool) (constants : List Expr) : Except EngineError Membership :=
  if constants.length < 2 then .error (.tooFewConstants constants.length)
  else
    gathered cmp session { left := left, leftType := type, negated := negated, whenOperand := false,
                           constants := constants } constants

theorem constantValue_computes (cmp : Value → Value → Ordering) (session : Nat) (type : DataType)
    {k : Expr} (free : k.isCallFree = true) :
    Run.Computes cmp (constantValue session type k) (k.constantIn cmp session type) :=
  (k.evalAt_computes cmp (.constants session) [] 0 free).bind fun _ => .ofExcept _

theorem addConstants_computes (cmp : Value → Value → Ordering) (session : Nat) (m : Membership)
    (constants : List Expr) (free : Expr.allCallFree constants = true) :
    Run.Computes cmp (m.addConstants session constants) (m.gathered cmp session constants) := by
  induction constants generalizing m with
  | nil => exact .pure m
  | cons k rest ih =>
    obtain ⟨onFirst, onRest⟩ := Bool.and_eq_true_iff.1 free
    refine (constantValue_computes cmp session m.leftType onFirst).bind fun w => ?_
    intro e comparison
    subst comparison
    exact ih (m.add e.compare w) onRest e rfl

theorem build_computes (cmp : Value → Value → Ordering) (session : Nat) (left : Expr) (type : DataType)
    (negated : Bool) (constants : List Expr) (free : Expr.allCallFree constants = true) :
    Run.Computes cmp (build session left type negated false constants)
      (built cmp session left type negated constants) := by
  simp only [build, built]
  split
  · exact .throw _
  · exact addConstants_computes cmp session _ constants free

end Membership

namespace Condition

/-- The test and the expression of which a disjunction is made. -/
def pair? : Condition → Condition → Option (Membership × Expr)
  | member m, expr x | expr x, member m => some (m, x)
  | _, _ => none

/-- A disjunction of a test and an expression. -/
def mergedInto (cmp : Value → Value → Ordering) (session : Nat) (m : Membership) (x : Expr) :
    Except EngineError Condition :=
  match m.mergeable? x with
  | none => .ok (or (member m) (expr x))
  | some k => (k.constantIn cmp session m.leftType).map fun w => member (m.absorb cmp k w)

def joined (cmp : Value → Value → Ordering) (merging : Bool) (session : Nat) (l r : Condition) :
    Except EngineError Condition :=
  match merging, pair? l r with
  | true, some (m, x) => mergedInto cmp session m x
  | _, _ => .ok (or l r)

/-- What a negation becomes of what its operand became. -/
def opposed (x : Expr) (cond : Condition) : Condition :=
  match cond.member?.bind (·.negate?) with
  | some m => member m
  | none => expr (.not x)

/-- The condition of an expression without calls, or why it has none. -/
def plan (cmp : Value → Value → Ordering) (merging : Bool) (s : Scope) :
    Expr → Except EngineError Condition
  | .binary .and l r => do
    let l ← plan cmp merging s l
    return and l (← plan cmp merging s r)
  | .binary .or l r => do
    let l ← plan cmp merging s l
    joined cmp merging s.session l (← plan cmp merging s r)
  | .not x => (plan cmp merging s x).map (opposed x)
  | .inList left constants negated =>
    if 2 ≤ constants.length ∧ Expr.allConstant constants then
      match left.staticType s with
      | some type => (Membership.built cmp s.session left type negated constants).map member
      | none => .ok (expr (.inList left constants negated))
    else .ok (expr (.inList left constants negated))
  | x => .ok (expr x)

/-- The value of a condition without calls, or why it has none. -/
def valueIn (cmp : Value → Value → Ordering) (s : Scope) (row : Row) : Condition → Outcome
  | member m => (m.left.valueAt cmp s row 0).map (m.evaluate cmp)
  | and l r => Outcome.conjoin (l.valueIn cmp s row) (r.valueIn cmp s row)
  | or l r => Outcome.disjoin (l.valueIn cmp s row) (r.valueIn cmp s row)
  | expr x => x.valueAt cmp s row 0

def isCallFree : Condition → Bool
  | member m => m.left.isCallFree
  | and l r | or l r => l.isCallFree && r.isCallFree
  | expr x => x.isCallFree

theorem evaluate_computes (cmp : Value → Value → Ordering) (s : Scope) (row : Row) :
    ∀ cond : Condition, cond.isCallFree = true →
      Run.Computes cmp (cond.evaluate s row) (cond.valueIn cmp s row)
  | member m, free => by
    have left := m.left.evalAt_computes cmp s row 0 free
    intro e comparison
    subst comparison
    change (m.left.evalAt s row 0 >>= fun v => _).outcome e =
      ((m.left.valueAt e.compare s row 0).map (m.evaluate e.compare), e)
    rw [Run.outcome_bind, left e rfl]
    cases m.left.valueAt e.compare s row 0 <;> rfl
  | and l r, free => by
    obtain ⟨onLeft, onRight⟩ := Bool.and_eq_true_iff.1 free
    exact .conjoin (evaluate_computes cmp s row l onLeft) (evaluate_computes cmp s row r onRight)
  | or l r, free => by
    obtain ⟨onLeft, onRight⟩ := Bool.and_eq_true_iff.1 free
    exact .disjoin (evaluate_computes cmp s row l onLeft) (evaluate_computes cmp s row r onRight)
  | expr x, free => x.evalAt_computes cmp s row 0 free


/-- What decides whether a test takes in an expression. -/
theorem mergeable?_eq_some {m : Membership} {x k : Expr} :
    m.mergeable? x = some k ↔
      (m.negated = false ∧ m.whenOperand = false) ∧ x.ifEquals? m.left = some k ∧
        k.isConstant = true := by
  simp only [Membership.mergeable?]
  by_cases barred : (m.negated || m.whenOperand) = true
  · rw [if_pos barred]
    refine ⟨nofun, ?_⟩
    rintro ⟨⟨plain, alone⟩, _⟩
    rw [plain, alone] at barred
    cases barred
  · rw [if_neg barred, Option.filter_eq_some_iff]
    rw [Bool.not_eq_true, Bool.or_eq_false_iff] at barred
    exact ⟨fun h => ⟨barred, h⟩, fun h => h.2⟩

theorem mergeInto_computes (cmp : Value → Value → Ordering) (session : Nat) (m : Membership) (x : Expr) :
    Run.Computes cmp (mergeInto session m x) (mergedInto cmp session m x) := by
  simp only [mergeInto, mergedInto, Membership.merge_eq]
  cases merges : m.mergeable? x with
  | none => exact .pure _
  | some k =>
    obtain ⟨_, _, constant⟩ := mergeable?_eq_some.1 merges
    have value := Membership.constantValue_computes cmp session m.leftType
      (k.isCallFree_of_isConstant constant)
    intro e comparison
    subst comparison
    simp only []
    rw [Run.outcome_bind, Run.outcome_bind, value e rfl]
    cases k.constantIn e.compare session m.leftType <;> rfl

theorem outcome_disjunction (session : Nat) (l r : Condition) (e : Engine) :
    (disjunction session l r).outcome e =
      (joined e.compare e.settings.optimizeOr session l r, e) := by
  simp only [disjunction, joined]
  rw [Run.outcome_bind, Run.outcome_get]
  simp only []
  cases e.settings.optimizeOr with
  | false => rfl
  | true =>
    rw [if_pos rfl]
    cases l <;> cases r <;> first | exact mergeInto_computes _ session _ _ e rfl | rfl

/-- Finding the condition of an expression without calls gives what was planned. -/
theorem outcome_ofExpr (s : Scope) (e : Engine) :
    ∀ x : Expr, x.isCallFree = true →
      (ofExpr s x).outcome e = (plan e.compare e.settings.optimizeOr s x, e)
  | .not x, free => by
    rw [ofExpr, Run.outcome_bind, outcome_ofExpr s e x free, plan]
    cases plan e.compare e.settings.optimizeOr s x with
    | error err => rfl
    | ok cond =>
      simp only [Except.map, opposed]
      cases cond.member?.bind (·.negate?) <;> rfl
  | .inList left constants negated, free => by
    obtain ⟨onLeft, onItems⟩ := Bool.and_eq_true_iff.1 free
    rw [ofExpr, plan]
    by_cases listed : 2 ≤ constants.length ∧ Expr.allConstant constants = true
    · rw [if_pos listed, if_pos listed, ofList, Run.outcome_bind]
      have typing : (liftM (left.typeIn s) : Run (Option DataType)).outcome e =
          (.ok (left.staticType s), e) := by
        change (Except.ok ((left.typeIn s).run e).1, ((left.typeIn s).run e).2) = _
        rw [left.run_typeIn s onLeft e]
      rw [typing]
      cases left.staticType s with
      | none => rfl
      | some type =>
        have build := Membership.build_computes e.compare s.session left type negated constants
          onItems e rfl
        simp only []
        rw [Run.outcome_bind, build]
        cases Membership.built e.compare s.session left type negated constants <;> rfl
    · rw [if_neg listed, if_neg listed]
      rfl
  | .binary op l r, free => by
    obtain ⟨onLeft, onRight⟩ := Bool.and_eq_true_iff.1 free
    have left := outcome_ofExpr s e l onLeft
    have right := outcome_ofExpr s e r onRight
    cases op with
    | and =>
      rw [ofExpr, Run.outcome_bind, left, plan]
      cases plan e.compare e.settings.optimizeOr s l with
      | error err => rfl
      | ok L =>
        simp only []
        rw [Run.outcome_bind, right]
        cases plan e.compare e.settings.optimizeOr s r <;> rfl
    | or =>
      rw [ofExpr, Run.outcome_bind, left, plan]
      cases plan e.compare e.settings.optimizeOr s l with
      | error err => rfl
      | ok L =>
        simp only []
        rw [Run.outcome_bind, right]
        cases plan e.compare e.settings.optimizeOr s r with
        | error err => rfl
        | ok R => exact outcome_disjunction s.session L R e
    | _ => rfl
  | .literal _, _ | .column .., _ | .negate _, _ | .isNull .., _ | .cast .., _ => rfl

end Condition

end SqlEngine
