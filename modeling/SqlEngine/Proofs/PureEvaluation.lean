import Mathlib.Data.List.Forall2
import SqlEngine.Eval.Typing
import SqlEngine.Proofs.Outcomes

/-!
# Evaluation without calls

An expression without calls has a value that depends on the row and the comparison alone, and taking
it leaves the engine as it is. The depth of an expression only decides whether there is a value: where
two evaluations both have one, it is the same.
-/

namespace SqlEngine

abbrev Outcome := Except EngineError Value

namespace Outcome

def atDepth (s : Scope) (depth : Nat) (x : Outcome) : Outcome :=
  match s.depthLimit with
  | some limit => if limit < depth then .error (.tooDeep depth limit) else x
  | none => x

variable (cmp : Value → Value → Ordering)

def conjoin (left right : Outcome) : Outcome := do
  let l ← left
  if l.same (.boolean false) then return l else l.conjoin (← right)

def disjoin (left right : Outcome) : Outcome := do
  let l ← left
  if l.same (.boolean true) then return l else l.disjoin (← right)

def binary (op : BinaryOp) (left right : Outcome) : Outcome :=
  match op with
  | .and => conjoin left right
  | .or => disjoin left right
  | op => do
    let l ← left
    let r ← right
    if op.isComparison then Value.compareBy cmp op l r
    else if op = .concat then return l.concatenated r
    else Value.arithmetic op l r

def search (negated : Bool) (v : Value) (sawNull : Bool) : List Outcome → Outcome
  | [] => return if sawNull then .null else .boolean negated
  | item :: rest => do
    let w ← item
    if w.isNull then search negated v true rest
    else if (← Value.compareBy cmp .equal v w).same (.boolean true) then return .boolean (!negated)
    else search negated v sawNull rest

def inList (negated : Bool) (left : Outcome) (items : List Outcome) : Outcome := do
  let v ← left
  if v.isNull then return .null else search cmp negated v false items

end Outcome

namespace Expr

mutual

def isCallFree : Expr → Bool
  | literal _ | column .. => true
  | call .. => false
  | binary _ l r => l.isCallFree && r.isCallFree
  | not e | negate e | isNull e _ | cast e _ => e.isCallFree
  | inList e values _ => e.isCallFree && allCallFree values

def allCallFree : List Expr → Bool
  | [] => true
  | e :: r => e.isCallFree && allCallFree r

end

mutual

/-- The value of an expression without calls, or why it has none. -/
def valueAt (cmp : Value → Value → Ordering) (s : Scope) (row : Row) (depth : Nat) : Expr → Outcome
  | literal v => Outcome.atDepth s depth (.ok v)
  | column table name => Outcome.atDepth s depth (s.column row table name)
  | binary op l r =>
    Outcome.atDepth s depth (Outcome.binary cmp op (valueAt cmp s row (depth + 1) l)
      (valueAt cmp s row (depth + 1) r))
  | not e => Outcome.atDepth s depth (valueAt cmp s row (depth + 1) e >>= (·.logicalNot))
  | negate e => Outcome.atDepth s depth (valueAt cmp s row (depth + 1) e >>= (·.negated))
  | isNull e negated =>
    Outcome.atDepth s depth
      (valueAt cmp s row (depth + 1) e >>= fun v => .ok (.boolean (v.isNull != negated)))
  | inList e values negated =>
    Outcome.atDepth s depth (Outcome.inList cmp negated (valueAt cmp s row (depth + 1) e)
      (valuesAt cmp s row (depth + 1) values))
  | cast e type =>
    Outcome.atDepth s depth (valueAt cmp s row (depth + 1) e >>= (·.convertOrFail type))
  | call name _ => .error (.functionNotFound name)

def valuesAt (cmp : Value → Value → Ordering) (s : Scope) (row : Row) (depth : Nat) :
    List Expr → List Outcome
  | [] => []
  | e :: r => valueAt cmp s row depth e :: valuesAt cmp s row depth r

end

end Expr

section Computes

variable {α β : Type} {cmp : Value → Value → Ordering}

/-- Under this comparison the run has this outcome and leaves the engine as it is. -/
def Run.Computes (cmp : Value → Value → Ordering) (r : Run α) (x : Except EngineError α) : Prop :=
  ∀ e : Engine, e.compare = cmp → r.outcome e = (x, e)

namespace Run.Computes

theorem ofExcept (x : Except EngineError α) : Computes cmp (Run.ofExcept x) x :=
  fun _ _ => rfl

theorem pure (a : α) : Computes cmp (Pure.pure a) (.ok a) :=
  fun _ _ => rfl

theorem throw (x : EngineError) : Computes cmp (MonadExcept.throw x : Run α) (.error x) :=
  fun _ _ => rfl

theorem bind {r : Run α} {x : Except EngineError α} {f : α → Run β}
    {g : α → Except EngineError β} (first : Computes cmp r x) (rest : ∀ a, Computes cmp (f a) (g a)) :
    Computes cmp (r >>= f) (x >>= g) := by
  intro e comparison
  rw [Run.outcome_bind, first e comparison]
  cases x with
  | error x => rfl
  | ok a => exact rest a e comparison

theorem compare (op : BinaryOp) (l r : Value) :
    Computes cmp (Run.compare op l r) (Value.compareBy cmp op l r) := by
  intro e comparison
  subst comparison
  rfl

variable {left right : Run Value} {x y : Outcome}

theorem conjoin (onLeft : Computes cmp left x) (onRight : Computes cmp right y) :
    Computes cmp (Run.conjoin left right) (Outcome.conjoin x y) := by
  refine onLeft.bind fun l => ?_
  split
  · exact pure l
  · exact onRight.bind fun r => ofExcept _

theorem disjoin (onLeft : Computes cmp left x) (onRight : Computes cmp right y) :
    Computes cmp (Run.disjoin left right) (Outcome.disjoin x y) := by
  refine onLeft.bind fun l => ?_
  split
  · exact pure l
  · exact onRight.bind fun r => ofExcept _

theorem operands {f : Value → Value → Run Value} {g : Value → Value → Outcome}
    (onLeft : Computes cmp left x) (onRight : Computes cmp right y)
    (rest : ∀ l r, Computes cmp (f l r) (g l r)) :
    Computes cmp (do let l ← left; let r ← right; f l r) (do let l ← x; let r ← y; g l r) :=
  onLeft.bind fun l => onRight.bind fun r => rest l r

theorem binary (op : BinaryOp) (onLeft : Computes cmp left x) (onRight : Computes cmp right y) :
    Computes cmp (Run.binary op left right) (Outcome.binary cmp op x y) := by
  cases op with
  | and => exact onLeft.conjoin onRight
  | or => exact onLeft.disjoin onRight
  | concat => exact onLeft.operands onRight fun l r => pure _
  | plus | minus | times => exact onLeft.operands onRight fun l r => ofExcept _
  | _ => exact onLeft.operands onRight fun l r => compare _ l r

theorem search (negated : Bool) (v : Value) {items : List (Run Value)} {outcomes : List Outcome}
    (each : List.Forall₂ (Computes cmp) items outcomes) (sawNull : Bool) :
    Computes cmp (Run.search negated v sawNull items)
      (Outcome.search cmp negated v sawNull outcomes) := by
  induction each generalizing sawNull with
  | nil => exact pure _
  | cons item _ ih =>
    refine item.bind fun w => ?_
    split
    · exact ih true
    · refine (compare .equal v w).bind fun u => ?_
      split
      · exact pure _
      · exact ih sawNull

theorem inList (negated : Bool) {items : List (Run Value)} {outcomes : List Outcome}
    (onLeft : Computes cmp left x) (each : List.Forall₂ (Computes cmp) items outcomes) :
    Computes cmp (Run.inList negated left items) (Outcome.inList cmp negated x outcomes) := by
  refine onLeft.bind fun v => ?_
  split
  · exact pure _
  · exact search negated v each false

theorem atDepth {s : Scope} {depth : Nat} {r : Run Value} (inside : Computes cmp r x) :
    Computes cmp (s.atDepth depth r) (Outcome.atDepth s depth x) := by
  simp only [Scope.atDepth, Outcome.atDepth]
  cases s.depthLimit with
  | none => exact inside
  | some limit =>
    by_cases deep : limit < depth
    · simp only [if_pos deep]
      exact throw _
    · simp only [if_neg deep]
      exact inside

end Run.Computes

end Computes

namespace Expr

mutual

/-- Evaluation of an expression without calls computes its value. -/
theorem evalAt_computes (cmp : Value → Value → Ordering) (s : Scope) (row : Row) (depth : Nat) :
    ∀ x : Expr, x.isCallFree = true →
      Run.Computes cmp (x.evalAt s row depth) (x.valueAt cmp s row depth)
  | literal v, _ => .atDepth (.pure v)
  | column table name, _ => .atDepth (.ofExcept _)
  | binary op l r, free => by
    obtain ⟨onLeft, onRight⟩ := Bool.and_eq_true_iff.1 free
    exact .atDepth (.binary op (evalAt_computes cmp s row (depth + 1) l onLeft)
      (evalAt_computes cmp s row (depth + 1) r onRight))
  | not x, free => .atDepth ((evalAt_computes cmp s row (depth + 1) x free).bind fun _ => .ofExcept _)
  | negate x, free =>
    .atDepth ((evalAt_computes cmp s row (depth + 1) x free).bind fun _ => .ofExcept _)
  | isNull x _, free => .atDepth ((evalAt_computes cmp s row (depth + 1) x free).bind fun _ => .pure _)
  | inList x values negated, free => by
    obtain ⟨onLeft, onItems⟩ := Bool.and_eq_true_iff.1 free
    exact .atDepth (.inList negated (evalAt_computes cmp s row (depth + 1) x onLeft)
      (evalEach_computes cmp s row (depth + 1) values onItems))
  | cast x _, free =>
    .atDepth ((evalAt_computes cmp s row (depth + 1) x free).bind fun _ => .ofExcept _)
  | call _ _, free => nomatch free

theorem evalEach_computes (cmp : Value → Value → Ordering) (s : Scope) (row : Row) (depth : Nat) :
    ∀ values : List Expr, allCallFree values = true →
      List.Forall₂ (Run.Computes cmp) (evalEach s row depth values) (valuesAt cmp s row depth values)
  | [], _ => .nil
  | x :: rest, free => by
    obtain ⟨onFirst, onRest⟩ := Bool.and_eq_true_iff.1 free
    exact .cons (evalAt_computes cmp s row depth x onFirst)
      (evalEach_computes cmp s row depth rest onRest)

end

end Expr

section TooDeep

variable {α β : Type}

/-- The depth limit has ended the evaluation. -/
def TooDeep (x : Except EngineError α) : Prop := ∃ depth limit, x = .error (.tooDeep depth limit)

theorem not_tooDeep_ok (a : α) : ¬ TooDeep (.ok a : Except EngineError α) := nofun

theorem not_tooDeep_bind {x : Except EngineError α} {f : α → Except EngineError β} (first : ¬ TooDeep x)
    (rest : ∀ a, ¬ TooDeep (f a)) : ¬ TooDeep (x >>= f) := by
  rintro ⟨depth, limit, failed⟩
  rcases bind_eq_error.1 failed with failed | ⟨a, _, failed⟩
  · exact first ⟨depth, limit, failed⟩
  · exact rest a ⟨depth, limit, failed⟩

theorem Truth.not_tooDeep_operand (op : String) (v : Value) : ¬ TooDeep (operand op v) := by
  unfold operand
  split <;> nofun

namespace Value

theorem not_tooDeep_conjoin (l r : Value) : ¬ TooDeep (l.conjoin r) :=
  not_tooDeep_bind (Truth.not_tooDeep_operand _ l) fun _ =>
    not_tooDeep_bind (Truth.not_tooDeep_operand _ r) fun _ => nofun

theorem not_tooDeep_disjoin (l r : Value) : ¬ TooDeep (l.disjoin r) :=
  not_tooDeep_bind (Truth.not_tooDeep_operand _ l) fun _ =>
    not_tooDeep_bind (Truth.not_tooDeep_operand _ r) fun _ => nofun

theorem not_tooDeep_logicalNot (v : Value) : ¬ TooDeep v.logicalNot :=
  not_tooDeep_bind (Truth.not_tooDeep_operand _ v) fun _ => nofun

theorem not_tooDeep_convertOrFail (v : Value) (t : DataType) : ¬ TooDeep (v.convertOrFail t) := by
  rintro ⟨depth, limit, failed⟩
  unfold convertOrFail at failed
  cases converted : v.convert t with
  | ok w => rw [converted] at failed; cases failed
  | error x => rw [converted] at failed; cases failed

theorem not_tooDeep_negated (v : Value) : ¬ TooDeep v.negated := by
  cases v <;> simp only [negated] <;> try split
  all_goals nofun

theorem not_tooDeep_orElseThrow {x : EngineError} (other : ∀ depth limit, x ≠ .tooDeep depth limit) (o : Option α) :
    ¬ TooDeep (orElseThrow x o) := by
  rintro ⟨depth, limit, failed⟩
  cases o with
  | some a => cases failed
  | none => exact other depth limit (Except.error.inj failed)

theorem not_tooDeep_arithmetic (op : BinaryOp) (l r : Value) : ¬ TooDeep (arithmetic op l r) := by
  have mismatched {α : Type} (o : Option α) : ¬ TooDeep (orElseThrow (mismatch op l r) o) :=
    not_tooDeep_orElseThrow (fun _ _ same => by cases same) o
  have overflown {α : Type} (o : Option α) : ¬ TooDeep (orElseThrow (arithmeticOverflow op l r) o) :=
    not_tooDeep_orElseThrow (fun _ _ same => by cases same) o
  have operands {α β : Type} (compute : Option α) (a b : Option β) {f : α → β → β → Except EngineError Value}
      (rest : ∀ g a b, ¬ TooDeep (f g a b)) : ¬ TooDeep (do
        let g ← orElseThrow (mismatch op l r) compute
        let a ← orElseThrow (mismatch op l r) a
        let b ← orElseThrow (mismatch op l r) b
        f g a b) :=
    not_tooDeep_bind (mismatched _) fun g => not_tooDeep_bind (mismatched _) fun a =>
      not_tooDeep_bind (mismatched _) fun b => rest g a b
  unfold arithmetic
  split
  · nofun
  split
  · exact operands _ _ _ fun _ _ _ => overflown _
  split
  · exact operands _ _ _ fun _ _ _ => not_tooDeep_ok _
  · exact operands _ _ _ fun _ _ _ => not_tooDeep_bind (overflown _) fun _ => not_tooDeep_ok _

theorem not_tooDeep_compareBy (cmp : Value → Value → Ordering) (op : BinaryOp) (l r : Value) :
    ¬ TooDeep (compareBy cmp op l r) := by
  have ordered : ¬ TooDeep (orderBy cmp l r) := by
    unfold orderBy
    split
    · exact not_tooDeep_bind (not_tooDeep_convertOrFail _ _) fun _ => not_tooDeep_ok _
    · exact not_tooDeep_bind (not_tooDeep_convertOrFail _ _) fun _ => not_tooDeep_ok _
    · nofun
  unfold compareBy
  split
  · nofun
  · refine not_tooDeep_bind ordered fun o => ?_
    split <;> nofun

/-- What the operators but the connectives do with two values. -/
theorem not_tooDeep_combined (cmp : Value → Value → Ordering) (op : BinaryOp) (l r : Value) :
    ¬ TooDeep (if op.isComparison then compareBy cmp op l r
      else if op = .concat then pure (l.concatenated r)
      else arithmetic op l r) := by
  split
  · exact not_tooDeep_compareBy cmp op l r
  · split
    · exact not_tooDeep_ok _
    · exact not_tooDeep_arithmetic op l r

end Value

theorem Scope.not_tooDeep_column (s : Scope) (row : Row) (table : Option String) (name : String) :
    ¬ TooDeep (s.column row table name) := by
  have found : ¬ TooDeep (s.columnIndex table name) := by
    unfold columnIndex
    split <;> nofun
  refine not_tooDeep_bind found fun i => ?_
  split <;> nofun

end TooDeep

namespace Scope

/-- Whatever passes the limit of the first scope from this depth on passes that of the second one. -/
def LaxerAt (s : Scope) (depth : Nat) (s' : Scope) (depth' : Nat) : Prop :=
  ∀ k limit', s'.depthLimit = some limit' → limit' < depth' + k →
    ∃ limit, s.depthLimit = some limit ∧ limit < depth + k

/-- The same scope without a limit. -/
def unlimited (s : Scope) : Scope := { s with depthLimit := none }

theorem laxerAt_shallower (s : Scope) {depth depth' : Nat} (h : depth' ≤ depth) : s.LaxerAt depth s depth' := by
  intro k limit limited high
  exact ⟨limit, limited, by omega⟩

theorem laxerAt_unlimited (s t : Scope) (depth depth' : Nat) : t.LaxerAt depth s.unlimited depth' := nofun

end Scope

section Congruence

variable {cmp : Value → Value → Ordering} {R : Outcome → Outcome → Prop} {l l' r r' : Outcome}

namespace Outcome

/-- A relation between outcomes that passes from operands to what is computed from them. An outcome is related to
itself unless the depth limit has ended it. -/
structure Congruence (R : Outcome → Outcome → Prop) : Prop where
  refl : ∀ {x : Outcome}, ¬ TooDeep x → R x x
  bind : ∀ {x y : Outcome} {f g : Value → Outcome}, R x y → (∀ v, R (f v) (g v)) → R (x >>= f) (y >>= g)

namespace Congruence

theorem ok (h : Congruence R) (v : Value) : R (.ok v) (.ok v) := h.refl (not_tooDeep_ok v)

/-- Computing on with what cannot be ended by the depth limit keeps the relation. -/
theorem map (h : Congruence R) {f : Value → Outcome} (inside : R l r) (calm : ∀ v, ¬ TooDeep (f v)) :
    R (l >>= f) (r >>= f) :=
  h.bind inside fun v => h.refl (calm v)

theorem conjoin (h : Congruence R) (onLeft : R l l') (onRight : R r r') :
    R (Outcome.conjoin l r) (Outcome.conjoin l' r') := by
  refine h.bind onLeft fun v => ?_
  split
  · exact h.ok v
  · exact h.map onRight fun w => v.not_tooDeep_conjoin w

theorem disjoin (h : Congruence R) (onLeft : R l l') (onRight : R r r') :
    R (Outcome.disjoin l r) (Outcome.disjoin l' r') := by
  refine h.bind onLeft fun v => ?_
  split
  · exact h.ok v
  · exact h.map onRight fun w => v.not_tooDeep_disjoin w

theorem operands (h : Congruence R) {f : Value → Value → Outcome} (onLeft : R l l') (onRight : R r r')
    (calm : ∀ v w, ¬ TooDeep (f v w)) :
    R (do let v ← l; let w ← r; f v w) (do let v ← l'; let w ← r'; f v w) :=
  h.bind onLeft fun v => h.map onRight (calm v)

theorem binary (h : Congruence R) (op : BinaryOp) (onLeft : R l l') (onRight : R r r') :
    R (Outcome.binary cmp op l r) (Outcome.binary cmp op l' r') := by
  cases op with
  | and => exact h.conjoin onLeft onRight
  | or => exact h.disjoin onLeft onRight
  | _ => exact h.operands onLeft onRight fun v w => Value.not_tooDeep_combined cmp _ v w

theorem search (h : Congruence R) (negated : Bool) (v : Value) {items items' : List Outcome}
    (each : List.Forall₂ R items items') (sawNull : Bool) :
    R (Outcome.search cmp negated v sawNull items) (Outcome.search cmp negated v sawNull items') := by
  induction each generalizing sawNull with
  | nil => exact h.ok _
  | cons item _ ih =>
    refine h.bind item fun w => ?_
    split
    · exact ih true
    · refine h.bind (h.refl (Value.not_tooDeep_compareBy cmp .equal v w)) fun u => ?_
      split
      · exact h.ok _
      · exact ih sawNull

theorem inList (h : Congruence R) (negated : Bool) {items items' : List Outcome} (onLeft : R l l')
    (each : List.Forall₂ R items items') :
    R (Outcome.inList cmp negated l items) (Outcome.inList cmp negated l' items') := by
  refine h.bind onLeft fun v => ?_
  split
  · exact h.ok _
  · exact h.search negated v each false

end Congruence

/-- From these depths on, the limits of the two scopes keep the relation. -/
def LimitsKeep (R : Outcome → Outcome → Prop) (s : Scope) (depth : Nat) (s' : Scope) (depth' : Nat) : Prop :=
  ∀ k {x y : Outcome}, R x y → R (atDepth s (depth + k) x) (atDepth s' (depth' + k) y)

theorem LimitsKeep.here {s s' : Scope} {depth depth' : Nat} (keep : LimitsKeep R s depth s' depth') (inside : R l l') :
    R (atDepth s depth l) (atDepth s' depth' l') :=
  keep 0 inside

theorem LimitsKeep.deeper {s s' : Scope} {depth depth' : Nat} (keep : LimitsKeep R s depth s' depth') :
    LimitsKeep R s (depth + 1) s' (depth' + 1) := by
  intro k x y inside
  rw [Nat.add_assoc, Nat.add_assoc, Nat.add_comm 1 k]
  exact keep (k + 1) inside

theorem atDepth_cases (s : Scope) (depth : Nat) (x : Outcome) :
    (∃ limit, s.depthLimit = some limit ∧ limit < depth ∧ atDepth s depth x = .error (.tooDeep depth limit)) ∨
      (∀ limit, s.depthLimit = some limit → depth ≤ limit) ∧ atDepth s depth x = x := by
  unfold atDepth
  cases limited : s.depthLimit with
  | none => exact .inr ⟨nofun, rfl⟩
  | some limit =>
    by_cases deep : limit < depth
    · exact .inl ⟨limit, rfl, deep, if_pos deep⟩
    · refine .inr ⟨fun other same => ?_, if_neg deep⟩
      cases same
      exact Nat.le_of_not_lt deep

/-- A relation that asks nothing of what the first limit has ended is kept by a laxer second limit. -/
theorem LimitsKeep.of_laxer {s s' : Scope} {depth depth' : Nat} (ended : ∀ {x y : Outcome}, TooDeep x → R x y)
    (laxer : s.LaxerAt depth s' depth') : LimitsKeep R s depth s' depth' := by
  intro k x y inside
  rcases atDepth_cases s (depth + k) x with ⟨limit, _, _, deep⟩ | ⟨within, same⟩
  · exact ended ⟨_, _, deep⟩
  · rcases atDepth_cases s' (depth' + k) y with ⟨limit', limited', deep', _⟩ | ⟨_, same'⟩
    · obtain ⟨limit, limited, deep⟩ := laxer k limit' limited' deep'
      exact absurd (within limit limited) (Nat.not_le_of_lt deep)
    · rw [same, same']
      exact inside

end Outcome

end Congruence

namespace Expr

open Outcome (Congruence LimitsKeep)

variable {R : Outcome → Outcome → Prop} {s s' : Scope} {row row' : Row}

mutual

/-- What columns and limits keep, evaluation keeps. A constant reads no column. -/
theorem valueAt_related (h : Congruence R) (cmp : Value → Value → Ordering) {depth depth' : Nat}
    (keep : LimitsKeep R s depth s' depth') :
    ∀ x : Expr, (x.isConstant = true ∨ ∀ t n, R (s.column row t n) (s'.column row' t n)) →
      R (x.valueAt cmp s row depth) (x.valueAt cmp s' row' depth')
  | literal v, _ => keep.here (h.ok v)
  | column table name, columns => by
    rcases columns with constant | columns
    · cases constant
    · exact keep.here (columns table name)
  | binary op l r, columns => by
    have onLeft := columns.imp_left fun h => (Bool.and_eq_true_iff.1 h).1
    have onRight := columns.imp_left fun h => (Bool.and_eq_true_iff.1 h).2
    exact keep.here (h.binary op (valueAt_related h cmp keep.deeper l onLeft)
      (valueAt_related h cmp keep.deeper r onRight))
  | not x, columns =>
    keep.here (h.map (valueAt_related h cmp keep.deeper x columns) Value.not_tooDeep_logicalNot)
  | negate x, columns =>
    keep.here (h.map (valueAt_related h cmp keep.deeper x columns) Value.not_tooDeep_negated)
  | isNull x _, columns =>
    keep.here (h.map (valueAt_related h cmp keep.deeper x columns) fun _ => not_tooDeep_ok _)
  | inList x values negated, columns => by
    have onLeft := columns.imp_left fun h => (Bool.and_eq_true_iff.1 h).1
    have onItems := columns.imp_left fun h => (Bool.and_eq_true_iff.1 h).2
    exact keep.here (h.inList negated (valueAt_related h cmp keep.deeper x onLeft)
      (valuesAt_related h cmp keep.deeper values onItems))
  | cast x type, columns =>
    keep.here (h.map (valueAt_related h cmp keep.deeper x columns)
      fun v => v.not_tooDeep_convertOrFail type)
  | call _ _, _ => h.refl nofun

theorem valuesAt_related (h : Congruence R) (cmp : Value → Value → Ordering) {depth depth' : Nat}
    (keep : LimitsKeep R s depth s' depth') :
    ∀ xs : List Expr, (allConstant xs = true ∨ ∀ t n, R (s.column row t n) (s'.column row' t n)) →
      List.Forall₂ R (valuesAt cmp s row depth xs) (valuesAt cmp s' row' depth' xs)
  | [], _ => .nil
  | x :: rest, columns => by
    have onFirst := columns.imp_left fun h => (Bool.and_eq_true_iff.1 h).1
    have onRest := columns.imp_left fun h => (Bool.and_eq_true_iff.1 h).2
    exact .cons (valueAt_related h cmp keep x onFirst) (valuesAt_related h cmp keep rest onRest)

end

end Expr

section Refines

variable {α β : Type}

/-- Where the first has a value, the second has the same one. -/
def Refines (x y : Except EngineError α) : Prop := ∀ a, x = .ok a → y = .ok a

namespace Refines

theorem refl (x : Except EngineError α) : Refines x x := fun _ h => h

theorem bind {x y : Except EngineError α} {f g : α → Except EngineError β} (first : Refines x y)
    (rest : ∀ a, Refines (f a) (g a)) : Refines (x >>= f) (y >>= g) := by
  intro b h
  obtain ⟨a, found, next⟩ := bind_eq_ok.1 h
  exact bind_eq_ok.2 ⟨a, first a found, rest a b next⟩

theorem congruence : Outcome.Congruence Refines where
  refl _ := refl _
  bind := bind

theorem of_tooDeep {x y : Outcome} : TooDeep x → Refines x y := by
  rintro ⟨_, _, rfl⟩ a h
  cases h

theorem atDepth {s s' : Scope} {depth depth' : Nat} {x y : Outcome} (laxer : s.LaxerAt depth s' depth')
    (inside : Refines x y) : Refines (Outcome.atDepth s depth x) (Outcome.atDepth s' depth' y) := by
  have keep : Outcome.LimitsKeep Refines s depth s' depth' := .of_laxer of_tooDeep laxer
  exact keep.here inside

end Refines

end Refines

namespace Expr

variable {cmp : Value → Value → Ordering} {s s' : Scope} {row row' : Row} {x : Expr}

theorem limitsKeep_refines {depth depth' : Nat} (laxer : s.LaxerAt depth s' depth') :
    Outcome.LimitsKeep Refines s depth s' depth' :=
  .of_laxer Refines.of_tooDeep laxer

/-- A laxer limit gives no other values, and a constant has its value in every row. -/
theorem valueAt_refines (cmp : Value → Value → Ordering) {depth depth' : Nat}
    (laxer : s.LaxerAt depth s' depth') (x : Expr)
    (columns : x.isConstant = true ∨ ∀ t n, Refines (s.column row t n) (s'.column row' t n)) :
    Refines (x.valueAt cmp s row depth) (x.valueAt cmp s' row' depth') :=
  valueAt_related Refines.congruence cmp (limitsKeep_refines laxer) x columns

/-- At a smaller depth an expression has the value that it has at a greater one. -/
theorem valueAt_shallower {depth depth' : Nat} (h : depth' ≤ depth) :
    Refines (x.valueAt cmp s row depth) (x.valueAt cmp s row depth') :=
  valueAt_refines cmp (s.laxerAt_shallower h) x (.inr fun _ _ => .refl _)

/-- Two values of a constant are the same, whatever the rows and the limits. -/
theorem constant_unique {depth depth' : Nat} {v w : Value} (constant : x.isConstant = true)
    (first : x.valueAt cmp s row depth = .ok v) (second : x.valueAt cmp s' row' depth' = .ok w) :
    v = w := by
  have lax (t : Scope) (r : Row) (d : Nat) :
      Refines (x.valueAt cmp t r d) (x.valueAt cmp s.unlimited row 0) :=
    valueAt_refines cmp (s.laxerAt_unlimited t d 0) x (.inl constant)
  exact Except.ok.inj ((lax s row depth v first).symm.trans (lax s' row' depth' w second))

mutual

theorem isCallFree_of_isConstant : ∀ x : Expr, x.isConstant = true → x.isCallFree = true
  | literal _, _ => rfl
  | column .., constant | call .., constant => nomatch constant
  | not x, constant | negate x, constant | isNull x _, constant | cast x _, constant =>
    isCallFree_of_isConstant x constant
  | binary _ l r, constant => by
    obtain ⟨onLeft, onRight⟩ := Bool.and_eq_true_iff.1 constant
    exact Bool.and_eq_true_iff.2
      ⟨isCallFree_of_isConstant l onLeft, isCallFree_of_isConstant r onRight⟩
  | inList x values _, constant => by
    obtain ⟨onLeft, onItems⟩ := Bool.and_eq_true_iff.1 constant
    exact Bool.and_eq_true_iff.2
      ⟨isCallFree_of_isConstant x onLeft, allCallFree_of_allConstant values onItems⟩

theorem allCallFree_of_allConstant :
    ∀ xs : List Expr, allConstant xs = true → allCallFree xs = true
  | [], _ => rfl
  | x :: rest, constant => by
    obtain ⟨onFirst, onRest⟩ := Bool.and_eq_true_iff.1 constant
    exact Bool.and_eq_true_iff.2
      ⟨isCallFree_of_isConstant x onFirst, allCallFree_of_allConstant rest onRest⟩

end

end Expr

end SqlEngine
