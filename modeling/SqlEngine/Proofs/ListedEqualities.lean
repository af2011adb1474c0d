import SqlEngine.Proofs.ComparisonOperators
import SqlEngine.Proofs.EqualityMerging

/-!
# Lists as disjunctions of equalities

A disjunction of equalities with one left side is evaluated from the deepest equality on, and stops at the
first that holds. The search of the list of their right sides passes the same verdicts on the way, so it
ends with the truth that the disjunction has.
-/

namespace SqlEngine

open Value

namespace Outcome

variable {cmp : Value → Value → Ordering} {negated : Bool} {a b : Value} {t e : Truth}

/-- A search that has come to `t` takes in the verdict on one more item. It ends if that one holds. -/
theorem search_step {item : Outcome} {rest : List Outcome} (present : a.isNull = false)
    (opened : t ≠ .holds) (found : item = .ok b) (compared : compareBy cmp .equal a b = .ok e.toValue) :
    search cmp negated a (t == .unknown) (item :: rest) =
      if t.or e = .holds then .ok (.boolean (!negated))
      else search cmp negated a (t.or e == .unknown) rest := by
  have step : search cmp negated a (t == .unknown) (item :: rest) =
      if b.isNull then search cmp negated a true rest
      else (compareBy cmp .equal a b >>= fun q =>
        if q.same (.boolean true) then .ok (.boolean (!negated))
        else search cmp negated a (t == .unknown) rest) := by
    rw [found]
    rfl
  rw [step]
  by_cases null : b.isNull = true
  · have unknown : e = .unknown := by
      rw [compareBy_of_null (.inr null)] at compared
      cases e with
      | unknown => rfl
      | fails | holds => cases compared
    rw [if_pos null, unknown]
    cases t with
    | holds => exact absurd rfl opened
    | fails | unknown => rfl
  · have known : e ≠ .unknown := known_of_compareBy present (Bool.eq_false_iff.2 null) compared
    rw [if_neg null, compared]
    cases e with
    | unknown => exact absurd rfl known
    | fails =>
      rw [Truth.or_fails, if_neg opened]
      rfl
    | holds =>
      cases t <;> rfl

end Outcome

namespace Expr

variable {cmp : Value → Value → Ordering} {s : Scope} {row : Row} {x d : Expr} {ws : List Expr}
  {a r : Value}
  {depth : Nat}

/-- One more equality at the end of a disjunction. -/
def orEquals (x d w : Expr) : Expr := .binary .or d (.binary .equal x w)

/-- `x = v OR x = w OR …`, joined from the left. -/
def equalsAny (x v : Expr) (ws : List Expr) : Expr := ws.foldl x.orEquals (.binary .equal x v)

theorem isCallFree_orEquals (freeLeft : x.isCallFree = true) (free : d.isCallFree = true)
    (freeItems : allCallFree ws = true) : (ws.foldl x.orEquals d).isCallFree = true := by
  induction ws generalizing d with
  | nil => exact free
  | cons w rest ih =>
    obtain ⟨freeFirst, freeRest⟩ := Bool.and_eq_true_iff.1 freeItems
    apply ih
    · simp only [orEquals, isCallFree, free, freeLeft, freeFirst, Bool.and_self]
    · exact freeRest

/-- The values of an expression are truths, at every depth. -/
def HasTruth (cmp : Value → Value → Ordering) (s : Scope) (row : Row) (d : Expr) : Prop :=
  ∀ k v, d.valueAt cmp s row k = .ok v → ∃ t : Truth, v = t.toValue

theorem hasTruth_equality (x w : Expr) : HasTruth cmp s row (.binary .equal x w) := by
  intro k v found
  obtain ⟨a, b, _, _, compared⟩ := equality_eq_ok found
  exact Condition.compareBy_truth compared

/-- Deep in the disjunction the operand has the value that it has for the list. -/
theorem operand_unique {b : Value} (operand : x.valueAt cmp s row 1 = .ok a)
    (deeper : x.valueAt cmp s row (depth + 1) = .ok b) : b = a := by
  have shallow : x.valueAt cmp s row 1 = .ok b := valueAt_shallower (by omega) b deeper
  exact Except.ok.inj (shallow.symm.trans operand)

/-- A disjunction with one more equality has gone by its left side alone, if that holds, and else by both
sides. -/
theorem orEquals_cases {w : Expr} {v : Value} (truth : HasTruth cmp s row d)
    (operand : x.valueAt cmp s row 1 = .ok a)
    (found : (x.orEquals d w).valueAt cmp s row depth = .ok v) :
    ∃ t : Truth, d.valueAt cmp s row (depth + 1) = .ok t.toValue ∧
      ((t = .holds ∧ v = .boolean true) ∨
        t ≠ .holds ∧ ∃ (b : Value) (e : Truth), w.valueAt cmp s row 1 = .ok b ∧
          compareBy cmp .equal a b = .ok e.toValue ∧ v = (t.or e).toValue) := by
  have inside : Outcome.disjoin (d.valueAt cmp s row (depth + 1))
      ((binary .equal x w).valueAt cmp s row (depth + 1)) = .ok v :=
    Outcome.atDepth_refines s depth _ v found
  rcases Outcome.disjoin_eq_ok.1 inside with ⟨left, rfl⟩ | ⟨l, q, left, opened, right, joined⟩
  · exact ⟨.holds, left, .inl ⟨rfl, rfl⟩⟩
  · obtain ⟨t, rfl⟩ := truth _ _ left
    obtain ⟨a', b, onOperand, onItem, compared⟩ := equality_eq_ok right
    obtain rfl := operand_unique operand onOperand
    obtain ⟨e, rfl⟩ := Condition.compareBy_truth compared
    refine ⟨t, left, .inr ⟨?_, b, e, ?_, compared, ?_⟩⟩
    · rintro rfl
      exact opened rfl
    · exact valueAt_shallower (by omega) b onItem
    · cases t <;> cases e <;> cases joined <;> rfl

/-- A disjunction that has a value has begun with one. -/
theorem begin_of_orEquals (h : (ws.foldl x.orEquals d).valueAt cmp s row depth = .ok r) :
    ∃ l, d.valueAt cmp s row (depth + ws.length) = .ok l := by
  induction ws generalizing d with
  | nil => exact ⟨r, h⟩
  | cons w rest ih =>
    obtain ⟨v, begun⟩ := ih h
    obtain ⟨l, left⟩ := Outcome.left_of_disjoin (Outcome.atDepth_refines s _ _ v begun)
    refine ⟨l, ?_⟩
    rw [List.length_cons, ← Nat.add_assoc]
    exact left

/-- A disjunction that goes on with equalities takes over a truth of its beginning, and otherwise ends
with what the search of their right sides comes to. -/
theorem search_of_orEquals (operand : x.valueAt cmp s row 1 = .ok a) (present : a.isNull = false)
    (truth : HasTruth cmp s row d) (h : (ws.foldl x.orEquals d).valueAt cmp s row depth = .ok r) :
    ∃ t u : Truth, d.valueAt cmp s row (depth + ws.length) = .ok t.toValue ∧ r = u.toValue ∧
      (t = .holds → u = .holds) ∧
      (t ≠ .holds → ∀ negated, Outcome.search cmp negated a (t == .unknown)
        (valuesAt cmp s row 1 ws) = .ok (u.flipped negated).toValue) := by
  induction ws generalizing d with
  | nil =>
    obtain ⟨t, rfl⟩ := truth _ _ h
    refine ⟨t, t, h, rfl, id, fun opened negated => ?_⟩
    cases t with
    | holds => exact absurd rfl opened
    | fails | unknown => cases negated <;> rfl
  | cons w rest ih =>
    have longer : HasTruth cmp s row (x.orEquals d w) := by
      intro k v found
      obtain ⟨t, _, ⟨_, rfl⟩ | ⟨_, b, e, _, _, rfl⟩⟩ := orEquals_cases truth operand found
      · exact ⟨.holds, rfl⟩
      · exact ⟨t.or e, rfl⟩
    obtain ⟨t', u, begun, rfl, kept, searched⟩ := ih longer h
    have places : depth + rest.length + 1 = depth + (w :: rest).length := by
      rw [List.length_cons]
      omega
    obtain ⟨t, left, how⟩ := orEquals_cases truth operand begun
    rw [places] at left
    refine ⟨t, u, left, rfl, fun holds => ?_, fun opened negated => ?_⟩
    · rcases how with ⟨_, same⟩ | ⟨opened, _⟩
      · apply kept
        cases t' with
        | holds => rfl
        | fails | unknown => cases same
      · exact absurd holds opened
    · obtain ⟨b, e, onItem, compared, same⟩ := (how.resolve_left fun left => opened left.1).2
      obtain rfl : t' = t.or e := by
        rw [← Option.some_inj, ← Truth.ofValue?_toValue, ← Truth.ofValue?_toValue, same]
      rw [valuesAt, Outcome.search_step present opened onItem compared]
      by_cases hit : t.or e = .holds
      · rw [if_pos hit, kept hit]
        cases negated <;> rfl
      · rw [if_neg hit]
        exact searched hit negated

/-- Equalities with null leave their disjunction open. -/
theorem null_of_orEquals (operand : x.valueAt cmp s row 1 = .ok a) (null : a.isNull = true)
    (opened : ∀ k v, d.valueAt cmp s row k = .ok v → v = .null)
    (h : (ws.foldl x.orEquals d).valueAt cmp s row depth = .ok r) : r = .null := by
  induction ws generalizing d with
  | nil => exact opened _ _ h
  | cons w rest ih =>
    apply ih _ h
    intro k v found
    have truth : HasTruth cmp s row d := fun k v found => ⟨.unknown, opened k v found⟩
    obtain ⟨t, left, how⟩ := orEquals_cases truth operand found
    have unknown : t = .unknown := by
      have same := opened _ _ left
      cases t with
      | unknown => rfl
      | fails | holds => cases same
    subst unknown
    rcases how with ⟨holds, _⟩ | ⟨_, b, e, _, compared, rfl⟩
    · cases holds
    · rw [compareBy_of_null (.inl null)] at compared
      cases e with
      | unknown => rfl
      | fails | holds => cases compared

theorem valueAt_inList {v : Value} {values : List Expr} {negated : Bool}
    (operand : x.valueAt cmp s row 1 = .ok a) :
    (inList x values negated).valueAt cmp s row 0 = .ok v ↔
      (if a.isNull then Except.ok Value.null
        else Outcome.search cmp negated a false (valuesAt cmp s row 1 values)) = .ok v := by
  have whole : (inList x values negated).valueAt cmp s row 0 =
      Outcome.inList cmp negated (x.valueAt cmp s row 1) (valuesAt cmp s row 1 values) := by
    simp only [valueAt, Outcome.atDepth, Nat.not_lt_zero, if_false]
    cases s.depthLimit <;> rfl
  rw [whole, operand]
  rfl

/-- Where the disjunction of the equalities has a value, the list has the same truth. -/
theorem inList_of_equalsAny {v : Expr} (h : (x.equalsAny v ws).valueAt cmp s row 0 = .ok r) :
    ∃ t : Truth, r = t.toValue ∧ ∀ negated,
      (inList x (v :: ws) negated).valueAt cmp s row 0 = .ok (t.flipped negated).toValue := by
  obtain ⟨l, begun⟩ := begin_of_orEquals h
  obtain ⟨a, b, onOperand, onItem, compared⟩ := equality_eq_ok begun
  have operand : x.valueAt cmp s row 1 = .ok a := valueAt_shallower (by omega) a onOperand
  have first : v.valueAt cmp s row 1 = .ok b := valueAt_shallower (by omega) b onItem
  have truth : HasTruth cmp s row (binary .equal x v) := hasTruth_equality x v
  by_cases null : a.isNull = true
  · refine ⟨.unknown, ?_, fun negated => ?_⟩
    · apply null_of_orEquals operand null _ h
      intro k q found
      obtain ⟨a', b', onOperand', _, compared'⟩ := equality_eq_ok found
      obtain rfl := operand_unique operand onOperand'
      exact Except.ok.inj (compared'.symm.trans (compareBy_of_null (.inl null)))
    · rw [valueAt_inList operand, if_pos null]
      cases negated <;> rfl
  · have present : a.isNull = false := Bool.eq_false_iff.2 null
    obtain ⟨t, u, left, rfl, kept, searched⟩ := search_of_orEquals operand present truth h
    obtain rfl : l = t.toValue := Except.ok.inj (begun.symm.trans left)
    refine ⟨u, rfl, fun negated => ?_⟩
    rw [valueAt_inList operand, if_neg null, valuesAt]
    have step := @Outcome.search_step cmp negated a b .fails t _ (valuesAt cmp s row 1 ws) present nofun
      first
      compared
    rw [Truth.or_comm, Truth.or_fails] at step
    refine Eq.trans step ?_
    by_cases hit : t = .holds
    · rw [if_pos hit, kept hit]
      cases negated <;> rfl
    · rw [if_neg hit]
      exact searched hit negated

/-- Where a disjunction of equalities with one left side has a value, that is a truth, and it is the value of
membership in the list of the right sides. The opposite membership has the opposite truth. Neither of the
evaluations changes the engine. -/
theorem inList_agrees_with_disjunction {v : Expr} {e f : Engine} (freeLeft : x.isCallFree = true)
    (freeItems : allCallFree (v :: ws) = true)
    (h : ((x.equalsAny v ws).eval s row).outcome e = (.ok r, f)) :
    f = e ∧ ∃ t : Truth, r = t.toValue ∧
      ((inList x (v :: ws) false).eval s row).outcome e = (.ok t.toValue, e) ∧
      ((inList x (v :: ws) true).eval s row).outcome e = (.ok t.not.toValue, e) := by
  obtain ⟨freeFirst, freeRest⟩ := Bool.and_eq_true_iff.1 freeItems
  have free : (x.equalsAny v ws).isCallFree = true := by
    apply isCallFree_orEquals freeLeft _ freeRest
    exact Bool.and_eq_true_iff.2 ⟨freeLeft, freeFirst⟩
  have freeList (negated : Bool) : (inList x (v :: ws) negated).isCallFree = true :=
    Bool.and_eq_true_iff.2 ⟨freeLeft, freeItems⟩
  have computed := evalAt_computes e.compare s row 0 _ free e rfl
  obtain ⟨value, rfl⟩ := Prod.mk.injEq .. ▸ computed.symm.trans h
  obtain ⟨t, rfl, listed⟩ := inList_of_equalsAny value
  refine ⟨rfl, t, rfl, ?_, ?_⟩
  · have search := evalAt_computes e.compare s row 0 _ (freeList false) e rfl
    rw [listed false] at search
    exact search
  · have search := evalAt_computes e.compare s row 0 _ (freeList true) e rfl
    rw [listed true] at search
    exact search

/-- Seven is found as text behind a null, so that it is not outside the list. -/
theorem inList_agrees_with_disjunction_seven :
    let column : Expr := .column none "A"
    let one : Expr := .literal (.integer 1)
    let others : List Expr := [.literal .null, .literal (.varchar " 7 ")]
    ((column.equalsAny one others).eval integerScope [.integer 7]).outcome {} = (.ok (.boolean true), {}) ∧
      ((inList column (one :: others) true).eval integerScope [.integer 7]).outcome {} =
        (.ok (.boolean false), {}) := by
  intro column one others
  have found : ((column.equalsAny one others).eval integerScope [.integer 7]).outcome {} =
      (.ok (.boolean true), {}) := by
    with_unfolding_all rfl
  obtain ⟨_, t, same, _, outside⟩ := inList_agrees_with_disjunction rfl rfl found
  refine ⟨found, outside.trans ?_⟩
  cases t with
  | holds => rfl
  | fails | unknown => cases same

end Expr

end SqlEngine
