import SqlEngine.Proofs.IndexLookups

/-!
# The six comparisons of two values

All comparison operators go back to one order of the two values, if there is one. So they are open
together, fail together and otherwise agree with each other, on whichever side the values stand.
-/

namespace SqlEngine

namespace BinaryOp

/-- The operator that says the same with the operands changed over. -/
def mirrored : BinaryOp → BinaryOp
  | less => greater
  | lessEqual => greaterEqual
  | greater => less
  | greaterEqual => lessEqual
  | op => op

/-- The operator that holds where this one does not. -/
def opposite : BinaryOp → BinaryOp
  | equal => notEqual
  | notEqual => equal
  | less => greaterEqual
  | lessEqual => greater
  | greater => lessEqual
  | greaterEqual => less
  | op => op

variable {op : BinaryOp}

theorem accepts?_of_comparison (comparison : op.isComparison = true) (o : Ordering) :
    ∃ b, op.accepts? o = some b := by
  cases op with
  | equal | notEqual | less | lessEqual | greater | greaterEqual => exact ⟨_, rfl⟩
  | _ => cases comparison

theorem accepts?_mirrored (op : BinaryOp) (o : Ordering) :
    op.mirrored.accepts? o.swap = op.accepts? o := by
  cases op <;> cases o <;> rfl

theorem accepts?_opposite (op : BinaryOp) (o : Ordering) :
    op.opposite.accepts? o = (op.accepts? o).map (!·) := by
  cases op <;> cases o <;> rfl

/-- Of these three operators the order satisfies just one. -/
theorem accepts?_verdict (o : Ordering) :
    ∃ verdict ∈ [less, equal, greater], ∀ op ∈ [less, equal, greater],
      op.accepts? o = some (op == verdict) := by
  cases o with
  | lt => exact ⟨less, by decide, by decide⟩
  | eq => exact ⟨equal, by decide, by decide⟩
  | gt => exact ⟨greater, by decide, by decide⟩

end BinaryOp

namespace Value

section ordered

variable {cmp : Value → Value → Ordering} {op : BinaryOp} {a b : Value}

theorem compareBy_of_order {o : Ordering} {answer : Bool} (ha : a.isNull = false)
    (hb : b.isNull = false) (ordered : orderBy cmp a b = .ok o) (accepts : op.accepts? o = some answer) :
    compareBy cmp op a b = .ok (.boolean answer) := by
  simp only [compareBy, ha, hb, Bool.or_self, Bool.false_eq_true, if_false]
  refine bind_eq_ok.2 ⟨o, ordered, ?_⟩
  rw [accepts]
  rfl

theorem compareBy_of_failure {e : EngineError} (ha : a.isNull = false) (hb : b.isNull = false)
    (failed : orderBy cmp a b = .error e) : compareBy cmp op a b = .error e := by
  simp only [compareBy, ha, hb, Bool.or_self, Bool.false_eq_true, if_false]
  exact bind_eq_error.2 (.inl failed)

/-- A comparison that comes to an answer has found the values in an order that decides it. -/
theorem order_of_compareBy {r : Value} (ha : a.isNull = false) (hb : b.isNull = false)
    (h : compareBy cmp op a b = .ok r) :
    ∃ o answer, orderBy cmp a b = .ok o ∧ op.accepts? o = some answer ∧ r = .boolean answer := by
  simp only [compareBy, ha, hb, Bool.or_self, Bool.false_eq_true, if_false] at h
  obtain ⟨o, ordered, rest⟩ := bind_eq_ok.1 h
  cases accepts : op.accepts? o with
  | none =>
    rw [accepts] at rest
    cases rest
  | some answer =>
    rw [accepts] at rest
    cases rest
    exact ⟨o, answer, ordered, accepts, rfl⟩

/-- Two values that are not null compare with a known truth. -/
theorem known_of_compareBy {t : Truth} (ha : a.isNull = false) (hb : b.isNull = false)
    (h : compareBy cmp op a b = .ok t.toValue) : t ≠ .unknown := by
  obtain ⟨_, answer, _, _, decided⟩ := order_of_compareBy ha hb h
  rintro rfl
  cases decided

end ordered

variable (c : Collation) {op : BinaryOp} (a b : Value)

/-- The values on the other side of the mirrored operator compare alike, or fail alike. -/
theorem compareBy_mirrored (comparison : op.isComparison = true) :
    compareBy c.compare op.mirrored b a = compareBy c.compare op a b := by
  by_cases null : a.isNull = true ∨ b.isNull = true
  · rw [compareBy_of_null null, compareBy_of_null null.symm]
  · have ha : a.isNull = false := Bool.eq_false_iff.2 fun h => null (.inl h)
    have hb : b.isNull = false := Bool.eq_false_iff.2 fun h => null (.inr h)
    have swapped := orderBy_swap c.oriented a b
    cases ordered : orderBy c.compare a b with
    | error e =>
      rw [ordered] at swapped
      rw [compareBy_of_failure ha hb ordered, compareBy_of_failure hb ha swapped]
    | ok o =>
      rw [ordered] at swapped
      obtain ⟨answer, accepts⟩ := BinaryOp.accepts?_of_comparison comparison o
      rw [compareBy_of_order ha hb ordered accepts]
      apply compareBy_of_order hb ha swapped
      rw [BinaryOp.accepts?_mirrored, accepts]

/-- The opposite operator has the negation for its value. -/
theorem compareBy_opposite (cmp : Value → Value → Ordering) (comparison : op.isComparison = true) :
    compareBy cmp op.opposite a b = compareBy cmp op a b >>= logicalNot := by
  by_cases null : a.isNull = true ∨ b.isNull = true
  · rw [compareBy_of_null null, compareBy_of_null null]
    rfl
  · have ha : a.isNull = false := Bool.eq_false_iff.2 fun h => null (.inl h)
    have hb : b.isNull = false := Bool.eq_false_iff.2 fun h => null (.inr h)
    cases ordered : orderBy cmp a b with
    | error e =>
      rw [compareBy_of_failure ha hb ordered, compareBy_of_failure ha hb ordered]
      rfl
    | ok o =>
      obtain ⟨answer, accepts⟩ := BinaryOp.accepts?_of_comparison comparison o
      have negated : op.opposite.accepts? o = some (!answer) := by
        rw [BinaryOp.accepts?_opposite, accepts]
        rfl
      rw [compareBy_of_order ha hb ordered accepts, compareBy_of_order ha hb ordered negated]
      cases answer <;> rfl

/-- The comparisons of two values are open if one of the values is null. Otherwise they all fail with one
error, also with the values changed over, or exactly one of less, equal and greater is true. The operators
come in pairs of opposites, of which one is the negation of the other, and changing the operands over
together with the direction of the operator changes nothing. -/
theorem compareBy_coherent :
    (a.isNull = true ∨ b.isNull = true →
      ∀ op : BinaryOp, op.isComparison = true → compareBy c.compare op a b = .ok .null) ∧
    (a.isNull = false → b.isNull = false →
      (∃ e, ∀ op : BinaryOp, op.isComparison = true →
        compareBy c.compare op a b = .error e ∧ compareBy c.compare op b a = .error e) ∨
      ∃ verdict ∈ [BinaryOp.less, .equal, .greater], ∀ op ∈ [BinaryOp.less, .equal, .greater],
        compareBy c.compare op a b = .ok (.boolean (op == verdict))) ∧
    ∀ op : BinaryOp, op.isComparison = true →
      compareBy c.compare op.opposite a b = compareBy c.compare op a b >>= logicalNot ∧
      compareBy c.compare op.mirrored b a = compareBy c.compare op a b := by
  refine ⟨fun null op _ => compareBy_of_null null, ?_, fun op comparison => ?_⟩
  · intro ha hb
    have swapped := orderBy_swap c.oriented a b
    cases ordered : orderBy c.compare a b with
    | error e =>
      rw [ordered] at swapped
      exact .inl ⟨e, fun op _ => ⟨compareBy_of_failure ha hb ordered, compareBy_of_failure hb ha swapped⟩⟩
    | ok o =>
      obtain ⟨verdict, listed, accepts⟩ := BinaryOp.accepts?_verdict o
      exact .inr ⟨verdict, listed, fun op hop => compareBy_of_order ha hb ordered (accepts op hop)⟩
  · constructor
    · exact compareBy_opposite a b c.compare comparison
    · exact compareBy_mirrored c a b comparison

/-- A digit that is text is less than a number by its value, on either side. -/
theorem compareBy_coherent_nine :
    let cmp := Collation.compare {}
    compareBy cmp .less (.varchar "9") (.integer 10) = .ok (.boolean true) ∧
      compareBy cmp .greater (.integer 10) (.varchar "9") = .ok (.boolean true) ∧
      compareBy cmp .greaterEqual (.varchar "9") (.integer 10) = .ok (.boolean false) := by
  intro cmp
  have less : compareBy cmp .less (.varchar "9") (.integer 10) = .ok (.boolean true) := by
    with_unfolding_all rfl
  obtain ⟨opposite, mirrored⟩ :=
    (compareBy_coherent {} (.varchar "9") (.integer 10)).2.2 .less rfl
  refine ⟨less, mirrored.trans less, opposite.trans ?_⟩
  rw [less]
  rfl

end Value

end SqlEngine
