import SqlEngine.Membership
import SqlEngine.Proofs.PureEvaluation
import SqlEngine.Proofs.ValueOrder

/-!
# Membership as a disjunction

Whether a value is among others is the disjunction of the verdicts of comparing it with each of them. A
membership test says just that of the constants that it has taken in, and so does the search of a list
wherever each item compares as the converted one does.
-/

namespace SqlEngine

namespace Truth

def flipped (negated : Bool) (t : Truth) : Truth := if negated then t.not else t

theorem or_comm (s t : Truth) : s.or t = t.or s := by
  cases s <;> cases t <;> rfl

theorem or_fails (t : Truth) : t.or fails = t := by
  cases t <;> rfl

end Truth

namespace Value

variable (cmp : Value → Value → Ordering)

/-- The verdict of comparing two values. A null in one of them leaves it open. -/
def equality (w v : Value) : Truth :=
  if w.containsNull || v.containsNull then .unknown else .ofBool (cmp w v == .eq)

/-- The verdict on a value being one of those listed. -/
def among (ws : List Value) (v : Value) : Truth :=
  if v.containsNull then .unknown else ws.foldr (fun w t => (equality cmp w v).or t) .fails

variable {cmp} {v w : Value} {ws : List Value}

theorem equality_of_null (h : w.containsNull = true) : equality cmp w v = .unknown := by
  rw [equality, h, Bool.true_or, if_pos rfl]

theorem equality_of_present (hw : w.containsNull = false) (hv : v.containsNull = false) :
    equality cmp w v = .ofBool (cmp w v == .eq) := by
  rw [equality, hw, hv, Bool.or_false, if_neg Bool.false_ne_true]

theorem among_of_null (h : v.containsNull = true) : among cmp ws v = .unknown := by
  rw [among, if_pos h]

theorem among_nil (h : v.containsNull = false) : among cmp [] v = .fails := by
  rw [among, if_neg (by simp [h]), List.foldr_nil]

theorem among_cons (h : v.containsNull = false) :
    among cmp (w :: ws) v = (equality cmp w v).or (among cmp ws v) := by
  rw [among, among, if_neg (by simp [h]), if_neg (by simp [h]), List.foldr_cons]

/-- A match decides; without one a null among the values leaves a miss open. -/
theorem among_eq (cmp : Value → Value → Ordering) (h : v.containsNull = false) (ws : List Value) :
    ((∃ w ∈ ws, w.containsNull = false ∧ cmp w v = .eq) → among cmp ws v = .holds) ∧
      ((¬ ∃ w ∈ ws, w.containsNull = false ∧ cmp w v = .eq) →
        among cmp ws v = if ws.any containsNull then .unknown else .fails) := by
  induction ws with
  | nil =>
    refine ⟨?_, fun _ => among_nil h⟩
    rintro ⟨w, hw, _⟩
    cases hw
  | cons a r ih =>
    rw [among_cons h]
    cases null : a.containsNull with
    | true =>
      rw [equality_of_null null]
      have skip : (∃ w ∈ a :: r, w.containsNull = false ∧ cmp w v = .eq) ↔
          ∃ w ∈ r, w.containsNull = false ∧ cmp w v = .eq := by
        simp [null]
      rw [skip]
      refine ⟨fun found => ?_, fun missed => ?_⟩
      · rw [ih.1 found]
        rfl
      · rw [ih.2 missed, List.any_cons, null, Bool.true_or]
        cases r.any containsNull <;> rfl
    | false =>
      rw [equality_of_present null h]
      by_cases same : cmp a v = .eq
      · refine ⟨fun _ => ?_, fun missed => ?_⟩
        · rw [same]
          cases among cmp r v <;> rfl
        · exact absurd ⟨a, List.mem_cons_self, null, same⟩ missed
      · have skip : (∃ w ∈ a :: r, w.containsNull = false ∧ cmp w v = .eq) ↔
            ∃ w ∈ r, w.containsNull = false ∧ cmp w v = .eq := by
          simp [same]
        have fails : Truth.ofBool (cmp a v == .eq) = .fails := by
          simp [same, Truth.ofBool]
        rw [skip, fails, Truth.or_comm, Truth.or_fails, List.any_cons, null, Bool.false_or]
        exact ih

/-- A value as written compares with `v` as its converted form does. -/
structure ComparesLike (cmp : Value → Value → Ordering) (v a w : Value) : Prop where
  null : a.isNull = w.containsNull
  equal : compareBy cmp .equal v a = .ok (equality cmp w v).toValue

theorem containsNull_of_ofType {t : DataType} (scalar : t ≠ .array) (h : OfType t v) :
    v.containsNull = false := by
  cases h with
  | array items => exact absurd rfl scalar
  | _ => rfl

theorem containsNull_of_hasType {t : DataType} (scalar : t ≠ .array) (h : v.HasType t) :
    v.containsNull = v.isNull := by
  rcases ofType_of_hasType h with rfl | ofType
  · rfl
  · rw [containsNull_of_ofType scalar ofType, isNull_of_ofType ofType]

theorem ofType_of_present {t : DataType} (h : v.HasType t) (present : v.containsNull = false) :
    OfType t v := by
  rcases ofType_of_hasType h with rfl | ofType
  · cases present
  · exact ofType

end Value

namespace Outcome

open Value

variable {cmp : Value → Value → Ordering} {negated : Bool} {v r : Value} {items : List Outcome}
  {ws : List Value}

/-- A search that ends well has found out whether the value is among the converted ones. -/
theorem search_eq (present : v.containsNull = false)
    (each : List.Forall₂ (fun x w => ∀ a, x = .ok a → ComparesLike cmp v a w) items ws)
    (sawNull : Bool) (h : search cmp negated v sawNull items = .ok r) :
    r = (((if sawNull then Truth.unknown else .fails).or (among cmp ws v)).flipped
      negated).toValue := by
  induction each generalizing sawNull with
  | nil =>
    rw [among_nil present]
    cases pure_eq_ok.1 h
    cases sawNull <;> cases negated <;> rfl
  | @cons x w items ws like _ ih =>
    rw [among_cons present]
    obtain ⟨a, found, rest⟩ := bind_eq_ok.1 h
    obtain ⟨null, equal⟩ := like a found
    cases isNull : a.isNull with
    | true =>
      rw [if_pos isNull] at rest
      rw [ih true rest, equality_of_null (null.symm.trans isNull)]
      cases sawNull <;> cases among cmp ws v <;> rfl
    | false =>
      rw [if_neg (by simp [isNull]), equal] at rest
      rw [equality_of_present (null.symm.trans isNull) present] at rest ⊢
      by_cases same : cmp w v = .eq
      · rw [same] at rest ⊢
        cases rest
        cases sawNull <;> cases among cmp ws v <;> cases negated <;> rfl
      · have fails : Truth.ofBool (cmp w v == .eq) = .fails := by
          simp [same, Truth.ofBool]
        rw [fails] at rest ⊢
        rw [ih sawNull rest, Truth.or_comm .fails, Truth.or_fails]

theorem inList_eq {left : Outcome} (found : left = .ok v) (whole : v.containsNull = v.isNull)
    (each : List.Forall₂ (fun x w => ∀ a, x = .ok a → ComparesLike cmp v a w) items ws)
    (h : inList cmp negated left items = .ok r) :
    r = ((among cmp ws v).flipped negated).toValue := by
  rw [found] at h
  change (if v.isNull = true then Except.ok Value.null else search cmp negated v false items) =
    .ok r at h
  cases null : v.isNull with
  | true =>
    rw [if_pos null] at h
    cases h
    rw [among_of_null (whole.trans null)]
    cases negated <;> rfl
  | false =>
    rw [if_neg (by simp [null])] at h
    rw [search_eq (whole.trans null) each false h]
    cases among cmp ws v <;> rfl

end Outcome

namespace Membership

open Value

variable {cmp : Value → Value → Ordering} {P : Value → Prop} {m : Membership} {ws : List Value}
  {v w : Value}

theorem evaluate_truth (cmp : Value → Value → Ordering) (m : Membership) (v : Value) :
    ∃ t : Truth, m.evaluate cmp v = t.toValue := by
  simp only [evaluate, answer]
  by_cases null : v.containsNull = true
  · exact ⟨.unknown, if_pos null⟩
  · rw [if_neg null]
    by_cases missed : (!m.set.contains cmp v && m.hasNull) = true
    · exact ⟨.unknown, if_pos missed⟩
    · refine ⟨.ofBool (m.negated != m.set.contains cmp v), ?_⟩
      rw [if_neg missed]
      cases m.negated != m.set.contains cmp v <;> rfl

/-- The set of the test has an equal value for each of those taken in, and no others. -/
structure Represents (P : Value → Prop) (cmp : Value → Value → Ordering) (m : Membership)
    (ws : List Value) : Prop where
  sorted : m.set.Sorted P cmp
  equal : ∀ v, P v →
    ((∃ a ∈ m.set.values, cmp a v = .eq) ↔ ∃ w ∈ ws, w.containsNull = false ∧ cmp w v = .eq)
  hasNull : m.hasNull = ws.any containsNull

theorem represents_nil (empty : m.set = {}) (noNull : m.hasNull = false) :
    Represents P cmp m [] where
  sorted := by
    rw [empty]
    exact ConstantSet.sorted_empty
  equal v _ := by simp [empty]
  hasNull := noNull

theorem represents_add (order : OrderedOn P cmp) (h : Represents P cmp m ws)
    (inside : w.containsNull = false → P w) : Represents P cmp (m.add cmp w) (ws ++ [w]) := by
  obtain ⟨sorted, equal, hasNull⟩ := h
  simp only [add]
  cases null : w.containsNull with
  | true =>
    rw [if_pos rfl]
    refine ⟨sorted, fun v hv => ?_, ?_⟩
    · rw [equal v hv]
      simp [null]
    · simp [null]
  | false =>
    rw [if_neg Bool.false_ne_true]
    obtain ⟨grown, contents⟩ := ConstantSet.insert_spec order sorted (inside null)
    refine ⟨grown, fun v hv => ?_, ?_⟩
    · rw [contents v hv, equal v hv]
      simp [null, or_comm]
    · simp [null, hasNull]

/-- A test says whether a value is among those it has taken in. -/
theorem evaluate_eq (order : OrderedOn P cmp) (h : Represents P cmp m ws)
    (inside : v.containsNull = false → P v) :
    m.evaluate cmp v = ((among cmp ws v).flipped m.negated).toValue := by
  simp only [evaluate]
  cases null : v.containsNull with
  | true =>
    rw [among_of_null null]
    cases m.negated <;> rfl
  | false =>
    rw [if_neg Bool.false_ne_true, answer, h.hasNull]
    have found := (ConstantSet.contains_iff order h.sorted (inside null)).trans
      (h.equal v (inside null))
    obtain ⟨hit, miss⟩ := among_eq cmp null ws
    cases contained : m.set.contains cmp v with
    | true =>
      rw [hit (found.1 contained)]
      cases m.negated <;> rfl
    | false =>
      rw [miss fun some => by simp [found.2 some] at contained]
      cases ws.any containsNull <;> cases m.negated <;> rfl

/-- The opposite test has the opposite value. -/
theorem evaluate_negate (cmp : Value → Value → Ordering) (m : Membership) (v : Value) :
    (m.evaluate cmp v).logicalNot = .ok ({ m with negated := !m.negated }.evaluate cmp v) := by
  simp only [evaluate, answer]
  cases v.containsNull with
  | true => rfl
  | false =>
    simp only [Bool.false_eq_true, if_false]
    cases m.set.contains cmp v <;> cases m.hasNull <;> cases m.negated <;> rfl

/-- Search finds in the set with `w` what it found before and what equals `w`. Sorted sets are like
that; arrays need not be. -/
def FindsAlso (cmp : Value → Value → Ordering) (m : Membership) (w v : Value) : Prop :=
  (m.set.insert cmp w).contains cmp v = (m.set.contains cmp v || cmp w v == .eq)

theorem findsAlso_of_sorted (order : OrderedOn P cmp) (sorted : m.set.Sorted P cmp) (hw : P w)
    (hv : P v) : m.FindsAlso cmp w v := by
  obtain ⟨grown, contents⟩ := ConstantSet.insert_spec order sorted hw
  have before := ConstantSet.contains_iff order sorted hv
  have after := (ConstantSet.contains_iff order grown hv).trans (contents v hv)
  simp only [FindsAlso]
  rw [Bool.eq_iff_iff, after, Bool.or_eq_true, before, beq_iff_eq, or_comm]

/-- A test that takes in a value is the disjunction with the verdict on that value. -/
theorem evaluate_add (plain : m.negated = false)
    (finds : w.containsNull = false → v.containsNull = false → m.FindsAlso cmp w v) :
    (m.evaluate cmp v).disjoin (equality cmp w v).toValue =
      .ok ((m.add cmp w).evaluate cmp v) := by
  simp only [evaluate, add]
  cases null : v.containsNull with
  | true =>
    rw [if_pos rfl, if_pos rfl, equality, null, Bool.or_true, if_pos rfl]
    rfl
  | false =>
    rw [if_neg Bool.false_ne_true, if_neg Bool.false_ne_true]
    simp only [answer]
    cases nullConstant : w.containsNull with
    | true =>
      rw [if_pos rfl, equality_of_null nullConstant, plain]
      cases m.set.contains cmp v <;> cases m.hasNull <;> rfl
    | false =>
      rw [if_neg Bool.false_ne_true, equality_of_present nullConstant null]
      have grown : (m.set.insert cmp w).contains cmp v = (m.set.contains cmp v || cmp w v == .eq) :=
        finds nullConstant null
      simp only [grown, plain]
      cases m.set.contains cmp v <;> cases cmp w v == .eq <;> cases m.hasNull <;> rfl

end Membership

end SqlEngine
