import SqlEngine.Proofs.MembershipHistory
import SqlEngine.Proofs.TotalOrder

/-!
# Tests that grow in place

A merger changes a test step by step: the constant is evaluated and converted first, then it is listed, then its
value is taken in. Whatever fails on the way leaves the test alone, and a test that has grown does not take back what
it said.
-/

namespace SqlEngine

namespace Collation

variable {c : Collation}

theorem containsNull_of_not_array {v : Value} (scalar : typeRank v ≠ 7) : v.containsNull = (typeRank v == 0) := by
  cases v with
  | array => exact absurd rfl scalar
  | _ => rfl

theorem anyContainsNull_of_equal {cmp : Value → Value → Ordering} {xs ys : List Value}
    (items : ∀ x ∈ xs, ∀ y, cmp x y = .eq → x.containsNull = y.containsNull)
    (same : Text.compareLists cmp xs ys = .eq) : Value.anyContainsNull xs = Value.anyContainsNull ys := by
  induction xs generalizing ys with
  | nil =>
    cases ys with
    | nil => rfl
    | cons => cases same
  | cons x r ih =>
    cases ys with
    | nil => cases same
    | cons y s =>
      obtain ⟨first, rest⟩ := Ordering.then_eq_eq.1 same
      have later := ih (fun a ha => items a (List.mem_cons_of_mem _ ha)) rest
      rw [Value.anyContainsNull, Value.anyContainsNull, items x List.mem_cons_self y first, later]

/-- Values that compare as equal both contain a null, or neither does. -/
theorem containsNull_of_equal : ∀ a b : Value, c.compare a b = .eq → a.containsNull = b.containsNull
  | a, b => by
    intro same
    by_cases rank : typeRank a = typeRank b
    · by_cases array : typeRank b = 7
      · obtain ⟨xs, rfl⟩ := (isArray_iff a).1 (rank.trans array)
        obtain ⟨ys, rfl⟩ := (isArray_iff b).1 array
        change c.compareItems xs ys = .eq at same
        rw [compareItems_eq] at same
        exact anyContainsNull_of_equal (fun x hx y => containsNull_of_equal x y) same
      · rw [containsNull_of_not_array array, containsNull_of_not_array (rank.trans_ne array), rank]
    · rw [c.compare_of_rank_ne rank] at same
      exact absurd (Nat.compare_eq_eq.1 same) rank
termination_by a => sizeOf a
decreasing_by
  have smaller := List.sizeOf_lt_of_mem hx
  subst_vars
  simp only [Value.array.sizeOf_spec]
  omega

end Collation

namespace Membership

variable {session : Nat} {x k : Expr} {m n : Membership} {e f : Engine} {w : Value}

theorem outcome_mergeInPlace (session : Nat) (x : Expr) (m : Membership) (e : Engine) :
    (mergeInPlace session x).outcome m e =
      match (m.merge session x).outcome e with
      | (.ok (some n), f) => (.ok true, n, f)
      | (.ok none, f) => (.ok false, m, f)
      | (.error failure, f) => (.error failure, m, f) := by
  simp only [merge, mergeInPlace, Run.outcome_ofOutcome, RunWith.outcome_bind, RunWith.outcome_getThe]
  cases merges : m.mergeable? x with
  | none => rfl
  | some k =>
    simp only [RunWith.outcome_bind, RunWith.outcome_getThe, RunWith.outcome_onEngine]
    rcases (constantValue session m.leftType k).outcome e with ⟨r, f⟩
    cases r <;> rfl

section absorbed

variable {cmp : Value → Value → Ordering} {Gives : DataType → Expr → Value → Prop} {ws : List Value} {v : Value}

theorem absorb_listed (cmp : Value → Value → Ordering) (m : Membership) (k : Expr) (w : Value) :
    m.absorb cmp k w =
      { m with constants := m.constants ++ [k], set := (m.absorb cmp k w).set,
               hasNull := (m.absorb cmp k w).hasNull } := by
  simp only [absorb, add]
  split <;> rfl

theorem hasNull_absorb (null : m.hasNull = true) : (m.absorb cmp k w).hasNull = true := by
  simp only [absorb, add]
  split
  · rfl
  · exact null

theorem evaluate_eq_true_iff (plain : m.negated = false) :
    m.evaluate cmp v = .boolean true ↔ v.containsNull = false ∧ m.set.contains cmp v = true := by
  simp only [evaluate, answer, plain]
  cases v.containsNull <;> cases m.set.contains cmp v <;> cases m.hasNull <;> simp

/-- What was open is open still, or holds by now; a null among the constants is not forgotten. -/
theorem evaluate_absorb_ne_false (plain : m.negated = false) (leftOpen : m.evaluate cmp v = .null) :
    (m.absorb cmp k w).evaluate cmp v ≠ .boolean false := by
  have same : (m.absorb cmp k w).negated = m.negated := by rw [absorb_listed]
  by_cases null : v.containsNull = true
  · rw [evaluate, if_pos null]
    exact Value.noConfusion
  · have noted : m.hasNull = true := by
      rw [evaluate, if_neg null, answer] at leftOpen
      split at leftOpen
      · next missed => exact (Bool.and_eq_true_iff.1 missed).2
      · cases leftOpen
    rw [evaluate, if_neg null, answer, hasNull_absorb noted, same, plain]
    cases (m.absorb cmp k w).set.contains cmp v <;> simp

/-- A test with a history finds what it found before, and what equals the value that it took in. -/
theorem Reached.contains_absorb (before : Reached cmp Gives m ws) (order : OrderedOn (Involved (ws ++ [w]) v) cmp)
    (present : v.containsNull = false) :
    (m.absorb cmp k w).set.contains cmp v = true ↔
      m.set.contains cmp v = true ∨ w.containsNull = false ∧ cmp w v = .eq := by
  simp only [absorb, add]
  cases null : w.containsNull with
  | true =>
    rw [if_pos rfl]
    simp
  | false =>
    have old (u : Value) (hu : u ∈ ws) (whole : u.containsNull = false) : Involved (ws ++ [w]) v u :=
      ⟨whole, .inr (List.mem_append_left [w] hu)⟩
    have last : Involved (ws ++ [w]) v w := ⟨null, .inr (List.mem_append_right ws List.mem_cons_self)⟩
    have finds : m.FindsAlso cmp w v :=
      findsAlso_of_sorted order (before.represents order old).sorted last ⟨present, .inl rfl⟩
    rw [if_neg Bool.false_ne_true]
    change (m.set.insert cmp w).contains cmp v = true ↔ _
    rw [finds, Bool.or_eq_true, beq_iff_eq]
    simp

end absorbed

/-- The test `n` is `m` with the constant `k` of the equality `x`, which has the value `w`. It says more
than `m` did, and nothing else. No collation takes a value with a null for one without, but other
comparisons may. -/
structure Grown (cmp : Value → Value → Ordering) (session : Nat) (x : Expr) (m : Membership) (k : Expr)
    (w : Value) (n : Membership) : Prop where
  equates : x.ifEquals? m.left = some k
  constant : k.isConstant = true
  value : GivesIn cmp session m.leftType k w
  listed : n = { m with constants := m.constants ++ [k], set := n.set, hasNull := n.hasNull }
  holdsStill : ∀ Gives ws v, Reached cmp Gives m ws → OrderedOn (Involved (ws ++ [w]) v) cmp →
    m.evaluate cmp v = .boolean true → n.evaluate cmp v = .boolean true
  leavesOpen : ∀ v, m.evaluate cmp v = .null → n.evaluate cmp v ≠ .boolean false
  finds : ∀ Gives ws v, Reached cmp Gives m ws → OrderedOn (Involved (ws ++ [w]) v) cmp →
    (v.containsNull = false ∨ ∃ c : Collation, cmp = c.compare) → w.containsNull = false → cmp w v = .eq →
    n.evaluate cmp v = .boolean true

theorem grown_absorb {cmp : Value → Value → Ordering} (merges : m.mergeable? x = some k)
    (value : GivesIn cmp session m.leftType k w) :
    Grown cmp session x m k w (m.absorb cmp k w) := by
  obtain ⟨⟨plain, _⟩, equates, constant⟩ := Condition.mergeable?_eq_some.1 merges
  have still : (m.absorb cmp k w).negated = false := by rwa [absorb_listed]
  refine ⟨equates, constant, value, absorb_listed .., ?_, fun v => evaluate_absorb_ne_false plain, ?_⟩
  · intro Gives ws v before order holds
    obtain ⟨present, found⟩ := (evaluate_eq_true_iff plain).1 holds
    exact (evaluate_eq_true_iff still).2 ⟨present, (before.contains_absorb order present).2 (.inl found)⟩
  · intro Gives ws v before order nulls whole same
    have present : v.containsNull = false := by
      rcases nulls with present | ⟨c, rfl⟩
      · exact present
      · rw [← Collation.containsNull_of_equal w v same]
        exact whole
    exact (evaluate_eq_true_iff still).2 ⟨present, (before.contains_absorb order present).2 (.inr ⟨whole, same⟩)⟩

theorem outcome_mergeInPlace_of_closed (closed : m.negated = true ∨ m.whenOperand = true) :
    (mergeInPlace session x).outcome m e = (.ok false, m, e) := by
  have none : m.mergeable? x = none := by
    rw [mergeable?, if_pos (Bool.or_eq_true_iff.2 closed)]
  rw [outcome_mergeInPlace, merge_eq, none]
  rfl

/-- A merger that is not made, for whatever reason, leaves the test as it was, and one that is made adds one
constant and takes nothing back. Planning uses the merger that does just this. -/
theorem mergeInPlace_all_or_nothing {r : Except EngineError Bool}
    (h : (mergeInPlace session x).outcome m e = (r, n, f)) :
    (r ≠ .ok true → n = m) ∧ (m.negated = true ∨ m.whenOperand = true → r = .ok false ∧ n = m) ∧
      (r = .ok true → ∃ k w, Grown e.compare session x m k w n) ∧
      (mergeInPlace session x).outcome m e =
        match (m.merge session x).outcome e with
        | (.ok (some grown), f) => (.ok true, grown, f)
        | (.ok none, f) => (.ok false, m, f)
        | (.error failure, f) => (.error failure, m, f) := by
  refine ⟨fun unmade => ?_, fun closed => ?_, fun made => ?_, outcome_mergeInPlace session x m e⟩
  · rw [outcome_mergeInPlace] at h
    split at h
    · cases h
      exact absurd rfl unmade
    · cases h
      rfl
    · cases h
      rfl
  · rw [outcome_mergeInPlace_of_closed closed] at h
    cases h
    exact ⟨rfl, rfl⟩
  · rw [outcome_mergeInPlace] at h
    split at h
    · next grown g merged =>
      obtain ⟨_, k, w, merges, value, rfl⟩ := merge_ok merged
      cases h
      exact ⟨k, w, grown_absorb merges value⟩
    · cases h
      cases made
    · cases h
      cases made

/-- `A IN (1, NULL)` takes in `A = 9` and holds for nine from then on. It is left alone by `A = 'x'`, which cannot be
converted. -/
theorem mergeInPlace_all_or_nothing_nine :
    let a : Expr := .column none "A"
    ∃ m n : Membership, m.evaluate (Collation.compare {}) (.integer 9) = .null ∧
      (mergeInPlace 0 (.binary .equal a (.literal (.integer 9)))).outcome m {} = (.ok true, n, {}) ∧
      n.evaluate (Collation.compare {}) (.integer 9) = .boolean true ∧
      ((mergeInPlace 0 (.binary .equal a (.literal (.varchar "x")))).outcome m {}).2.1 = m := by
  intro a
  let start : Membership :=
    { left := a, leftType := .integer, negated := false, whenOperand := false,
      constants := [.literal (.integer 1), .literal .null] }
  let test := addAll (Collation.compare {}) start [.integer 1, .null]
  have history : Reached (Collation.compare {}) (GivesIn (Collation.compare {}) 0) test
      [.integer 1, .null] := by
    refine .built (by decide) (.cons ?_ (.cons ?_ .nil)) <;> exact (givesIn_iff rfl).2 rfl
  have merged : (mergeInPlace 0 (.binary .equal a (.literal (.integer 9)))).outcome test {} =
      (.ok true, test.absorb (Collation.compare {}) (.literal (.integer 9)) (.integer 9), {}) := by
    with_unfolding_all rfl
  have failed : ((mergeInPlace 0 (.binary .equal a (.literal (.varchar "x")))).outcome test {}).1 =
      .error (.value (.malformed .integer "x")) := by
    with_unfolding_all rfl
  have order : OrderedOn (Involved ([.integer 1, .null] ++ [.integer 9]) (.integer 9)) (Collation.compare {}) := by
    refine (Collation.orderedOn_exact {}).mono fun u hu => ?_
    obtain ⟨present, rfl | listed⟩ := hu
    · rfl
    · simp only [List.cons_append, List.nil_append, List.mem_cons, List.not_mem_nil, or_false] at listed
      rcases listed with rfl | rfl | rfl
      · rfl
      · cases present
      · rfl
  rcases stopped : (mergeInPlace 0 (.binary .equal a (.literal (.varchar "x")))).outcome test {} with ⟨r, kept, f⟩
  rw [stopped] at failed
  obtain ⟨_, _, grown, _⟩ := mergeInPlace_all_or_nothing merged
  obtain ⟨k, w, grown⟩ := grown rfl
  refine ⟨test, _, by with_unfolding_all rfl, merged, ?_, ?_⟩
  · cases grown.equates
    cases (givesIn_iff rfl).1 grown.value
    exact grown.finds _ _ _ history order (.inl rfl) rfl rfl
  · rw [stopped]
    refine (mergeInPlace_all_or_nothing stopped).1 fun made => ?_
    cases failed.symm.trans made

end Membership

end SqlEngine
