import SqlEngine.Proofs.ConditionEffects
import SqlEngine.Proofs.ConditionMeaning

/-!
# Tests over their history

A test is built from a list of constants, takes in equalities and is turned around. Its set and its note
of nulls follow from the values of the constants that it lists, in the order in which they came, so what
it says of a value can be read off the list.
-/

namespace SqlEngine

/-- Evaluation leaves the comparison alone. -/
def SameComparison (e f : Engine) : Prop := f.compare = e.compare

theorem sameComparison_writes : WriteRelation SameComparison where
  refl _ := rfl
  trans first second := second.trans first
  setSession _ _ := rfl
  journal _ _ := rfl

theorem sameComparison_loads : LoadRelation SameComparison where
  toEffectOrder := sameComparison_writes.toEffectOrder
  compiler _ _ := rfl
  setAlias _ _ _ := rfl

theorem sameComparison_calls (session : Nat) : CallRelation session SameComparison :=
  sameComparison_writes.updates.calls session sameComparison_loads.resolve

/-- In lists that go together, each item has a partner on the other side. -/
theorem partners {α β : Type} {R : α → β → Prop} {xs : List α} {ys : List β} (h : List.Forall₂ R xs ys) :
    (∀ a ∈ xs, ∃ b ∈ ys, R a b) ∧ ∀ b ∈ ys, ∃ a ∈ xs, R a b := by
  induction h with
  | nil => exact ⟨nofun, nofun⟩
  | cons first _ ih =>
    refine ⟨fun a ha => ?_, fun b hb => ?_⟩
    · rcases List.mem_cons.1 ha with rfl | ha
      · exact ⟨_, List.mem_cons_self, first⟩
      · obtain ⟨b, hb, related⟩ := ih.1 a ha
        exact ⟨b, List.mem_cons_of_mem _ hb, related⟩
    · rcases List.mem_cons.1 hb with rfl | hb
      · exact ⟨_, List.mem_cons_self, first⟩
      · obtain ⟨a, ha, related⟩ := ih.2 b hb
        exact ⟨a, List.mem_cons_of_mem _ ha, related⟩

/-- What is answered to a value, if this says that it was found and if not, that it may have been. -/
structure Answers (negated : Bool) (found mayBe : Prop) (r : Value) : Prop where
  hit : found → r = .boolean (!negated)
  leftOpen : ¬ found → mayBe → r = .null
  miss : ¬ found → ¬ mayBe → r = .boolean negated

theorem Answers.congr {negated : Bool} {F F' N N' : Prop} {r : Value} (h : Answers negated F N r)
    (found : F ↔ F') (mayBe : N ↔ N') : Answers negated F' N' r := by
  rw [← propext found, ← propext mayBe]
  exact h

namespace Membership

open Value

/-- The test that has taken in these values one after the other. -/
def addAll (cmp : Value → Value → Ordering) (m : Membership) (ws : List Value) : Membership :=
  ws.foldl (fun m w => m.add cmp w) m

/-- A test after mergers and negations, with the values of the constants that it lists. `Gives` says
which values a constant has in a type. -/
inductive Reached (cmp : Value → Value → Ordering) (Gives : DataType → Expr → Value → Prop) :
    Membership → List Value → Prop
  | built {left : Expr} {type : DataType} {negated whenOperand : Bool} {ks : List Expr}
      {ws : List Value} (enough : 2 ≤ ks.length) (values : List.Forall₂ (Gives type) ks ws) :
      Reached cmp Gives
        (addAll cmp { left := left, leftType := type, negated := negated, whenOperand := whenOperand,
                      constants := ks } ws) ws
  | merged {m : Membership} {x k : Expr} {w : Value} {ws : List Value} (before : Reached cmp Gives m ws)
      (merges : m.mergeable? x = some k) (value : Gives m.leftType k w) :
      Reached cmp Gives (m.absorb cmp k w) (ws ++ [w])
  | reversed {m n : Membership} {ws : List Value} (before : Reached cmp Gives m ws)
      (opposite : m.negate? = some n) : Reached cmp Gives n ws

section contents

variable {cmp : Value → Value → Ordering} {m : Membership} {w a : Value} {us ws : List Value}

/-- The test keeps no value but these, and none with a null; of those it only knows that there are. -/
structure Keeps (m : Membership) (ws : List Value) : Prop where
  listed : ∀ a ∈ m.set.values, a ∈ ws
  present : ∀ a ∈ m.set.values, a.containsNull = false
  hasNull : m.hasNull = ws.any containsNull

theorem keeps_nil (empty : m.set = {}) (noNull : m.hasNull = false) : Keeps m [] where
  listed a ha := by
    rw [empty] at ha
    cases ha
  present a ha := by
    rw [empty] at ha
    cases ha
  hasNull := noNull

theorem keeps_add (h : Keeps m ws) : Keeps (m.add cmp w) (ws ++ [w]) := by
  simp only [add]
  cases null : w.containsNull with
  | true =>
    rw [if_pos rfl]
    refine ⟨fun a ha => List.mem_append_left _ (h.listed a ha), h.present, ?_⟩
    simp [null]
  | false =>
    rw [if_neg Bool.false_ne_true]
    refine ⟨fun a ha => ?_, fun a ha => ?_, ?_⟩
    · rcases ConstantSet.mem_insert ha with rfl | old
      · exact List.mem_append_right _ List.mem_cons_self
      · exact List.mem_append_left _ (h.listed a old)
    · rcases ConstantSet.mem_insert ha with rfl | old
      · exact null
      · exact h.present a old
    · simp [null, h.hasNull]

/-- What each value taken in preserves is preserved by all of them. -/
theorem addAll_preserves {Inv : Membership → List Value → Prop}
    (step : ∀ m us w, w ∈ ws → Inv m us → Inv (m.add cmp w) (us ++ [w])) (h : Inv m us) :
    Inv (addAll cmp m ws) (us ++ ws) := by
  induction ws generalizing m us with
  | nil => rwa [List.append_nil]
  | cons w rest ih =>
    have taken := step m us w List.mem_cons_self h
    have all := ih (fun m us v hv => step m us v (List.mem_cons_of_mem w hv)) taken
    rwa [List.append_assoc] at all

theorem addAll_fields (cmp : Value → Value → Ordering) (m : Membership) (ws : List Value) :
    (addAll cmp m ws).left = m.left ∧ (addAll cmp m ws).leftType = m.leftType ∧
      (addAll cmp m ws).constants = m.constants := by
  induction ws generalizing m with
  | nil => exact ⟨rfl, rfl, rfl⟩
  | cons w rest ih =>
    obtain ⟨left, type, constants⟩ := ih (m.add cmp w)
    exact ⟨left.trans (add_left cmp m w), type.trans (add_leftType cmp m w),
      constants.trans (add_constants cmp m w)⟩

theorem answers_evaluate (cmp : Value → Value → Ordering) (m : Membership) {v : Value}
    (present : v.containsNull = false) :
    Answers m.negated (m.set.contains cmp v = true) (m.hasNull = true) (m.evaluate cmp v) := by
  simp only [evaluate, answer]
  rw [present, if_neg Bool.false_ne_true]
  cases m.set.contains cmp v <;> cases m.hasNull <;> cases m.negated <;> constructor <;> simp

theorem negate?_eq_some {n : Membership} (h : m.negate? = some n) :
    m.whenOperand = false ∧ n = { m with negated := !m.negated } := by
  simp only [negate?] at h
  split at h
  · cases h
  · next alone =>
    cases h
    exact ⟨Bool.eq_false_iff.2 alone, rfl⟩

end contents

/-- The values that a test of `v` has to compare. -/
def Involved (ws : List Value) (v u : Value) : Prop := u.containsNull = false ∧ (u = v ∨ u ∈ ws)

/-- The three fields of the test are in step with the list, and what it says of a value is what the list
says of it: unknown if there is a null in the value, else decided by a match, else unknown again if
there is a null among the constants, and otherwise decided by the lack of a match. -/
structure Denotes (cmp : Value → Value → Ordering) (Gives : DataType → Expr → Value → Prop)
    (m : Membership) (ws : List Value) : Prop where
  enough : 2 ≤ m.constants.length
  values : List.Forall₂ (Gives m.leftType) m.constants ws
  present : ∀ a ∈ m.set.values, a.containsNull = false
  hasNull : m.hasNull = true ↔ ∃ w ∈ ws, w.containsNull = true
  unknown : ∀ v, v.containsNull = true → m.evaluate cmp v = .null
  answers : ∀ v, OrderedOn (Involved ws v) cmp → v.containsNull = false →
    Answers m.negated (∃ w ∈ ws, w.containsNull = false ∧ cmp w v = .eq)
      (∃ w ∈ ws, w.containsNull = true) (m.evaluate cmp v)

namespace Reached

variable {cmp : Value → Value → Ordering} {Gives : DataType → Expr → Value → Prop} {m : Membership}
  {ws : List Value} {P : Value → Prop}

theorem enough (h : Reached cmp Gives m ws) : 2 ≤ m.constants.length := by
  induction h with
  | built enough _ => rwa [(addAll_fields cmp _ _).2.2]
  | merged _ _ _ ih =>
    rw [absorb_constants, List.length_append]
    exact Nat.le_add_right_of_le ih
  | reversed _ opposite ih =>
    obtain ⟨_, rfl⟩ := negate?_eq_some opposite
    exact ih

/-- The values are those of the constants, one for one. -/
theorem values (h : Reached cmp Gives m ws) : List.Forall₂ (Gives m.leftType) m.constants ws := by
  induction h with
  | built _ values =>
    rw [(addAll_fields cmp _ _).2.1, (addAll_fields cmp _ _).2.2]
    exact values
  | merged _ _ value ih =>
    rw [absorb_constants, absorb_leftType]
    exact List.rel_append ih (.cons value .nil)
  | reversed _ opposite ih =>
    obtain ⟨_, rfl⟩ := negate?_eq_some opposite
    exact ih

theorem exists_value (h : Reached cmp Gives m ws) :
    ∀ k ∈ m.constants, ∃ w ∈ ws, Gives m.leftType k w :=
  (partners h.values).1

theorem exists_constant (h : Reached cmp Gives m ws) :
    ∀ w ∈ ws, ∃ k ∈ m.constants, Gives m.leftType k w :=
  (partners h.values).2

theorem keeps (h : Reached cmp Gives m ws) : Keeps m ws := by
  induction h with
  | built => exact addAll_preserves (fun _ _ _ _ old => keeps_add old) (keeps_nil rfl rfl)
  | merged _ _ _ ih => exact keeps_add ⟨ih.listed, ih.present, ih.hasNull⟩
  | reversed _ opposite ih =>
    obtain ⟨_, rfl⟩ := negate?_eq_some opposite
    exact ⟨ih.listed, ih.present, ih.hasNull⟩

/-- Wherever the comparison orders the values, the set has an equal one for each of them. What does not
depend on an order is in `Keeps`, so that the order is asked of the values at hand alone. -/
theorem represents (order : OrderedOn P cmp) (h : Reached cmp Gives m ws)
    (inside : ∀ w ∈ ws, w.containsNull = false → P w) : m.Represents P cmp ws := by
  induction h with
  | built =>
    exact addAll_preserves (fun _ _ w hw old => represents_add order old (inside w hw))
      (represents_nil rfl rfl)
  | merged _ _ _ ih =>
    obtain ⟨sorted, equal, hasNull⟩ := ih fun w hw => inside w (List.mem_append_left _ hw)
    have last := inside _ (List.mem_append_right _ List.mem_cons_self)
    exact represents_add order ⟨sorted, equal, hasNull⟩ last
  | reversed _ opposite ih =>
    obtain ⟨_, rfl⟩ := negate?_eq_some opposite
    obtain ⟨sorted, equal, hasNull⟩ := ih inside
    exact ⟨sorted, equal, hasNull⟩

/-- The set is searched with success for what one of the values equals, if all are ordered. -/
theorem contains_iff {v : Value} (order : OrderedOn P cmp) (h : Reached cmp Gives m ws)
    (inside : ∀ w ∈ ws, w.containsNull = false → P w) (hv : P v) :
    m.set.contains cmp v = true ↔ ∃ w ∈ ws, w.containsNull = false ∧ cmp w v = .eq := by
  have represents := h.represents order inside
  rw [ConstantSet.contains_iff order represents.sorted hv]
  exact represents.equal v hv

theorem hasNull_iff (h : Reached cmp Gives m ws) :
    m.hasNull = true ↔ ∃ w ∈ ws, w.containsNull = true := by
  rw [h.keeps.hasNull, List.any_eq_true]

theorem denotes (h : Reached cmp Gives m ws) : Denotes cmp Gives m ws where
  enough := h.enough
  values := h.values
  present := h.keeps.present
  hasNull := h.hasNull_iff
  unknown v null := by
    rw [evaluate, if_pos null]
  answers v order present := by
    have inside (w : Value) (hw : w ∈ ws) (whole : w.containsNull = false) : Involved ws v w :=
      ⟨whole, .inr hw⟩
    exact (m.answers_evaluate cmp present).congr (h.contains_iff order inside ⟨present, .inl rfl⟩)
      h.hasNull_iff

end Reached

/-- The constant was evaluated to this value in the type, on some engine with the comparison. -/
def GivesIn (cmp : Value → Value → Ordering) (session : Nat) (type : DataType) (k : Expr)
    (w : Value) : Prop :=
  ∃ e f, e.compare = cmp ∧ (constantValue session type k).outcome e = (.ok w, f)

/-- A constant without calls has no other values than the one it has under the comparison. -/
theorem givesIn_iff {cmp : Value → Value → Ordering} {session : Nat} {type : DataType} {k : Expr}
    {w : Value} (free : k.isCallFree = true) :
    GivesIn cmp session type k w ↔ k.constantIn cmp session type = .ok w := by
  have value := constantValue_computes cmp session type free
  constructor
  · rintro ⟨e, f, comparison, h⟩
    rw [value e comparison] at h
    exact congrArg Prod.fst h
  · intro h
    refine ⟨{ compare := cmp }, { compare := cmp }, rfl, ?_⟩
    rw [value _ rfl, h]

section running

variable {session : Nat} {e f : Engine} {m n : Membership}

theorem compare_constantValue {type : DataType} {k : Expr} {w : Value}
    (h : (constantValue session type k).outcome e = (.ok w, f)) : f.compare = e.compare := by
  have same := relates_constantValue (sameComparison_calls session) type k e
  rw [h] at same
  exact same

/-- Taking in constants that can be evaluated is taking in their values. -/
theorem addConstants_ok {ks : List Expr} (h : (m.addConstants session ks).outcome e = (.ok n, f)) :
    f.compare = e.compare ∧ ∃ ws, List.Forall₂ (GivesIn e.compare session m.leftType) ks ws ∧
      n = addAll e.compare m ws := by
  induction ks generalizing m e with
  | nil =>
    cases h
    exact ⟨rfl, [], .nil, rfl⟩
  | cons k rest ih =>
    obtain ⟨w, g, value, next⟩ := Run.bind_ok.1 h
    obtain ⟨_, _, read, next⟩ := Run.bind_ok.1 next
    cases read
    -- The next constant is evaluated on the engine that this one left, under the same comparison.
    have kept := compare_constantValue value
    obtain ⟨same, ws, values, whole⟩ := ih next
    rw [kept, add_leftType] at values
    rw [kept] at whole same
    exact ⟨same, w :: ws, .cons ⟨e, g, rfl, value⟩ values, whole⟩

theorem build_ok {left : Expr} {type : DataType} {negated whenOperand : Bool} {ks : List Expr}
    (h : (build session left type negated whenOperand ks).outcome e = (.ok m, f)) :
    f.compare = e.compare ∧ 2 ≤ ks.length ∧
      ∃ ws, List.Forall₂ (GivesIn e.compare session type) ks ws ∧
        m = addAll e.compare
          { left := left, leftType := type, negated := negated, whenOperand := whenOperand,
            constants := ks } ws := by
  simp only [build] at h
  split at h
  · cases h
  · next enough =>
    obtain ⟨same, ws, values, whole⟩ := addConstants_ok h
    exact ⟨same, Nat.not_lt.1 enough, ws, values, whole⟩

theorem merge_ok {x : Expr} (h : (m.merge session x).outcome e = (.ok (some n), f)) :
    f.compare = e.compare ∧ ∃ k w, m.mergeable? x = some k ∧
      GivesIn e.compare session m.leftType k w ∧ n = m.absorb e.compare k w := by
  rw [merge_eq] at h
  cases merges : m.mergeable? x with
  | none =>
    simp only [merges] at h
    cases h
  | some k =>
    simp only [merges] at h
    obtain ⟨w, g, value, next⟩ := Run.bind_ok.1 h
    obtain ⟨_, _, read, next⟩ := Run.bind_ok.1 next
    cases read
    cases next
    have kept := compare_constantValue value
    refine ⟨kept, k, w, rfl, ⟨e, f, rfl, value⟩, ?_⟩
    rw [kept]
    rfl

end running

/-- Every test with a history, under any comparison, says of a value what its list says; and the tests
that a running engine builds or has take in an equality have such a history. -/
theorem reached_denotes_list :
    (∀ cmp Gives m ws, Reached cmp Gives m ws → Denotes cmp Gives m ws) ∧
      (∀ session left type negated whenOperand ks m e f,
        (build session left type negated whenOperand ks).outcome e = (.ok m, f) →
          m.constants = ks ∧ m.leftType = type ∧ f.compare = e.compare ∧
            ∃ ws, Reached e.compare (GivesIn e.compare session) m ws) ∧
      ∀ session m n x ws e f, Reached e.compare (GivesIn e.compare session) m ws →
        (m.merge session x).outcome e = (.ok (some n), f) →
          n.leftType = m.leftType ∧ f.compare = e.compare ∧
            ∃ k w, n.constants = m.constants ++ [k] ∧
              Reached e.compare (GivesIn e.compare session) n (ws ++ [w]) := by
  refine ⟨fun _ _ _ _ h => h.denotes, ?_, ?_⟩
  · intro session left type negated whenOperand ks m e f h
    obtain ⟨same, enough, ws, values, rfl⟩ := build_ok h
    obtain ⟨_, fixed, listed⟩ := addAll_fields e.compare
      { left := left, leftType := type, negated := negated, whenOperand := whenOperand,
        constants := ks } ws
    exact ⟨listed, fixed, same, ws, .built enough values⟩
  · intro session m n x ws e f before h
    obtain ⟨same, k, w, merges, value, rfl⟩ := merge_ok h
    exact ⟨absorb_leftType _ m k w, same, k, w, absorb_constants _ m k w, before.merged merges value⟩

/-- `A NOT IN (1, NULL, 2)`, where the `2` was merged, fails for 2 and leaves 5 open. -/
theorem reached_denotes_list_turned :
    ∃ m, Reached (Collation.compare {}) (GivesIn (Collation.compare {}) 0) m
        [.integer 1, .null, .integer 2] ∧
      m.evaluate (Collation.compare {}) (.integer 2) = .boolean false ∧
      m.evaluate (Collation.compare {}) (.integer 5) = .null := by
  let a : Expr := .column none "A"
  let test : Membership :=
    { left := a, leftType := .integer, negated := false, whenOperand := false,
      constants := [.literal (.integer 1), .literal .null], set := ⟨[.integer 1]⟩, hasNull := true }
  have build : (build 0 a .integer false false test.constants).outcome {} = (.ok test, {}) := by
    with_unfolding_all rfl
  have merge : (test.merge 0 (.binary .equal a (.literal (.integer 2)))).outcome {} =
      (.ok (some (test.absorb (Collation.compare {}) (.literal (.integer 2)) (.integer 2))), {}) := by
    with_unfolding_all rfl
  obtain ⟨denotes, builds, merges⟩ := reached_denotes_list
  obtain ⟨_, _, _, ws, built⟩ := builds _ _ _ _ _ _ _ _ _ build
  obtain ⟨_, _, k, w, listed, merged⟩ := merges _ _ _ _ ws _ _ built merge
  have turned := merged.reversed rfl
  have values : ws ++ [w] = [.integer 1, .null, .integer 2] := by
    have each := merged.values
    rw [absorb_constants, absorb_leftType] at each
    generalize ws ++ [w] = us at each
    rcases each with _ | ⟨one, _ | ⟨null, _ | ⟨two, _ | _⟩⟩⟩
    rw [givesIn_iff rfl] at one null two
    cases one
    cases null
    cases two
    rfl
  rw [values] at turned
  have order (v : Value) (exact : v.toDecimal?.isSome = true) :
      OrderedOn (Involved [.integer 1, .null, .integer 2] v) (Collation.compare {}) := by
    refine (Collation.orderedOn_exact {}).mono fun u hu => ?_
    obtain ⟨present, rfl | listed⟩ := hu
    · exact exact
    · simp only [List.mem_cons, List.not_mem_nil, or_false] at listed
      rcases listed with rfl | rfl | rfl
      · rfl
      · cases present
      · rfl
  have meaning := (denotes _ _ _ _ turned).answers
  refine ⟨_, turned, (meaning _ (order _ rfl) rfl).hit ⟨.integer 2, by simp, rfl, rfl⟩,
    (meaning _ (order _ rfl) rfl).leftOpen ?_ ⟨.null, by simp, rfl⟩⟩
  simp only [List.mem_cons, List.not_mem_nil, or_false]
  rintro ⟨u, rfl | rfl | rfl, present, same⟩
  · cases same
  · cases present
  · cases same

/-- The value of the constant in the type, by itself. -/
def Fixed (cmp : Value → Value → Ordering) (session : Nat) (type : DataType) (k : Expr)
    (w : Value) : Prop :=
  k.isConstant = true ∧ k.constantIn cmp session type = .ok w

/-- The test has a history of constants, and where its operand is a column it has the type of the
column. -/
structure Planned (cmp : Value → Value → Ordering) (s : Scope) (m : Membership) : Prop where
  type : ∀ t n, m.left = .column t n → (Expr.column t n).staticType s = some m.leftType
  history : ∃ ws, Reached cmp (Fixed cmp s.session) m ws

variable {cmp : Value → Value → Ordering} {s : Scope} {e f : Engine} {m n : Membership}

theorem planned_negate (h : Planned cmp s m) (opposite : m.negate? = some n) : Planned cmp s n := by
  obtain ⟨type, ws, history⟩ := h
  have reversed := history.reversed opposite
  obtain ⟨_, rfl⟩ := negate?_eq_some opposite
  exact ⟨type, ws, reversed⟩

theorem planned_absorb {x k : Expr} {w : Value} (h : Planned cmp s m) (merges : m.mergeable? x = some k)
    (value : k.constantIn cmp s.session m.leftType = .ok w) : Planned cmp s (m.absorb cmp k w) := by
  obtain ⟨type, ws, history⟩ := h
  obtain ⟨_, _, constant⟩ := Condition.mergeable?_eq_some.1 merges
  refine ⟨?_, _, history.merged merges ⟨constant, value⟩⟩
  rw [absorb_left, absorb_leftType]
  exact type

theorem planned_build {left : Expr} {type : DataType} {negated whenOperand : Bool} {ks : List Expr}
    (constant : Expr.allConstant ks = true)
    (typed : ∀ t n, left = .column t n → (Expr.column t n).staticType s = some type)
    (h : (build s.session left type negated whenOperand ks).outcome e = (.ok m, f)) :
    Planned e.compare s m := by
  obtain ⟨_, enough, ws, values, rfl⟩ := build_ok h
  refine ⟨?_, ws, .built enough ?_⟩
  · obtain ⟨operand, fixed, _⟩ := addAll_fields e.compare
      { left := left, leftType := type, negated := negated, whenOperand := whenOperand,
        constants := ks } ws
    rw [operand, fixed]
    exact typed
  · have each (k : Expr) (hk : k ∈ ks) : k.isConstant = true := (Expr.allConstant_iff ks).1 constant k hk
    refine ((List.forall₂_and_left _ _).2 ⟨each, values⟩).imp ?_
    rintro k w ⟨isConstant, gives⟩
    exact ⟨isConstant, (givesIn_iff (k.isCallFree_of_isConstant isConstant)).1 gives⟩

end Membership

namespace Condition

variable {s : Scope} {e f g : Engine} {cond : Condition}

theorem planned_expr (cmp : Value → Value → Ordering) (s : Scope) (x : Expr) :
    ∀ m ∈ (expr x).tests, m.Planned cmp s :=
  fun _ hm => absurd hm List.not_mem_nil

theorem planned_ofList {left : Expr} {ks : List Expr} {negated : Bool}
    (constant : Expr.allConstant ks = true)
    (h : (ofList s left ks negated).outcome e = (.ok cond, f)) :
    f.compare = e.compare ∧ ∀ m ∈ cond.tests, m.Planned e.compare s := by
  obtain ⟨type, e', typing, rest⟩ := Run.bind_ok.1 h
  have typed : (left.typeIn s).run e = (type, e') := by
    have run : (liftM (left.typeIn s) : Run (Option DataType)).outcome e =
        (.ok ((left.typeIn s).run e).1, ((left.typeIn s).run e).2) := rfl
    rw [run] at typing
    cases typing
    rfl
  have kept : e'.compare = e.compare := by
    have same := Expr.relates_typeIn (sameComparison_calls s.session) left e
    rw [typed] at same
    exact same
  cases type with
  | none =>
    cases rest
    exact ⟨kept, planned_expr _ s _⟩
  | some type =>
    obtain ⟨m, f', build, rest⟩ := Run.bind_ok.1 rest
    cases rest
    obtain ⟨same, _⟩ := Membership.build_ok build
    refine ⟨same.trans kept, fun n hn => ?_⟩
    rw [List.mem_singleton.1 hn, ← kept]
    refine Membership.planned_build constant (fun t n operand => ?_) build
    subst operand
    exact congrArg Prod.fst typed

theorem planned_disjunction {L R : Condition} (left : ∀ m ∈ L.tests, m.Planned e.compare s)
    (right : ∀ m ∈ R.tests, m.Planned e.compare s)
    (h : (disjunction s.session L R).outcome e = (.ok cond, f)) :
    f.compare = e.compare ∧ ∀ m ∈ cond.tests, m.Planned e.compare s := by
  rw [outcome_disjunction] at h
  obtain ⟨joins, rfl⟩ := Prod.mk.injEq .. ▸ h
  refine ⟨rfl, ?_⟩
  cases joined_cases joins with
  | apart =>
    intro m hm
    rcases List.mem_append.1 hm with hm | hm
    · exact left m hm
    · exact right m hm
  | swapped => exact fun m hm => right m ((List.mem_append.1 hm).resolve_right List.not_mem_nil)
  | absorbed on pair merges value =>
    intro m hm
    rw [List.mem_singleton.1 hm]
    refine Membership.planned_absorb ?_ merges value
    rcases pair?_eq_some.1 pair with ⟨rfl, rfl⟩ | ⟨rfl, rfl⟩
    · exact left _ List.mem_cons_self
    · exact right _ List.mem_cons_self

/-- Every test of a condition is planned, also where it is evaluated with calls. -/
theorem planned_ofExpr (s : Scope) :
    ∀ (x : Expr) {e f : Engine} {cond : Condition}, (ofExpr s x).outcome e = (.ok cond, f) →
      f.compare = e.compare ∧ ∀ m ∈ cond.tests, m.Planned e.compare s
  | .not x, e, f, cond, h => by
    rw [ofExpr] at h
    obtain ⟨inner, e', operand, rest⟩ := Run.bind_ok.1 h
    obtain ⟨same, planned⟩ := planned_ofExpr s x operand
    split at rest
    · next n reverses =>
      cases rest
      refine ⟨same, fun m hm => ?_⟩
      rw [List.mem_singleton.1 hm]
      cases inner with
      | member n => exact Membership.planned_negate (planned n List.mem_cons_self) reverses
      | _ => cases reverses
    · cases rest
      exact ⟨same, planned_expr _ s _⟩
  | .inList left ks negated, e, f, cond, h => by
    rw [ofExpr] at h
    split at h
    · next listed => exact planned_ofList listed.2 h
    · cases h
      exact ⟨rfl, planned_expr _ s _⟩
  | .binary op l r, e, f, cond, h => by
    cases op with
    | and =>
      rw [ofExpr] at h
      obtain ⟨L, e', left, rest⟩ := Run.bind_ok.1 h
      obtain ⟨R, f', right, rest⟩ := Run.bind_ok.1 rest
      cases rest
      obtain ⟨first, plannedLeft⟩ := planned_ofExpr s l left
      obtain ⟨second, plannedRight⟩ := planned_ofExpr s r right
      refine ⟨second.trans first, fun m hm => ?_⟩
      rcases List.mem_append.1 hm with hm | hm
      · exact plannedLeft m hm
      · rw [← first]
        exact plannedRight m hm
    | or =>
      rw [ofExpr] at h
      obtain ⟨L, e', left, rest⟩ := Run.bind_ok.1 h
      obtain ⟨R, f', right, rest⟩ := Run.bind_ok.1 rest
      obtain ⟨first, plannedLeft⟩ := planned_ofExpr s l left
      obtain ⟨second, plannedRight⟩ := planned_ofExpr s r right
      have kept := second.trans first
      rw [← second] at plannedRight
      rw [← kept] at plannedLeft ⊢
      exact planned_disjunction plannedLeft plannedRight rest
    | _ =>
      cases h
      exact ⟨rfl, planned_expr _ s _⟩
  | .literal _, e, f, cond, h | .column .., e, f, cond, h | .negate _, e, f, cond, h
  | .isNull .., e, f, cond, h | .cast .., e, f, cond, h | .call .., e, f, cond, h => by
    cases h
    exact ⟨rfl, planned_expr _ s _⟩

end Condition

end SqlEngine
