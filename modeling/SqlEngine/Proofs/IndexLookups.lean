import SqlEngine.Proofs.MembershipHistory
import SqlEngine.Proofs.TotalOrder

/-!
# Lookups offered to an index

A condition offers lookups from the parts of its conjunctions, where a test of a column or an equality of
a column and a constant stands. A row for which the condition holds is among the rows of every such
lookup, though lookups carry constants as they were written and name columns without their table.
-/

namespace SqlEngine

namespace Value

variable {cmp : Value → Value → Ordering}

theorem orderBy_swap (oriented : Std.OrientedCmp cmp) (l r : Value) :
    orderBy cmp r l = (orderBy cmp l r).map Ordering.swap := by
  simp only [orderBy]
  cases l.isCharacter <;> cases r.isCharacter
  · exact congrArg _ oriented.eq_swap
  · cases r.convertOrFail l.type with
    | error x => rfl
    | ok v => exact congrArg _ oriented.eq_swap
  · cases l.convertOrFail r.type with
    | error x => rfl
    | ok v => exact congrArg _ oriented.eq_swap
  · exact congrArg _ oriented.eq_swap

/-- Equality does not depend on which side a value stands on. -/
theorem compareBy_equal_swap (oriented : Std.OrientedCmp cmp) (l r : Value) :
    compareBy cmp .equal r l = compareBy cmp .equal l r := by
  simp only [compareBy]
  rw [orderBy_swap oriented, Bool.or_comm]
  cases orderBy cmp l r with
  | error x => rfl
  | ok o => cases o <;> rfl

/-- The truth that a connective sees in the value is that it holds. -/
def Holds (v : Value) : Prop := Truth.ofValue? v = some .holds

theorem holds_toValue {t : Truth} (h : t.toValue.Holds) : t = .holds :=
  Option.some.inj ((Truth.ofValue?_toValue t).symm.trans h)

theorem holds_conjoin {l r v : Value} (h : l.conjoin r = .ok v) (holds : v.Holds) :
    l.Holds ∧ r.Holds := by
  have read {w : Value} {t : Truth} (seen : Truth.operand "AND" w = .ok t) :
      Truth.ofValue? w = some t := by
    simp only [Truth.operand] at seen
    cases found : Truth.ofValue? w with
    | none =>
      rw [found] at seen
      cases seen
    | some u =>
      rw [found] at seen
      cases seen
      rfl
  obtain ⟨t, left, rest⟩ := bind_eq_ok.1 h
  obtain ⟨u, right, rest⟩ := bind_eq_ok.1 rest
  cases rest
  have both := holds_toValue holds
  have left := read left
  have right := read right
  cases t <;> cases u <;> cases both
  exact ⟨left, right⟩

end Value

theorem Slot.find_hit {α : Type} {cmp : α → α → Ordering} {v : α} {xs : List α}
    (h : (Slot.find cmp v xs).occupied = true) : ∃ a ∈ xs, cmp a v = .eq := by
  fun_induction Slot.find cmp v xs with
  | case1 => cases h
  | case2 => cases h
  | case3 a equal => exact ⟨a, List.mem_cons_self, equal⟩
  | case4 => cases h
  | case5 a b r half greater ih =>
    obtain ⟨d, hd, same⟩ := ih h
    exact ⟨d, List.mem_of_mem_take hd, same⟩
  | case6 a b r half notGreater ih =>
    obtain ⟨d, hd, same⟩ := ih h
    exact ⟨d, List.mem_of_mem_drop hd, same⟩

namespace Membership

/-- The test holds only for values that one of its set equals, whatever the comparison. -/
theorem hit_of_holds {cmp : Value → Value → Ordering} {m : Membership} {v : Value}
    (plain : m.negated = false) (holds : (m.evaluate cmp v).Holds) :
    ∃ a ∈ m.set.values, cmp a v = .eq := by
  simp only [evaluate, answer, plain] at holds
  split at holds
  · cases holds
  · split at holds
    · cases holds
    · -- Halving may miss a value in a set that is not ordered, but it never takes one for another.
      refine Slot.find_hit (v := v) ?_
      cases found : m.set.contains cmp v with
      | true => exact found
      | false =>
        rw [found] at holds
        cases holds

end Membership

namespace Condition

variable {s : Scope} {row : Row} {e f g : Engine} {cond : Condition}

section conjunctions

/-- The parts of nested conjunctions, in order. A disjunction is one part. -/
def conjuncts : Condition → List Condition
  | and l r => l.conjuncts ++ r.conjuncts
  | cond => [cond]

theorem compare_evaluate {v : Value} (h : (cond.evaluate s row).outcome e = (.ok v, g)) :
    g.compare = e.compare := by
  have same := cond.relates_evaluate (sameComparison_calls s.session) row e
  rw [h] at same
  exact same

/-- A conjunction that holds has looked at both sides, and they hold. -/
theorem sides_of_conjoin {left right : Run Value} {v : Value}
    (h : (Run.conjoin left right).outcome e = (.ok v, g)) (holds : v.Holds) :
    ∃ l r f, left.outcome e = (.ok l, f) ∧ right.outcome f = (.ok r, g) ∧ l.Holds ∧ r.Holds := by
  obtain ⟨l, f, first, rest⟩ := Run.bind_ok.1 h
  split at rest
  · next decided =>
    cases rest
    obtain rfl := Value.eq_boolean_of_same decided
    cases holds
  · obtain ⟨r, g', second, rest⟩ := Run.bind_ok.1 rest
    obtain ⟨both, rfl⟩ := Run.ofExcept_ok.1 rest
    obtain ⟨onLeft, onRight⟩ := Value.holds_conjoin both holds
    exact ⟨l, r, f, first, second, onLeft, onRight⟩

/-- Where a condition holds, each part of it was evaluated and holds. -/
theorem conjuncts_hold {v : Value} (h : (cond.evaluate s row).outcome e = (.ok v, g)) (holds : v.Holds) :
    ∀ part ∈ cond.conjuncts, ∃ u f f', f.compare = e.compare ∧
      (part.evaluate s row).outcome f = (.ok u, f') ∧ u.Holds := by
  induction cond generalizing e g v with
  | and l r onLeft onRight =>
    intro part listed
    obtain ⟨u, w, f, first, second, holdsLeft, holdsRight⟩ := sides_of_conjoin h holds
    rcases List.mem_append.1 listed with listed | listed
    · exact onLeft first holdsLeft part listed
    · -- The left side may have called functions, which change the engine but not the comparison.
      obtain ⟨u, f', f'', same, found⟩ := onRight second holdsRight part listed
      exact ⟨u, f', f'', same.trans (compare_evaluate first), found⟩
  | member | or | expr =>
    intro part listed
    obtain rfl := List.mem_singleton.1 listed
    exact ⟨v, e, g, rfl, h, holds⟩

end conjunctions

section offers

variable {optimizeInList : Bool} {filter : TableFilter}

/-- What a condition that is no conjunction offers. -/
def partLookup? (optimizeInList : Bool) (filter : TableFilter) : Condition → Option IndexLookup
  | member m => m.lookup? optimizeInList filter
  | expr x => (columnEquality? filter x).map fun (name, value) => .equality name value
  | _ => none

theorem offerLookups_eq (optimizeInList : Bool) (cond : Condition) (filter : TableFilter) :
    cond.offerLookups optimizeInList filter =
      { filter with lookups :=
          filter.lookups ++ cond.conjuncts.filterMap (partLookup? optimizeInList filter) } := by
  induction cond generalizing filter with
  | member m =>
    simp only [offerLookups, conjuncts, List.filterMap_cons, partLookup?]
    cases m.lookup? optimizeInList filter <;> simp [TableFilter.offer]
  | and l r onLeft onRight =>
    rw [offerLookups, onLeft, onRight, conjuncts, List.filterMap_append, ← List.append_assoc]
    rfl
  | or l r =>
    change filter = { filter with lookups := filter.lookups ++ [] }
    rw [List.append_nil]
  | expr x =>
    simp only [offerLookups, conjuncts, List.filterMap_cons, partLookup?]
    cases columnEquality? filter x <;> simp [TableFilter.offer]

/-- The two things that offer a lookup: a test of a column that is neither turned around nor the operand
of a `CASE`, unless lists are switched off, and an equality of a column and a constant. -/
inductive Offers (optimizeInList : Bool) : Condition → IndexLookup → Prop
  | test {m : Membership} {t : Option String} {n : String} (on : optimizeInList = true)
      (plain : m.negated = false) (alone : m.whenOperand = false) (operand : m.left = .column t n) :
      Offers optimizeInList (member m) (.inList n m.constants)
  | equality {t : Option String} {n : String} {k : Expr} (constant : k.isConstant = true) :
      Offers optimizeInList (expr (.binary .equal (.column t n) k)) (.equality n k)
  | turned {t : Option String} {n : String} {k : Expr} (constant : k.isConstant = true) :
      Offers optimizeInList (expr (.binary .equal k (.column t n))) (.equality n k)

theorem columnEquality?_cases {x k : Expr} {n : String} (h : columnEquality? filter x = some (n, k)) :
    k.isConstant = true ∧ ∃ t, filter.owns t n = true ∧
      (x = .binary .equal (.column t n) k ∨ x = .binary .equal k (.column t n)) := by
  cases x with
  | binary op l r =>
    cases op with
    | equal =>
      simp only [columnEquality?] at h
      obtain ⟨⟨t, name, value⟩, sides, owned⟩ := Option.bind_eq_some_iff.1 h
      simp only [] at owned
      split at owned
      · next owns =>
        cases owned
        split at sides
        · split at sides
          · next constant =>
            cases sides
            exact ⟨constant, t, owns, .inl rfl⟩
          · cases sides
        · split at sides
          · next constant =>
            cases sides
            exact ⟨constant, t, owns, .inr rfl⟩
          · cases sides
        · cases sides
      · cases owned
    | _ => cases h
  | _ => cases h

theorem partLookup?_cases {part : Condition} {l : IndexLookup}
    (h : partLookup? optimizeInList filter part = some l) :
    Offers optimizeInList part l ∧ ∃ t, filter.owns t l.column = true := by
  cases part with
  | member m =>
    simp only [partLookup?, Membership.lookup?] at h
    split at h
    · cases h
    · next plain =>
      rw [Bool.not_eq_true, Bool.or_eq_false_iff] at plain
      split at h
      · next t n operand =>
        split at h
        · next owned =>
          obtain ⟨owned, on⟩ := Bool.and_eq_true_iff.1 owned
          cases h
          exact ⟨.test on plain.1 plain.2 operand, t, owned⟩
        · cases h
      · cases h
  | expr x =>
    obtain ⟨⟨n, k⟩, found, rfl⟩ := Option.map_eq_some_iff.1 h
    obtain ⟨constant, t, owned, rfl | rfl⟩ := columnEquality?_cases found
    · exact ⟨.equality constant, t, owned⟩
    · exact ⟨.turned constant, t, owned⟩
  | and | or => cases h

end offers

end Condition

namespace Expr

variable {cmp : Value → Value → Ordering} {s : Scope} {row : Row}

/-- Where an equality has a value, it has it with its sides turned around. -/
theorem valueAt_equal_swap (oriented : Std.OrientedCmp cmp) (l r : Expr) (depth : Nat) :
    Refines ((binary .equal l r).valueAt cmp s row depth)
      ((binary .equal r l).valueAt cmp s row depth) := by
  refine .atDepth (fun k limit limited high => ⟨limit, limited, high⟩) ?_
  intro q h
  obtain ⟨a, left, rest⟩ := bind_eq_ok.1 h
  obtain ⟨b, right, compared⟩ := bind_eq_ok.1 rest
  refine bind_eq_ok.2 ⟨b, right, bind_eq_ok.2 ⟨a, left, ?_⟩⟩
  exact (Value.compareBy_equal_swap oriented a b).trans compared

/-- A column of the table is the same one without the table. -/
theorem column_unqualified (s : Scope) (row : Row) (t : Option String) (n : String) :
    Refines (s.column row t n) (s.column row none n) := by
  intro v h
  obtain ⟨i, found, rest⟩ := bind_eq_ok.1 h
  exact bind_eq_ok.2 ⟨i, columnIndex_eq_ok.2 ⟨rfl, (columnIndex_eq_ok.1 found).2⟩, rest⟩

end Expr

namespace IndexLookup

/-- The row is one that the lookup asks for: the equality holds for it, or its value of the column equals
one of the constants in the type of the column. -/
def Admits (cmp : Value → Value → Ordering) (s : Scope) (row : Row) : IndexLookup → Prop
  | equality column k =>
    Run.Computes cmp ((Expr.binary .equal (.column none column) k).eval s row) (.ok (.boolean true))
  | inList column ks =>
    ∃ i info v, s.schema.indexOf? column = some i ∧ s.schema.columns[i]? = some info ∧
      row[i]? = some v ∧ ∃ k ∈ ks, ∃ w,
        Run.Computes cmp (Membership.constantValue s.session info.type k) (.ok w) ∧ cmp v w = .eq

variable {cmp : Value → Value → Ordering} {s : Scope} {row : Row} {f f' : Engine} {t : Option String}
  {n : String} {u : Value}

theorem admits_equality {k : Expr} (constant : k.isConstant = true)
    (found : (Expr.binary .equal (.column t n) k).valueAt cmp s row 0 = .ok u) (holds : u.Holds) :
    (equality n k).Admits cmp s row := by
  -- The lookup names the column without its table, which makes no difference to where it is found.
  have bare : (Expr.binary .equal (.column none n) k).valueAt cmp s row 0 = .ok u := by
    have keep := Expr.limitsKeep_refines (s.laxerAt_shallower (Nat.le_refl 0))
    refine keep.here (Refines.congruence.binary .equal ?_ (.refl _)) u found
    exact keep.deeper.here (Expr.column_unqualified s row t n)
  obtain ⟨a, b, _, _, compared⟩ := Expr.equality_eq_ok bare
  have truth : u = .boolean true := by
    simp only [Value.compareBy] at compared
    split at compared
    · cases compared
      cases holds
    · obtain ⟨o, _, rest⟩ := bind_eq_ok.1 compared
      cases o <;> cases rest <;> first | rfl | cases holds
  have free : (Expr.binary .equal (.column none n) k).isCallFree = true :=
    k.isCallFree_of_isConstant constant
  have value := Expr.evalAt_computes cmp s row 0 _ free
  rw [bare, truth] at value
  exact value

theorem admits_inList {m : Membership} (oriented : Std.OrientedCmp cmp) (planned : m.Planned cmp s)
    (plain : m.negated = false) (operand : m.left = .column t n) (comparison : f.compare = cmp)
    (found : (m.evaluateRow s row).outcome f = (.ok u, f')) (holds : u.Holds) :
    (inList n m.constants).Admits cmp s row := by
  obtain ⟨v, g, left, rest⟩ := Run.bind_ok.1 found
  rw [operand] at left
  obtain ⟨value, rfl⟩ := Run.ofExcept_ok.1 (Run.atDepth_ok left)
  obtain ⟨_, _, read, rest⟩ := Run.bind_ok.1 rest
  cases read
  cases rest
  rw [comparison] at holds
  obtain ⟨i, place, item⟩ := bind_eq_ok.1 value
  have type := planned.type t n operand
  change (s.columnIndex t n).toOption.bind _ = some m.leftType at type
  rw [place] at type
  obtain ⟨info, column, fixed⟩ := Option.map_eq_some_iff.1 type
  obtain ⟨ws, history⟩ := planned.history
  obtain ⟨a, inSet, equal⟩ := Membership.hit_of_holds plain holds
  have listed := history.keeps.listed a inSet
  obtain ⟨k, hk, constant, gives⟩ := history.exists_constant a listed
  refine ⟨i, info, v, (Expr.columnIndex_eq_ok.1 place).2, column, ?_, k, hk, a, ?_, ?_⟩
  · cases there : row[i]? with
    | none =>
      simp only [there] at item
      cases item
    | some w =>
      simp only [there] at item
      cases item
      rfl
  · have computes := Membership.constantValue_computes cmp s.session info.type
      (k.isCallFree_of_isConstant constant)
    rw [fixed, gives] at computes
    rw [fixed]
    exact computes
  · rw [oriented.eq_swap, equal]
    rfl

end IndexLookup

namespace Condition

theorem mem_tests_of_conjunct {m : Membership} {cond : Condition} (h : member m ∈ cond.conjuncts) :
    m ∈ cond.tests := by
  induction cond with
  | and l r onLeft onRight =>
    rcases List.mem_append.1 h with h | h
    · exact List.mem_append_left _ (onLeft h)
    · exact List.mem_append_right _ (onRight h)
  | member n =>
    cases List.mem_singleton.1 h
    exact List.mem_cons_self
  | or | expr => cases List.mem_singleton.1 h

/-- A condition offers lookups by columns of the table only, each from a part of its conjunctions that is
a plain test or an equality. Every row for which the condition holds is one that all of them ask for, if
it does not matter which of two values is compared with the other, as with the order of any collation. -/
theorem lookups_admit_row {s : Scope} {x : Expr} {cond : Condition} {e f : Engine}
    (planned : (ofExpr s x).outcome e = (.ok cond, f)) (optimizeInList : Bool) :
    ∀ l ∈ (cond.offerLookups optimizeInList { table := s.schema, tableAlias := s.tableAlias }).lookups,
      (s.schema.indexOf? l.column).isSome = true ∧
        (∃ part ∈ cond.conjuncts, Offers optimizeInList part l) ∧
          (Std.OrientedCmp e.compare → ∀ row g, g.compare = e.compare →
            ((cond.evaluate s row).outcome g).1 = .ok (.boolean true) → l.Admits e.compare s row) := by
  intro l listed
  rw [offerLookups_eq, List.nil_append, List.mem_filterMap] at listed
  obtain ⟨part, inside, offered⟩ := listed
  obtain ⟨offers, t, owned⟩ := partLookup?_cases offered
  obtain ⟨own, known⟩ := Bool.and_eq_true_iff.1 owned
  refine ⟨known, ⟨part, inside, offers⟩, fun oriented row g comparison held => ?_⟩
  have outcome : (cond.evaluate s row).outcome g =
      (.ok (.boolean true), ((cond.evaluate s row).outcome g).2) := by
    rw [← held]
  obtain ⟨u, h, h', same, found, holds⟩ := conjuncts_hold outcome rfl part inside
  have current := same.trans comparison
  have value {y : Expr} (free : y.isCallFree = true) (run : (y.eval s row).outcome h = (.ok u, h')) :
      y.valueAt e.compare s row 0 = .ok u := by
    have pure := y.evalAt_computes e.compare s row 0 free h current
    exact (congrArg Prod.fst pure).symm.trans (congrArg Prod.fst run)
  cases offers with
  | test on plain alone operand =>
    have test := (planned_ofExpr s x planned).2 _ (mem_tests_of_conjunct inside)
    exact IndexLookup.admits_inList oriented test plain operand current found holds
  | @equality t n k constant =>
    have free : (Expr.binary .equal (.column t n) k).isCallFree = true :=
      k.isCallFree_of_isConstant constant
    exact IndexLookup.admits_equality constant (value free found) holds
  | @turned t n k constant =>
    have free : (Expr.binary .equal k (.column t n)).isCallFree = true :=
      Bool.and_eq_true_iff.2 ⟨k.isCallFree_of_isConstant constant, rfl⟩
    have turned := Expr.valueAt_equal_swap oriented k (.column t n) 0 u (value free found)
    exact IndexLookup.admits_equality constant turned holds

/-- `A IN (1, 3, 2)`, with the set that is made of it. -/
def listedTest : Membership :=
  { left := .column none "A", leftType := .integer, negated := false, whenOperand := false,
    constants := [.literal (.integer 1), .literal (.integer 3), .literal (.integer 2)],
    set := ⟨[.integer 1, .integer 2, .integer 3]⟩ }

def twoIsColumn : Expr := .binary .equal (.literal (.integer 2)) (.column none "A")

/-- `2 = A AND (A IN (1, 3) OR A = 2)`, where the list takes in the two. -/
def twoAndListed : Expr :=
  .binary .and twoIsColumn
    (.binary .or (.inList (.column none "A") [.literal (.integer 1), .literal (.integer 3)] false)
      (.binary .equal (.column none "A") (.literal (.integer 2))))

/-- Both lookups that are offered ask for the row with a two. -/
theorem lookups_admit_row_two :
    (ofExpr Expr.integerScope twoAndListed).outcome {} =
        (.ok (and (expr twoIsColumn) (member listedTest)), {}) ∧
      (IndexLookup.equality "A" (.literal (.integer 2))).Admits (Collation.compare {}) Expr.integerScope
        [.integer 2] ∧
      (IndexLookup.inList "A" listedTest.constants).Admits (Collation.compare {}) Expr.integerScope
        [.integer 2] := by
  have planned : (ofExpr Expr.integerScope twoAndListed).outcome {} =
      (.ok (and (expr twoIsColumn) (member listedTest)), {}) := by
    with_unfolding_all rfl
  have held : (((and (expr twoIsColumn) (member listedTest)).evaluate Expr.integerScope
      [.integer 2]).outcome {}).1 = .ok (.boolean true) := by
    with_unfolding_all rfl
  have offered : ((and (expr twoIsColumn) (member listedTest)).offerLookups true
      { table := Expr.integerScope.schema }).lookups =
        [.equality "A" (.literal (.integer 2)), .inList "A" listedTest.constants] := rfl
  have admits (l : IndexLookup) (listed : l ∈ [.equality "A" (.literal (.integer 2)),
      .inList "A" listedTest.constants]) :
      l.Admits (Collation.compare {}) Expr.integerScope [.integer 2] :=
    (lookups_admit_row planned true l (offered ▸ listed)).2.2 (Collation.oriented {}) _ {} rfl held
  exact ⟨planned, admits _ (by simp), admits _ (by simp)⟩

end Condition

end SqlEngine
