import SqlEngine.Proofs.MergedEqualities

/-!
# What conditions mean

A condition has the value of the expression that it was made of, as long as the constants survive
conversion and no disjunction was turned around in front of an operand that cannot be evaluated.
-/

namespace SqlEngine

/-- The operand is no array, and all constants survive conversion to its type. -/
def Membership.Faithful (cmp : Value → Value → Ordering) (session : Nat) (m : Membership) : Prop :=
  m.leftType ≠ .array ∧ ∀ k ∈ m.constants, k.Survives cmp session m.leftType

theorem Membership.faithful_absorb {cmp : Value → Value → Ordering} {session : Nat}
    {m : Membership} {k : Expr} {w : Value} :
    (m.absorb cmp k w).Faithful cmp session ↔
      m.Faithful cmp session ∧ k.Survives cmp session m.leftType := by
  simp only [Faithful]
  rw [absorb_leftType, absorb_constants]
  constructor
  · rintro ⟨scalar, survive⟩
    have old (y : Expr) (hy : y ∈ m.constants) := survive y (List.mem_append_left _ hy)
    exact ⟨⟨scalar, old⟩, survive k (List.mem_append_right _ List.mem_cons_self)⟩
  · rintro ⟨⟨scalar, old⟩, new⟩
    refine ⟨scalar, ?_⟩
    intro y hy
    rcases List.mem_append.1 hy with hy | hy
    · exact old y hy
    · rw [List.mem_singleton.1 hy]
      exact new

/-- The tests in a condition. -/
def Condition.tests : Condition → List Membership
  | member m => [m]
  | and l r | or l r => l.tests ++ r.tests
  | expr _ => []

theorem Membership.Faithful.alone {cmp : Value → Value → Ordering} {session : Nat} {m : Membership}
    (faithful : m.Faithful cmp session) : ∀ n ∈ (Condition.member m).tests, n.Faithful cmp session := by
  intro n hn
  rw [List.mem_singleton.1 hn]
  exact faithful

namespace Expr

open Condition

/-- Wherever a test takes in an equality, a column or the operand itself was matched. -/
def MergesAlike (cmp : Value → Value → Ordering) (merging : Bool) (s : Scope) : Expr → Prop
  | .binary .and l r => MergesAlike cmp merging s l ∧ MergesAlike cmp merging s r
  | .binary .or l r =>
    (MergesAlike cmp merging s l ∧ MergesAlike cmp merging s r) ∧
      ∀ m x k side, Absorbs cmp merging s l r m x k → x.matched? m.left = some side →
        side.StandsForOperand m.left
  | .not x => ∀ m, plan cmp merging s x = .ok (member m) → MergesAlike cmp merging s x
  | _ => True

/-- A disjunction that looks at a test before the expression in front of it, without merging them, finds
a value of the operand where the expression alone would have decided. -/
def KeepsOrder (cmp : Value → Value → Ordering) (merging : Bool) (s : Scope) (row : Row) : Expr → Prop
  | .binary .and l r =>
    KeepsOrder cmp merging s row l ∧
      (l.valueAt cmp s row 0 ≠ .ok (.boolean false) → KeepsOrder cmp merging s row r)
  | .binary .or l r =>
    (KeepsOrder cmp merging s row l ∧
      (l.valueAt cmp s row 0 ≠ .ok (.boolean true) → KeepsOrder cmp merging s row r)) ∧
      ∀ x m, merging = true → plan cmp merging s l = .ok (expr x) →
        plan cmp merging s r = .ok (member m) → m.mergeable? x = none →
        l.valueAt cmp s row 0 = .ok (.boolean true) → ∃ u, m.left.valueAt cmp s row 0 = .ok u
  | _ => True

variable {cmp : Value → Value → Ordering} {merging : Bool} {s : Scope} {row : Row}

theorem keepsOrder_or_of_absorbs {l r : Expr} {m : Membership} {y k : Expr}
    (onLeft : l.KeepsOrder cmp merging s row) (onRight : r.KeepsOrder cmp merging s row)
    (absorbs : Absorbs cmp merging s l r m y k) :
    (Expr.binary .or l r).KeepsOrder cmp merging s row := by
  refine ⟨⟨onLeft, fun _ => onRight⟩, fun x n on left right barred _ => ?_⟩
  obtain ⟨L, R, left', right', pair⟩ := absorbs.sides
  cases left.symm.trans left'
  cases right.symm.trans right'
  cases pair
  rw [absorbs.merges] at barred
  cases barred

/-- Sides that are left in their order keep it if each of them does. -/
theorem keepsOrder_or_of_apart (row : Row) {l r : Expr} {L R : Condition}
    (left : plan cmp merging s l = .ok L) (right : plan cmp merging s r = .ok R)
    (kept : merging = true → ∀ x m, ¬ (L = expr x ∧ R = member m)) :
    (Expr.binary .or l r).KeepsOrder cmp merging s row ↔
      l.KeepsOrder cmp merging s row ∧
        (l.valueAt cmp s row 0 ≠ .ok (.boolean true) → r.KeepsOrder cmp merging s row) := by
  refine ⟨fun h => h.1, fun h => ⟨h, ?_⟩⟩
  intro x m on first second _ _
  cases left.symm.trans first
  cases right.symm.trans second
  exact absurd ⟨rfl, rfl⟩ (kept on x m)

/-- Nothing is turned around in what becomes a single test or stays an expression. -/
theorem keepsOrder_of_single (cmp : Value → Value → Ordering) (merging : Bool) (s : Scope) (row : Row) :
    ∀ (x : Expr) (cond : Condition), plan cmp merging s x = .ok cond →
      (∃ m, cond = member m) ∨ (∃ y, cond = expr y) → x.KeepsOrder cmp merging s row
  | .binary op l r, cond, planned, single => by
    cases op with
    | and =>
      obtain ⟨L, _, rest⟩ := bind_eq_ok.1 planned
      obtain ⟨R, _, rest⟩ := bind_eq_ok.1 rest
      cases rest
      rcases single with ⟨m, h⟩ | ⟨y, h⟩ <;> cases h
    | or =>
      obtain ⟨L, left, rest⟩ := bind_eq_ok.1 planned
      obtain ⟨R, right, rest⟩ := bind_eq_ok.1 rest
      cases joined_cases rest with
      | apart | swapped => rcases single with ⟨m, h⟩ | ⟨y, h⟩ <;> cases h
      | @absorbed _ _ m x k w on pair merges value =>
        have absorbs : Absorbs cmp merging s l r m x k := ⟨on, ⟨L, R, left, right, pair⟩, merges⟩
        rcases pair?_eq_some.1 pair with ⟨rfl, rfl⟩ | ⟨rfl, rfl⟩
        · exact keepsOrder_or_of_absorbs
            (keepsOrder_of_single cmp merging s row l _ left (.inl ⟨m, rfl⟩))
            (keepsOrder_of_single cmp merging s row r _ right (.inr ⟨x, rfl⟩)) absorbs
        · exact keepsOrder_or_of_absorbs
            (keepsOrder_of_single cmp merging s row l _ left (.inr ⟨x, rfl⟩))
            (keepsOrder_of_single cmp merging s row r _ right (.inl ⟨m, rfl⟩)) absorbs
    | _ => trivial
  | .not _, _, _, _ | .inList .., _, _, _ | .literal _, _, _, _ | .column .., _, _, _
  | .negate _, _, _, _ | .isNull .., _, _, _ | .cast .., _, _, _ | .call .., _, _, _ => trivial

/-- Without merging nothing is turned around. -/
theorem keepsOrder_unmerged (cmp : Value → Value → Ordering) (s : Scope) (row : Row) :
    ∀ x : Expr, x.KeepsOrder cmp false s row
  | .binary op l r => by
    have onLeft := keepsOrder_unmerged cmp s row l
    have onRight := keepsOrder_unmerged cmp s row r
    cases op with
    | and => exact ⟨onLeft, fun _ => onRight⟩
    | or =>
      refine ⟨⟨onLeft, fun _ => onRight⟩, ?_⟩
      intro x m on
      cases on
    | _ => trivial
  | .not _ | .inList .. | .literal _ | .column .. | .negate _ | .isNull .. | .cast .. | .call .. =>
    trivial

end Expr

namespace Condition

open Value Outcome

variable {cmp : Value → Value → Ordering} {merging : Bool} {s : Scope} {row : Row}

section steps

variable {m : Membership} {ws : List Value} {l r x k : Expr} {w : Value}

/-- Constants that survive conversion compare like their values in the type. -/
theorem compareLike_each {session : Nat} {t : DataType} {u : Value} {ks : List Expr} (row : Row)
    (depth : Nat) (orders : OrdersTypes cmp) (scalar : t ≠ .array) (operand : u.HasType t)
    (values : List.Forall₂ (fun k w => k.constantIn cmp session t = .ok w) ks ws)
    (constant : ∀ k ∈ ks, k.isConstant = true) (survive : ∀ k ∈ ks, k.Survives cmp session t) :
    List.Forall₂ (fun y w => ∀ a, y = .ok a → ComparesLike cmp u a w)
      (Expr.valuesAt cmp s row depth ks) ws := by
  induction values with
  | nil => exact .nil
  | @cons k w ks ws value _ ih =>
    refine .cons (fun a taken => ?_) (ih (fun y hy => constant y (List.mem_cons_of_mem k hy))
      fun y hy => survive y (List.mem_cons_of_mem k hy))
    obtain ⟨a', alone, converted⟩ := Expr.constantIn_eq_ok.1 value
    obtain rfl := Expr.constant_unique (constant k List.mem_cons_self) taken alone
    exact (comparesLike_of_kept orders scalar operand converted
      (survive k List.mem_cons_self a w alone converted)).1

/-- The test of a list has the value that a search of the list has. -/
theorem tracks_list {negated : Bool} (orders : OrdersTypes cmp) (stands : m.StandsFor cmp s ws)
    (faithful : m.Faithful cmp s.session) (typed : s.schema.RowTyped row)
    (opposite : m.negated = negated) :
    Tracks ((Expr.inList m.left m.constants negated).valueAt cmp s row 0)
      ((member m).valueIn cmp s row) True := by
  refine .of_refines fun v found => ?_
  have inside := atDepth_refines s 0 _ v found
  obtain ⟨u, left, _⟩ := bind_eq_ok.1 inside
  have operandTyped := Membership.hasType_left stands typed left
  have each := compareLike_each (s := s) row 1 orders faithful.1 operandTyped stands.values
    ((Expr.allConstant_iff _).1 stands.constant) faithful.2
  have whole := containsNull_of_hasType faithful.1 operandTyped
  refine valueIn_member_eq_ok.2 ⟨u, Expr.valueAt_shallower (Nat.zero_le 1) u left, ?_⟩
  rw [Membership.evaluate_among orders stands faithful.1 typed left, opposite]
  exact (inList_eq left whole each inside).symm

/-- The opposite test has the value of the negation. -/
theorem tracks_negate (inner : Tracks (x.valueAt cmp s row 0) ((member m).valueIn cmp s row) True) :
    Tracks ((Expr.not x).valueAt cmp s row 0)
      ((member { m with negated := !m.negated }).valueIn cmp s row) True := by
  refine .of_refines fun v found => ?_
  have inside := atDepth_refines s 0 _ v found
  obtain ⟨t, operand, negation⟩ := bind_eq_ok.1 inside
  have shallow := Expr.valueAt_shallower (Nat.zero_le 1) t operand
  obtain ⟨u, left, rfl⟩ := valueIn_member_eq_ok.1 ((inner t shallow).1 trivial)
  refine valueIn_member_eq_ok.2 ⟨u, left, ?_⟩
  exact Except.ok.inj ((Membership.evaluate_negate cmp m u).symm.trans negation)

/-- A test that took in an equality has the value of the disjunction, whichever of the two came
first. -/
theorem tracks_absorb {test : Outcome} (orders : OrdersTypes cmp) (stands : m.StandsFor cmp s ws)
    (scalar : m.leftType ≠ .array) (survives : k.Survives cmp s.session m.leftType)
    (typed : s.schema.RowTyped row) (merges : m.mergeable? x = some k)
    (operand : ∀ side, x.matched? m.left = some side → side.StandsForOperand m.left)
    (value : k.constantIn cmp s.session m.leftType = .ok w)
    (tracked : Tracks test ((member m).valueIn cmp s row) True) :
    Tracks (Outcome.disjoin test (x.valueAt cmp s row 0))
        ((member (m.absorb cmp k w)).valueIn cmp s row) True ∧
      Tracks (Outcome.disjoin (x.valueAt cmp s row 0) test)
        ((member (m.absorb cmp k w)).valueIn cmp s row) True := by
  have plain : m.negated = false := (mergeable?_eq_some.1 merges).1.1
  have equality {q : Value} (found : x.valueAt cmp s row 0 = .ok q) :=
    equality_of_survives orders stands scalar typed merges operand survives value found
  have grown {u : Value} (left : m.left.valueAt cmp s row 0 = .ok u) :=
    evaluate_absorb (k := k) plain (Membership.findsAlso_left orders stands scalar typed value left)
  have answer {u v : Value} (left : m.left.valueAt cmp s row 0 = .ok u)
      (h : (m.evaluate cmp u).disjoin (Value.equality cmp w u).toValue = .ok v) :
      (member (m.absorb cmp k w)).valueIn cmp s row = .ok v := by
    refine valueIn_member_eq_ok.2 ⟨u, ?_, Except.ok.inj ((grown left).symm.trans h)⟩
    rw [Membership.absorb_left]
    exact left
  -- both sides were looked at, in whatever order
  have both {t q v : Value} (first : test = .ok t) (second : x.valueAt cmp s row 0 = .ok q)
      (h : t.disjoin q = .ok v) : (member (m.absorb cmp k w)).valueIn cmp s row = .ok v := by
    obtain ⟨u, left, rfl⟩ := valueIn_member_eq_ok.1 ((tracked t first).1 trivial)
    obtain ⟨u', left', rfl⟩ := equality second
    obtain rfl := Except.ok.inj (left.symm.trans left')
    exact answer left h
  refine ⟨.of_refines fun v found => ?_, .of_refines fun v found => ?_⟩
  · rcases disjoin_eq_ok.1 found with ⟨first, rfl⟩ | ⟨t, q, first, _, second, rest⟩
    · obtain ⟨u, left, holds⟩ := valueIn_member_eq_ok.1 ((tracked _ first).1 trivial)
      refine answer left ?_
      rw [holds]
      exact Value.disjoin_comm _ _ (Truth.disjoin_true _)
    · exact both first second rest
  · rcases disjoin_eq_ok.1 found with ⟨second, rfl⟩ | ⟨q, t, second, _, first, rest⟩
    · obtain ⟨u, left, holds⟩ := equality second
      obtain ⟨t, verdict⟩ := Membership.evaluate_truth cmp m u
      refine answer left ?_
      rw [← holds, verdict]
      exact t.disjoin_true
    · exact both first second (Value.disjoin_comm q t rest)

/-- A test in front of the expression that was written before it finds what the disjunction was, where
its operand has a value. -/
theorem tracks_swapped (on : merging = true) (left : plan cmp merging s l = .ok (expr l))
    (right : plan cmp merging s r = .ok (member m)) (barred : m.mergeable? l = none)
    (test : Tracks (r.valueAt cmp s row 0) ((member m).valueIn cmp s row) True) :
    Tracks (Outcome.disjoin (l.valueAt cmp s row 0) (r.valueAt cmp s row 0))
      ((or (member m) (expr l)).valueIn cmp s row)
      ((Expr.binary .or l r).KeepsOrder cmp merging s row) := by
  have truth (v : Value) (h : (member m).valueIn cmp s row = .ok v) : ∃ t : Truth, v = t.toValue := by
    obtain ⟨u, _, rfl⟩ := valueIn_member_eq_ok.1 h
    exact Membership.evaluate_truth cmp m u
  refine (test.swap truth).congr ?_
  constructor
  · intro evaluates
    have written := Expr.keepsOrder_of_single cmp merging s row l _ left (.inr ⟨l, rfl⟩)
    have single := Expr.keepsOrder_of_single cmp merging s row r _ right (.inl ⟨m, rfl⟩)
    refine ⟨⟨written, fun _ => single⟩, ?_⟩
    intro y n _ first second _ decided
    cases right.symm.trans second
    obtain ⟨v, h⟩ := evaluates decided
    obtain ⟨u, operand, _⟩ := valueIn_member_eq_ok.1 h
    exact ⟨u, operand⟩
  · intro keeps decided
    obtain ⟨u, operand⟩ := keeps.2 l m on left right barred decided
    exact ⟨_, valueIn_member_eq_ok.2 ⟨u, operand, rfl⟩⟩

/-- The sides of a connective at the root may be evaluated as roots, too. -/
theorem sides_at_root (cmp : Value → Value → Ordering) (s : Scope) (row : Row) (op : BinaryOp)
    (l r : Expr) :
    Refines ((Expr.binary op l r).valueAt cmp s row 0)
      (Outcome.binary cmp op (l.valueAt cmp s row 0) (r.valueAt cmp s row 0)) := by
  intro v found
  have shallow (x : Expr) : Refines (x.valueAt cmp s row 1) (x.valueAt cmp s row 0) :=
    Expr.valueAt_shallower (Nat.zero_le 1)
  exact Refines.congruence.binary op (shallow l) (shallow r) v (atDepth_refines s 0 _ v found)

end steps

/-- The condition of an expression has its value if order is kept, and none otherwise. -/
theorem tracks_plan (orders : OrdersTypes cmp) (typed : s.schema.RowTyped row) :
    ∀ (x : Expr) (cond : Condition), x.isCallFree = true → plan cmp merging s x = .ok cond →
      (∀ m ∈ cond.tests, m.Faithful cmp s.session) → x.MergesAlike cmp merging s →
      Tracks (x.valueAt cmp s row 0) (cond.valueIn cmp s row) (x.KeepsOrder cmp merging s row)
  | .binary op l r, cond, free, planned, faithful, alike => by
    obtain ⟨freeLeft, freeRight⟩ := Bool.and_eq_true_iff.1 free
    cases op with
    | and =>
      obtain ⟨L, left, rest⟩ := bind_eq_ok.1 planned
      obtain ⟨R, right, rest⟩ := bind_eq_ok.1 rest
      cases rest
      have onLeft := tracks_plan orders typed l L freeLeft left
        (fun m hm => faithful m (List.mem_append_left _ hm)) alike.1
      have onRight := tracks_plan orders typed r R freeRight right
        (fun m hm => faithful m (List.mem_append_right _ hm)) alike.2
      exact (onLeft.conjoin onRight).shallower (sides_at_root cmp s row .and l r)
    | or =>
      obtain ⟨L, left, rest⟩ := bind_eq_ok.1 planned
      obtain ⟨R, right, rest⟩ := bind_eq_ok.1 rest
      obtain ⟨⟨alikeLeft, alikeRight⟩, alikeHere⟩ := alike
      have onLeft := tracks_plan orders typed l L freeLeft left
      have onRight := tracks_plan orders typed r R freeRight right
      have atRoot := sides_at_root cmp s row .or l r
      cases joined_cases rest with
      | apart kept =>
        have sides := (onLeft (fun m hm => faithful m (List.mem_append_left _ hm)) alikeLeft).disjoin
          (onRight (fun m hm => faithful m (List.mem_append_right _ hm)) alikeRight)
        have keeps := Expr.keepsOrder_or_of_apart row left right kept
        exact (sides.congr keeps.symm).shallower atRoot
      | @swapped x m on barred =>
        obtain rfl := plan_eq_expr freeLeft left
        have single := Expr.keepsOrder_of_single cmp merging s row r _ right (.inl ⟨m, rfl⟩)
        have test := (onRight (fun n hn => faithful n (List.mem_append_left _ hn)) alikeRight).congr
          (iff_true_intro single)
        exact (tracks_swapped on left right barred test).shallower atRoot
      | @absorbed _ _ m x k w on pair merges value =>
        have absorbs : Absorbs cmp merging s l r m x k := ⟨on, ⟨L, R, left, right, pair⟩, merges⟩
        have keeps := Expr.keepsOrder_of_single cmp merging s row _ _ planned (.inl ⟨_, rfl⟩)
        obtain ⟨whole, survives⟩ := Membership.faithful_absorb.1 (faithful _ List.mem_cons_self)
        have operand (side : Expr) := alikeHere m x k side absorbs
        obtain ⟨ws, stands⟩ := absorbs.stands freeLeft freeRight
        rcases pair?_eq_some.1 pair with ⟨rfl, rfl⟩ | ⟨rfl, rfl⟩
        · obtain rfl := plan_eq_expr freeRight right
          have test := (onLeft whole.alone alikeLeft).congr (iff_true_intro keeps.1.1)
          have taken := tracks_absorb orders stands whole.1 survives typed merges operand value test
          exact (taken.1.congr (iff_true_intro keeps).symm).shallower atRoot
        · obtain rfl := plan_eq_expr freeLeft left
          have single := Expr.keepsOrder_of_single cmp merging s row r _ right (.inl ⟨m, rfl⟩)
          have test := (onRight whole.alone alikeRight).congr (iff_true_intro single)
          have taken := tracks_absorb orders stands whole.1 survives typed merges operand value test
          exact (taken.2.congr (iff_true_intro keeps).symm).shallower atRoot
    | _ =>
      cases planned
      exact .refl _
  | .not x, cond, free, planned, faithful, alike => by
    obtain ⟨inner, operand, opposes⟩ := map_eq_ok.1 planned
    rcases opposed_cases x inner with ⟨m, rfl, _, reversed⟩ | written
    · rw [reversed] at opposes
      cases opposes
      have same : m.Faithful cmp s.session :=
        faithful { m with negated := !m.negated } List.mem_cons_self
      have test := tracks_plan orders typed x (member m) free operand
        same.alone (alike m operand)
      have keeps := Expr.keepsOrder_of_single cmp merging s row x _ operand (.inl ⟨m, rfl⟩)
      exact tracks_negate (test.congr (iff_true_intro keeps))
    · rw [written] at opposes
      cases opposes
      exact .refl _
  | .inList left constants negated, cond, free, planned, faithful, _ => by
    rcases plan_inList (Bool.and_eq_true_iff.1 free).1 planned with
      ⟨m, rfl, rfl, opposite, rfl, ws, stands⟩ | rfl
    · exact tracks_list orders stands (faithful m List.mem_cons_self) typed opposite
    · exact .refl _
  | .literal _, cond, _, planned, _, _ | .column .., cond, _, planned, _, _
  | .negate _, cond, _, planned, _, _ | .isNull .., cond, _, planned, _, _
  | .cast .., cond, _, planned, _, _ => by
    cases planned
    exact .refl _

/-- Where the values of one type are ordered, as they are under every collation, a condition has the value
that its expression has on a row exactly if order is kept, and no other value in any case. -/
theorem evaluate_eq_eval_iff {x : Expr} {cond : Condition} {v : Value} {e : Engine}
    (orders : OrdersTypes e.compare) (free : x.isCallFree = true) (typed : s.schema.RowTyped row)
    (planned : ((ofExpr s x).outcome e).1 = .ok cond)
    (faithful : ∀ m ∈ cond.tests, m.Faithful e.compare s.session)
    (alike : x.MergesAlike e.compare e.settings.optimizeOr s)
    (value : ((x.eval s row).outcome e).1 = .ok v) :
    (((cond.evaluate s row).outcome e).1 = .ok v ↔
        x.KeepsOrder e.compare e.settings.optimizeOr s row) ∧
      ∀ w, ((cond.evaluate s row).outcome e).1 = .ok w → w = v := by
  rw [fst_ofExpr free] at planned
  rw [fst_eval free] at value
  rw [fst_evaluate (isCallFree_plan _ _ s x cond free planned)]
  obtain ⟨keeps, kept⟩ := tracks_plan orders typed x cond free planned faithful alike v value
  refine ⟨⟨kept v, keeps⟩, fun w got => ?_⟩
  exact Except.ok.inj (got.symm.trans (keeps (kept w got)))

theorem survives_literal {session : Nat} {t : DataType} {v w : Value} (converted : v.convert t = .ok w)
    (kept : v.KeptAs w) : (Expr.literal v).Survives cmp session t := by
  intro a b found again
  cases found
  cases converted.symm.trans again
  exact kept

/-- A column in a list, behind an equality with the same column in other letters. -/
def sevenOrListed : Expr :=
  .binary .or (.binary .equal (.column none "a") (.literal (.integer 7)))
    (.inList (.column none "A")
      [.literal (.integer 1), .literal (.decimal ⟨false, 200, 2, by decide, by decide⟩)] false)

/-- The equality goes into the test, which then holds of seven. -/
theorem evaluate_eq_eval_iff_seven :
    ∃ cond, ((ofExpr Expr.integerScope sevenOrListed).outcome {}).1 = .ok cond ∧
      (∀ m ∈ cond.tests, m.Faithful (Collation.compare {}) 1) ∧
      sevenOrListed.MergesAlike (Collation.compare {}) true Expr.integerScope ∧
      ((sevenOrListed.eval Expr.integerScope [.integer 7]).outcome {}).1 = .ok (.boolean true) ∧
      (((cond.evaluate Expr.integerScope [.integer 7]).outcome {}).1 = .ok (.boolean true) ↔
        sevenOrListed.KeepsOrder (Collation.compare {}) true Expr.integerScope [.integer 7]) ∧
      ∀ w, ((cond.evaluate Expr.integerScope [.integer 7]).outcome {}).1 = .ok w →
        w = .boolean true := by
  refine ⟨_, rfl, ?faithful, ?alike, rfl,
    evaluate_eq_eval_iff (Collation.ordersTypes {}) rfl (Expr.rowTyped_integer 7) rfl ?faithful ?alike
      rfl⟩
  case faithful =>
    intro m hm
    rw [List.mem_singleton.1 hm]
    refine ⟨nofun, ?_⟩
    intro k hk
    rcases List.mem_cons.1 hk with rfl | hk
    · exact survives_literal rfl (.inr (.inl rfl))
    · rcases List.mem_cons.1 hk with rfl | hk
      · exact survives_literal rfl (.inr (.inr ⟨_, _, rfl, rfl, by decide⟩))
      · rw [List.mem_singleton.1 hk]
        exact survives_literal rfl (.inr (.inl rfl))
  case alike =>
    refine ⟨⟨trivial, trivial⟩, fun m x k side absorbs matched => ?_⟩
    obtain ⟨L, R, left, right, pair⟩ := absorbs.sides
    cases left
    cases right
    cases pair
    cases matched
    exact .inr ⟨none, "a", rfl⟩

/-- A scope over one text column. -/
def textScope : Scope := { session := 1, schema := ⟨"T", [⟨"B", .anyVarchar, true⟩]⟩ }

/-- The text of the column as a number in a list, behind an expression that decides alone. -/
def decidedBefore : Expr :=
  .binary .or (.literal (.boolean true))
    (.inList (.cast (.column none "B") .integer) [.literal (.integer 1), .literal (.integer 2)] false)

/-- The condition looks at the list first and fails, since the text is no number. -/
theorem decidedBefore_loses_value :
    decidedBefore.isCallFree = true ∧ textScope.schema.RowTyped [.varchar "abc"] ∧
      ((decidedBefore.eval textScope [.varchar "abc"]).outcome {}).1 = .ok (.boolean true) ∧
      decidedBefore.MergesAlike (Collation.compare {}) true textScope ∧
      ∃ cond, ((ofExpr textScope decidedBefore).outcome {}).1 = .ok cond ∧
        (∀ m ∈ cond.tests, m.Faithful (Collation.compare {}) 1) ∧
        ∃ err, ((cond.evaluate textScope [.varchar "abc"]).outcome {}).1 = .error err := by
  refine ⟨rfl, ?_, rfl, ?_, _, rfl, ?_, _, rfl⟩
  · intro i column v atColumn atRow
    match i with
    | 0 =>
      cases atColumn
      cases atRow
      exact hasType_of_ofType (.varchar fun n hn => nomatch hn)
    | i + 1 => cases atColumn
  · refine ⟨⟨trivial, trivial⟩, fun m x k side absorbs matched => ?_⟩
    obtain ⟨L, R, left, right, pair⟩ := absorbs.sides
    cases left
    cases right
    cases pair
    cases matched
  · intro m hm
    rw [List.mem_singleton.1 hm]
    refine ⟨nofun, ?_⟩
    intro k hk
    rcases List.mem_cons.1 hk with rfl | hk
    · exact survives_literal rfl (.inr (.inl rfl))
    · rw [List.mem_singleton.1 hk]
      exact survives_literal rfl (.inr (.inl rfl))

end Condition

end SqlEngine
