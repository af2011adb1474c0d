import SqlEngine.Proofs.ConditionMeaning

/-!
# Merging equalities into tests

A test that takes in an equality converts the constant to the type of the operand, where the equality
alone would compare it as written. So merging can fail where planning without it succeeds, and it keeps
the value on a row where the two verdicts on the constant agree. They do on every row of the right types,
if the constants survive conversion.
-/

namespace SqlEngine

/-- The engine with merging turned on or off. -/
def Engine.withMerging (e : Engine) (merging : Bool) : Engine :=
  { e with settings := { e.settings with optimizeOr := merging } }

namespace Expr

open Condition

/-- Every constant that merging takes in has a value in the type of the operand. -/
def MergedConvert (cmp : Value → Value → Ordering) (s : Scope) : Expr → Prop
  | .binary .and l r => MergedConvert cmp s l ∧ MergedConvert cmp s r
  | .binary .or l r =>
    (MergedConvert cmp s l ∧ MergedConvert cmp s r) ∧
      ∀ m x k, Absorbs cmp true s l r m x k → ∃ w, k.constantIn cmp s.session m.leftType = .ok w
  | .not x => MergedConvert cmp s x
  | _ => True

/-- Beside what the test says on the row, the equality as written and the converted constant have the
same verdict. -/
def VerdictsAgree (cmp : Value → Value → Ordering) (s : Scope) (row : Row) (m : Membership)
    (x k : Expr) : Prop :=
  ∀ u w q, m.left.valueAt cmp s row 0 = .ok u → k.constantIn cmp s.session m.leftType = .ok w →
    x.valueAt cmp s row 0 = .ok q →
    (m.evaluate cmp u).disjoin q =
      (m.evaluate cmp u).disjoin (Value.equality cmp w u).toValue

/-- A test over arrays finds what it takes in. Tests over anything else always do. -/
def FindsArrays (cmp : Value → Value → Ordering) (s : Scope) (row : Row) (m : Membership)
    (k : Expr) : Prop :=
  m.leftType = .array → ∀ u w, m.left.valueAt cmp s row 0 = .ok u →
    k.constantIn cmp s.session m.leftType = .ok w → w.containsNull = false → u.containsNull = false →
    m.FindsAlso cmp w u

/-- On the row the verdicts on all constants that merging takes in agree, and a negation that only
merging makes a test of has the value of that test. -/
def MergesSoundly (cmp : Value → Value → Ordering) (s : Scope) (row : Row) : Expr → Prop
  | .binary .and l r => MergesSoundly cmp s row l ∧ MergesSoundly cmp s row r
  | .binary .or l r =>
    (MergesSoundly cmp s row l ∧ MergesSoundly cmp s row r) ∧
      ∀ m x k, Absorbs cmp true s l r m x k →
        FindsArrays cmp s row m k ∧ VerdictsAgree cmp s row m x k
  | .not x =>
    ∀ m, plan cmp true s x = .ok (member m) → (∀ n, plan cmp false s x ≠ .ok (member n)) →
      ∀ u v, m.left.valueAt cmp s row 0 = .ok u → x.valueAt cmp s row 0 = .ok v →
        (m.evaluate cmp u).logicalNot = v.logicalNot
  | _ => True

/-- What merging takes in survives conversion and was matched by a column or the operand itself, and so
did all constants of a test that only merging makes under a negation. -/
def MergesFaithfully (cmp : Value → Value → Ordering) (s : Scope) : Expr → Prop
  | .binary .and l r => MergesFaithfully cmp s l ∧ MergesFaithfully cmp s r
  | .binary .or l r =>
    (MergesFaithfully cmp s l ∧ MergesFaithfully cmp s r) ∧
      ∀ m x k, Absorbs cmp true s l r m x k →
        m.leftType ≠ .array ∧ k.Survives cmp s.session m.leftType ∧
          ∀ side, x.matched? m.left = some side → side.StandsForOperand m.left
  | .not x =>
    ∀ m, plan cmp true s x = .ok (member m) → (∀ n, plan cmp false s x ≠ .ok (member n)) →
      m.Faithful cmp s.session ∧ x.MergesAlike cmp true s
  | _ => True

end Expr

namespace Condition

open Value Outcome

variable {cmp : Value → Value → Ordering} {s : Scope} {row : Row}

/-- Without merging the sides of a disjunction are left as they are. -/
theorem plan_or_unmerged {l r : Expr} {cond : Condition}
    (h : plan cmp false s (.binary .or l r) = .ok cond) :
    ∃ L R, plan cmp false s l = .ok L ∧ plan cmp false s r = .ok R ∧ cond = or L R := by
  obtain ⟨L, left, rest⟩ := bind_eq_ok.1 h
  obtain ⟨R, right, rest⟩ := bind_eq_ok.1 rest
  cases rest
  exact ⟨L, R, left, right, rfl⟩

theorem joined_isOk_iff {L R : Condition} {session : Nat} :
    (∃ cond, joined cmp true session L R = .ok cond) ↔
      ∀ m x k, pair? L R = some (m, x) → m.mergeable? x = some k →
        ∃ w, k.constantIn cmp session m.leftType = .ok w := by
  unfold joined
  cases pair : pair? L R with
  | none => exact ⟨fun _ => nofun, fun _ => ⟨_, rfl⟩⟩
  | some sides =>
    obtain ⟨m, x⟩ := sides
    simp only [mergedInto]
    constructor
    · rintro ⟨cond, h⟩ n y k same merges
      cases same
      rw [merges] at h
      obtain ⟨w, value, _⟩ := map_eq_ok.1 h
      exact ⟨w, value⟩
    · intro h
      cases merges : m.mergeable? x with
      | none => exact ⟨_, rfl⟩
      | some k =>
        obtain ⟨w, value⟩ := h m x k rfl merges
        exact ⟨_, map_eq_ok.2 ⟨w, value, rfl⟩⟩

/-- Where planning without merging succeeds, planning with merging does so exactly if all constants
that are taken in can be converted. -/
theorem plan_isOk_iff (cmp : Value → Value → Ordering) (s : Scope) :
    ∀ (x : Expr) (cond₀ : Condition), plan cmp false s x = .ok cond₀ →
      ((∃ cond, plan cmp true s x = .ok cond) ↔ x.MergedConvert cmp s)
  | .binary op l r, cond₀, unmerged => by
    cases op with
    | and =>
      obtain ⟨L₀, left₀, rest⟩ := bind_eq_ok.1 unmerged
      obtain ⟨R₀, right₀, _⟩ := bind_eq_ok.1 rest
      have onLeft := plan_isOk_iff cmp s l L₀ left₀
      have onRight := plan_isOk_iff cmp s r R₀ right₀
      constructor
      · rintro ⟨cond, h⟩
        obtain ⟨L, left, rest⟩ := bind_eq_ok.1 h
        obtain ⟨R, right, _⟩ := bind_eq_ok.1 rest
        exact ⟨onLeft.1 ⟨L, left⟩, onRight.1 ⟨R, right⟩⟩
      · rintro ⟨convertLeft, convertRight⟩
        obtain ⟨L, left⟩ := onLeft.2 convertLeft
        obtain ⟨R, right⟩ := onRight.2 convertRight
        exact ⟨_, bind_eq_ok.2 ⟨L, left, bind_eq_ok.2 ⟨R, right, rfl⟩⟩⟩
    | or =>
      obtain ⟨L₀, R₀, left₀, right₀, _⟩ := plan_or_unmerged unmerged
      have onLeft := plan_isOk_iff cmp s l L₀ left₀
      have onRight := plan_isOk_iff cmp s r R₀ right₀
      constructor
      · rintro ⟨cond, h⟩
        obtain ⟨L, left, rest⟩ := bind_eq_ok.1 h
        obtain ⟨R, right, rest⟩ := bind_eq_ok.1 rest
        refine ⟨⟨onLeft.1 ⟨L, left⟩, onRight.1 ⟨R, right⟩⟩, ?_⟩
        intro m x k absorbs
        obtain ⟨L', R', left', right', pair⟩ := absorbs.sides
        cases left.symm.trans left'
        cases right.symm.trans right'
        exact joined_isOk_iff.1 ⟨cond, rest⟩ m x k pair absorbs.merges
      · rintro ⟨⟨convertLeft, convertRight⟩, converts⟩
        obtain ⟨L, left⟩ := onLeft.2 convertLeft
        obtain ⟨R, right⟩ := onRight.2 convertRight
        obtain ⟨cond, h⟩ := joined_isOk_iff.2 fun m x k pair merges =>
          converts m x k ⟨rfl, ⟨L, R, left, right, pair⟩, merges⟩
        exact ⟨cond, bind_eq_ok.2 ⟨L, left, bind_eq_ok.2 ⟨R, right, h⟩⟩⟩
    | _ => exact ⟨fun _ => trivial, fun _ => ⟨_, rfl⟩⟩
  | .not x, cond₀, unmerged => by
    obtain ⟨inner, operand, _⟩ := map_eq_ok.1 unmerged
    have inside := plan_isOk_iff cmp s x inner operand
    constructor
    · rintro ⟨cond, h⟩
      obtain ⟨merged, operand, _⟩ := map_eq_ok.1 h
      exact inside.1 ⟨merged, operand⟩
    · intro converts
      obtain ⟨merged, operand⟩ := inside.2 converts
      exact ⟨_, map_eq_ok.2 ⟨merged, operand, rfl⟩⟩
  | .inList .., cond₀, unmerged => ⟨fun _ => trivial, fun _ => ⟨cond₀, unmerged⟩⟩
  | .literal _, _, _ | .column .., _, _ | .negate _, _, _ | .isNull .., _, _ | .cast .., _, _
  | .call .., _, _ => ⟨fun _ => trivial, fun _ => ⟨_, rfl⟩⟩

/-- What becomes a test without merging becomes the same test with it. -/
theorem plan_member_merged (cmp : Value → Value → Ordering) (s : Scope) :
    ∀ (x : Expr) (m : Membership) (cond : Condition), plan cmp false s x = .ok (member m) →
      plan cmp true s x = .ok cond → cond = member m
  | .binary op l r, m, cond, unmerged, merged => by
    cases op with
    | and =>
      obtain ⟨L, _, rest⟩ := bind_eq_ok.1 unmerged
      obtain ⟨R, _, rest⟩ := bind_eq_ok.1 rest
      cases rest
    | or =>
      obtain ⟨L, R, _, _, h⟩ := plan_or_unmerged unmerged
      cases h
    | _ => cases unmerged
  | .not x, m, cond, unmerged, merged => by
    obtain ⟨inner₀, operand₀, opposes₀⟩ := map_eq_ok.1 unmerged
    obtain ⟨inner, operand, opposes⟩ := map_eq_ok.1 merged
    rcases opposed_cases x inner₀ with ⟨n, rfl, _, _⟩ | written
    · rw [plan_member_merged cmp s x n inner operand₀ operand] at opposes
      exact opposes.symm.trans opposes₀
    · rw [written] at opposes₀
      cases opposes₀
  | .inList .., m, cond, unmerged, merged => Except.ok.inj (merged.symm.trans unmerged)
  | .literal _, _, _, unmerged, _ | .column .., _, _, unmerged, _ | .negate _, _, _, unmerged, _
  | .isNull .., _, _, unmerged, _ | .cast .., _, _, unmerged, _ | .call .., _, _, unmerged, _ => by
    cases unmerged

/-- What stays an expression with merging stays one without it. -/
theorem plan_expr_unmerged {x y : Expr} {cond : Condition} (free : x.isCallFree = true)
    (merged : plan cmp true s x = .ok (expr y)) (unmerged : plan cmp false s x = .ok cond) :
    cond = expr y := by
  obtain rfl := plan_eq_expr free merged
  cases y with
  | not x =>
    obtain ⟨inner₀, operand₀, opposes₀⟩ := map_eq_ok.1 unmerged
    obtain ⟨inner, operand, opposes⟩ := map_eq_ok.1 merged
    rcases opposed_cases x inner₀ with ⟨n, rfl, _, _⟩ | written
    · rw [plan_member_merged cmp s x n inner operand₀ operand] at opposes
      exact opposes₀.symm.trans opposes
    · exact opposes₀.symm.trans written
  | inList => exact Except.ok.inj (unmerged.symm.trans merged)
  | binary op l r =>
    cases op with
    | and =>
      obtain ⟨L, _, rest⟩ := bind_eq_ok.1 merged
      obtain ⟨R, _, rest⟩ := bind_eq_ok.1 rest
      cases rest
    | or =>
      obtain ⟨L, _, rest⟩ := bind_eq_ok.1 merged
      obtain ⟨R, _, rest⟩ := bind_eq_ok.1 rest
      cases joined_cases rest
    | _ => exact (Except.ok.inj unmerged).symm
  | _ => exact (Except.ok.inj unmerged).symm

/-- A test that an expression became has the value of the expression, if its constants survive
conversion. -/
theorem evaluate_of_faithful {x : Expr} {m : Membership} {u v : Value} (orders : OrdersTypes cmp)
    (typed : s.schema.RowTyped row) (free : x.isCallFree = true)
    (planned : plan cmp true s x = .ok (member m)) (faithful : m.Faithful cmp s.session)
    (alike : x.MergesAlike cmp true s) (left : m.left.valueAt cmp s row 0 = .ok u)
    (value : x.valueAt cmp s row 0 = .ok v) : m.evaluate cmp u = v := by
  have tracked := tracks_plan orders typed x (member m) free planned faithful.alone alike v value
  have keeps := Expr.keepsOrder_of_single cmp true s row x _ planned (.inl ⟨m, rfl⟩)
  obtain ⟨u', left', evaluates⟩ := valueIn_member_eq_ok.1 (tracked.1 keeps)
  cases left.symm.trans left'
  exact evaluates

/-- Where the constants survive conversion, the verdicts agree on every row of the right types. -/
theorem mergesSoundly_of_faithful (orders : OrdersTypes cmp) (typed : s.schema.RowTyped row) :
    ∀ x : Expr, x.isCallFree = true → x.MergesFaithfully cmp s → x.MergesSoundly cmp s row
  | .binary op l r, free, faithful => by
    obtain ⟨freeLeft, freeRight⟩ := Bool.and_eq_true_iff.1 free
    cases op with
    | and =>
      exact ⟨mergesSoundly_of_faithful orders typed l freeLeft faithful.1,
        mergesSoundly_of_faithful orders typed r freeRight faithful.2⟩
    | or =>
      obtain ⟨⟨onLeft, onRight⟩, here⟩ := faithful
      refine ⟨⟨mergesSoundly_of_faithful orders typed l freeLeft onLeft,
        mergesSoundly_of_faithful orders typed r freeRight onRight⟩, ?_⟩
      intro m x k absorbs
      obtain ⟨scalar, survives, operand⟩ := here m x k absorbs
      refine ⟨fun array => absurd array scalar, ?_⟩
      intro u w q left value second
      obtain ⟨ws, stands⟩ := absorbs.stands freeLeft freeRight
      obtain ⟨u', left', rfl⟩ :=
        equality_of_survives orders stands scalar typed absorbs.merges operand survives value second
      cases left.symm.trans left'
      rfl
    | _ => trivial
  | .not x, free, faithful => by
    intro m operand alone u v left value
    obtain ⟨survive, alike⟩ := faithful m operand alone
    have inside : x.isCallFree = true := free
    rw [evaluate_of_faithful orders typed inside operand survive alike left value]
  | .inList .., _, _ | .literal _, _, _ | .column .., _, _ | .negate _, _, _ | .isNull .., _, _
  | .cast .., _, _ => trivial

section absorbed

variable {m : Membership} {ws : List Value} {x k : Expr} {w v₀ v₁ : Value}

theorem compareBy_truth {cmp : Value → Value → Ordering} {op : BinaryOp} {a b q : Value}
    (h : compareBy cmp op a b = .ok q) : ∃ t : Truth, q = t.toValue := by
  simp only [compareBy] at h
  split at h
  · cases h
    exact ⟨.unknown, rfl⟩
  · obtain ⟨o, _, rest⟩ := bind_eq_ok.1 h
    cases accepts : op.accepts? o with
    | none =>
      simp only [accepts] at rest
      cases rest
    | some b =>
      simp only [accepts] at rest
      cases rest
      cases b with
      | false => exact ⟨.fails, rfl⟩
      | true => exact ⟨.holds, rfl⟩

theorem equality_truth {depth : Nat} {q : Value} (merges : m.mergeable? x = some k)
    (found : x.valueAt cmp s row depth = .ok q) : ∃ t : Truth, q = t.toValue := by
  obtain ⟨_, equals, _⟩ := mergeable?_eq_some.1 merges
  obtain ⟨side, _, _, rfl | rfl⟩ := Expr.ifEquals?_cases equals
  · obtain ⟨a, b, _, _, compared⟩ := Expr.equality_eq_ok found
    exact compareBy_truth compared
  · obtain ⟨a, b, _, _, compared⟩ := Expr.equality_eq_ok found
    exact compareBy_truth compared

/-- A test that took in an equality has the value of the disjunction exactly if the verdicts agree. -/
theorem absorbed_eq_iff {test : Outcome} (orders : OrdersTypes cmp) (stands : m.StandsFor cmp s ws)
    (typed : s.schema.RowTyped row) (merges : m.mergeable? x = some k)
    (value : k.constantIn cmp s.session m.leftType = .ok w)
    (finds : Expr.FindsArrays cmp s row m k)
    (agrees : Agree test ((member m).valueIn cmp s row))
    (unmerged : Outcome.disjoin test (x.valueAt cmp s row 0) = .ok v₀ ∨
      Outcome.disjoin (x.valueAt cmp s row 0) test = .ok v₀)
    (merged : (member (m.absorb cmp k w)).valueIn cmp s row = .ok v₁) :
    v₁ = v₀ ↔ Expr.VerdictsAgree cmp s row m x k := by
  obtain ⟨u, left, rfl⟩ := valueIn_member_eq_ok.1 merged
  rw [Membership.absorb_left] at left
  have plain : m.negated = false := (mergeable?_eq_some.1 merges).1.1
  have grown := evaluate_absorb (k := k) plain fun hw hu => show m.FindsAlso cmp w u by
    by_cases array : m.leftType = .array
    · exact finds array u w left value hw hu
    · exact Membership.findsAlso_left orders stands array typed value left hw hu
  obtain ⟨t, verdict⟩ := Membership.evaluate_truth cmp m u
  have sameTest (a : Value) (first : test = .ok a) : a = t.toValue := by
    rw [← verdict]
    exact (agrees a _ first (valueIn_member_eq_ok.2 ⟨u, left, rfl⟩)).symm
  obtain ⟨whole, decided⟩ := disjoin_either sameTest (fun q => equality_truth merges) unmerged
  rw [← verdict] at whole decided
  constructor
  · intro same u' w' q left' value' second
    obtain rfl := Except.ok.inj (left.symm.trans left')
    obtain rfl := Except.ok.inj (value.symm.trans value')
    rw [whole q second, grown, same]
  · intro agree
    rcases decided with ⟨q, second⟩ | ⟨holds, rfl⟩
    · have both := agree u w q left value second
      rw [whole q second, grown] at both
      exact (Except.ok.inj both).symm
    · rw [holds] at grown
      exact Value.disjoin_true (Value.disjoin_comm _ _ grown)

end absorbed

/-- A disjunction that became a test: what it was without merging agrees with the test exactly if the
verdicts agree. -/
theorem absorbs_eq_iff {l r x k : Expr} {m : Membership} {cond₀ cond₁ : Condition} {v₀ v₁ : Value}
    (orders : OrdersTypes cmp) (typed : s.schema.RowTyped row) (freeLeft : l.isCallFree = true)
    (freeRight : r.isCallFree = true) (absorbs : Absorbs cmp true s l r m x k)
    (finds : Expr.FindsArrays cmp s row m k)
    (onLeft : ∀ L₀ L₁, plan cmp false s l = .ok L₀ → plan cmp true s l = .ok L₁ →
      Agree (L₀.valueIn cmp s row) (L₁.valueIn cmp s row))
    (onRight : ∀ R₀ R₁, plan cmp false s r = .ok R₀ → plan cmp true s r = .ok R₁ →
      Agree (R₀.valueIn cmp s row) (R₁.valueIn cmp s row))
    (unmerged : plan cmp false s (.binary .or l r) = .ok cond₀)
    (merged : plan cmp true s (.binary .or l r) = .ok cond₁)
    (value₀ : cond₀.valueIn cmp s row = .ok v₀) (value₁ : cond₁.valueIn cmp s row = .ok v₁) :
    v₁ = v₀ ↔ Expr.VerdictsAgree cmp s row m x k := by
  obtain ⟨L₀, R₀, left₀, right₀, rfl⟩ := plan_or_unmerged unmerged
  obtain ⟨L, R, left, right, pair⟩ := absorbs.sides
  obtain ⟨L', left', rest⟩ := bind_eq_ok.1 merged
  obtain ⟨R', right', rest⟩ := bind_eq_ok.1 rest
  cases left.symm.trans left'
  cases right.symm.trans right'
  have becomes : ∃ w, k.constantIn cmp s.session m.leftType = .ok w ∧
      cond₁ = member (m.absorb cmp k w) := by
    simp only [joined, mergedInto] at rest
    simp only [pair, absorbs.merges] at rest
    obtain ⟨w, value, rfl⟩ := map_eq_ok.1 rest
    exact ⟨w, value, rfl⟩
  obtain ⟨w, value, rfl⟩ := becomes
  obtain ⟨ws, stands⟩ := absorbs.stands freeLeft freeRight
  rcases pair?_eq_some.1 pair with ⟨rfl, rfl⟩ | ⟨rfl, rfl⟩
  · obtain rfl := plan_expr_unmerged freeRight right right₀
    exact absorbed_eq_iff orders stands typed absorbs.merges value finds (onLeft L₀ _ left₀ left)
      (.inl value₀) value₁
  · obtain rfl := plan_expr_unmerged freeLeft left left₀
    exact absorbed_eq_iff orders stands typed absorbs.merges value finds (onRight R₀ _ right₀ right)
      (.inr value₀) value₁

/-- A negation keeps its value, if one that only merging makes a test of does. -/
theorem agree_not {x : Expr} {cond₀ cond₁ : Condition} (free : (Expr.not x).isCallFree = true)
    (unmerged : plan cmp false s (.not x) = .ok cond₀) (merged : plan cmp true s (.not x) = .ok cond₁)
    (sound : (Expr.not x).MergesSoundly cmp s row) :
    Agree (cond₀.valueIn cmp s row) (cond₁.valueIn cmp s row) := by
  obtain ⟨inner, operand, opposes⟩ := map_eq_ok.1 merged
  obtain ⟨inner₀, operand₀, opposes₀⟩ := map_eq_ok.1 unmerged
  rcases opposed_cases x inner with ⟨m, rfl, _, reversed⟩ | written
  · rcases opposed_cases x inner₀ with ⟨n, rfl, _, _⟩ | written₀
    · -- merging had nothing to do with the test
      cases plan_member_merged cmp s x n _ operand₀ operand
      rw [← opposes₀, ← opposes]
      exact .refl _
    · rw [written₀] at opposes₀
      rw [reversed] at opposes
      cases opposes₀
      cases opposes
      intro v₀ v₁ value₀ value₁
      obtain ⟨v, operandValue, negation⟩ := bind_eq_ok.1 (atDepth_refines s 0 _ v₀ value₀)
      have shallow := Expr.valueAt_shallower (Nat.zero_le 1) v operandValue
      obtain ⟨u, left, rfl⟩ := valueIn_member_eq_ok.1 value₁
      have alone (n : Membership) : plan cmp false s x ≠ .ok (member n) := by
        intro already
        cases plan_member_merged cmp s x n _ already operand
        cases operand₀.symm.trans already
        rw [written₀] at reversed
        cases reversed
      have same := sound m operand alone u v left shallow
      rw [Membership.evaluate_negate, negation] at same
      exact Except.ok.inj same
  · rw [written] at opposes
    cases opposes
    cases plan_expr_unmerged free merged unmerged
    exact .refl _

/-- Merging keeps the value on a row where the verdicts agree. -/
theorem agree_plan (orders : OrdersTypes cmp) (typed : s.schema.RowTyped row) :
    ∀ (x : Expr) (cond₀ cond₁ : Condition), x.isCallFree = true → plan cmp false s x = .ok cond₀ →
      plan cmp true s x = .ok cond₁ → x.MergesSoundly cmp s row →
      Agree (cond₀.valueIn cmp s row) (cond₁.valueIn cmp s row)
  | .binary op l r, cond₀, cond₁, free, unmerged, merged, sound => by
    obtain ⟨freeLeft, freeRight⟩ := Bool.and_eq_true_iff.1 free
    cases op with
    | and =>
      obtain ⟨L₀, left₀, rest⟩ := bind_eq_ok.1 unmerged
      obtain ⟨R₀, right₀, rest⟩ := bind_eq_ok.1 rest
      cases rest
      obtain ⟨L, left, rest⟩ := bind_eq_ok.1 merged
      obtain ⟨R, right, rest⟩ := bind_eq_ok.1 rest
      cases rest
      have onLeft := agree_plan orders typed l L₀ L freeLeft left₀ left sound.1
      have onRight := agree_plan orders typed r R₀ R freeRight right₀ right sound.2
      exact .connective false (·.conjoin ·) onLeft onRight
    | or =>
      obtain ⟨⟨soundLeft, soundRight⟩, here⟩ := sound
      have onLeft (L₀ L : Condition) (left₀ : plan cmp false s l = .ok L₀)
          (left : plan cmp true s l = .ok L) : Agree (L₀.valueIn cmp s row) (L.valueIn cmp s row) :=
        agree_plan orders typed l L₀ L freeLeft left₀ left soundLeft
      have onRight (R₀ R : Condition) (right₀ : plan cmp false s r = .ok R₀)
          (right : plan cmp true s r = .ok R) : Agree (R₀.valueIn cmp s row) (R.valueIn cmp s row) :=
        agree_plan orders typed r R₀ R freeRight right₀ right soundRight
      obtain ⟨L₀, R₀, left₀, right₀, h⟩ := plan_or_unmerged unmerged
      obtain ⟨L, left, rest⟩ := bind_eq_ok.1 merged
      obtain ⟨R, right, rest⟩ := bind_eq_ok.1 rest
      have sideLeft := onLeft L₀ L left₀ left
      have sideRight := onRight R₀ R right₀ right
      cases joined_cases rest with
      | apart =>
        rw [h]
        exact .connective true (·.disjoin ·) sideLeft sideRight
      | swapped =>
        rw [h]
        exact sideLeft.swap sideRight
      | @absorbed _ _ m x k w on pair merges value =>
        have absorbs : Absorbs cmp true s l r m x k := ⟨on, ⟨L, R, left, right, pair⟩, merges⟩
        obtain ⟨finds, agree⟩ := here m x k absorbs
        intro v₀ v₁ value₀ value₁
        exact (absorbs_eq_iff orders typed freeLeft freeRight absorbs finds onLeft onRight unmerged merged
          value₀ value₁).2 agree
    | _ =>
      cases unmerged
      cases merged
      exact .refl _
  | .not x, cond₀, cond₁, free, unmerged, merged, sound => agree_not free unmerged merged sound
  | .inList .., cond₀, cond₁, _, unmerged, merged, _ => by
    cases Except.ok.inj (unmerged.symm.trans merged)
    exact .refl _
  | .literal _, _, _, _, unmerged, merged, _ | .column .., _, _, _, unmerged, merged, _
  | .negate _, _, _, _, unmerged, merged, _ | .isNull .., _, _, _, unmerged, merged, _
  | .cast .., _, _, _, unmerged, merged, _ => by
    cases unmerged
    cases merged
    exact .refl _

/-- Merging succeeds exactly if all constants that it takes in can be converted. Where values of one type
are ordered, it keeps the value on a row where the verdicts agree, as they do if the constants survive
conversion, and at the root it does so nowhere else. -/
theorem merging_keeps_value_iff {x : Expr} {cond₀ : Condition} {e : Engine}
    (free : x.isCallFree = true) (typed : s.schema.RowTyped row)
    (unmerged : ((ofExpr s x).outcome (e.withMerging false)).1 = .ok cond₀) :
    ((∃ cond₁, ((ofExpr s x).outcome (e.withMerging true)).1 = .ok cond₁) ↔
        x.MergedConvert e.compare s) ∧
      (OrdersTypes e.compare → ∀ cond₁ v₀ v₁,
        ((ofExpr s x).outcome (e.withMerging true)).1 = .ok cond₁ →
        ((cond₀.evaluate s row).outcome (e.withMerging false)).1 = .ok v₀ →
        ((cond₁.evaluate s row).outcome (e.withMerging true)).1 = .ok v₁ →
        (x.MergesFaithfully e.compare s → v₁ = v₀) ∧
          (x.MergesSoundly e.compare s row → v₁ = v₀) ∧
          ∀ l r m y k, x = .binary .or l r → Absorbs e.compare true s l r m y k →
            l.MergesSoundly e.compare s row → r.MergesSoundly e.compare s row →
            Expr.FindsArrays e.compare s row m k →
            (v₁ = v₀ ↔ Expr.VerdictsAgree e.compare s row m y k)) := by
  rw [fst_ofExpr free] at unmerged
  rw [fst_ofExpr free]
  refine ⟨plan_isOk_iff e.compare s x cond₀ unmerged, ?_⟩
  intro orders cond₁ v₀ v₁ merged value₀ value₁
  rw [fst_evaluate (isCallFree_plan _ _ s x cond₀ free unmerged)] at value₀
  rw [fst_evaluate (isCallFree_plan _ _ s x cond₁ free merged)] at value₁
  have keeps (sound : x.MergesSoundly e.compare s row) : v₁ = v₀ :=
    agree_plan orders typed x cond₀ cond₁ free unmerged merged sound v₀ v₁ value₀ value₁
  refine ⟨fun faithful => keeps (mergesSoundly_of_faithful orders typed x free faithful), keeps, ?_⟩
  rintro l r m y k rfl absorbs soundLeft soundRight finds
  obtain ⟨freeLeft, freeRight⟩ := Bool.and_eq_true_iff.1 free
  exact absorbs_eq_iff orders typed freeLeft freeRight absorbs finds
    (fun L₀ L left₀ left => agree_plan orders typed l L₀ L freeLeft left₀ left soundLeft)
    (fun R₀ R right₀ right => agree_plan orders typed r R₀ R freeRight right₀ right soundRight)
    unmerged merged value₀ value₁

/-- A list of whole numbers over an integer column. -/
def wholeListed : Expr :=
  .inList (.column none "A") [.literal (.integer 1), .literal (.integer 2)] false

def twoAndAHalf : Expr := .literal (.decimal ⟨false, 25, 1, by decide, by decide⟩)

def isTwoAndAHalf : Expr := .binary .equal (.column none "A") twoAndAHalf

/-- On two, which is in the list, the rounding of the other constant does no harm. -/
theorem merging_keeps_value_iff_two :
    Expr.integerScope.schema.RowTyped [.integer 2] ∧
      (Expr.binary .or wholeListed isTwoAndAHalf).MergedConvert (Collation.compare {}) Expr.integerScope ∧
      ∃ m, Absorbs (Collation.compare {}) true Expr.integerScope wholeListed isTwoAndAHalf m isTwoAndAHalf
          twoAndAHalf ∧
        Expr.VerdictsAgree (Collation.compare {}) Expr.integerScope [.integer 2] m isTwoAndAHalf
          twoAndAHalf := by
  have both := merging_keeps_value_iff (x := .binary .or wholeListed isTwoAndAHalf) (e := {}) rfl
    (Expr.rowTyped_integer 2) rfl
  have absorbs : Absorbs (Collation.compare {}) true Expr.integerScope wholeListed isTwoAndAHalf _
      isTwoAndAHalf twoAndAHalf := ⟨rfl, ⟨_, _, rfl, rfl, rfl⟩, rfl⟩
  refine ⟨Expr.rowTyped_integer 2, both.1.1 ⟨_, rfl⟩, _, absorbs, ?_⟩
  -- The search by halving is not structural, so only full unfolding evaluates it.
  have here := (both.2 (Collation.ordersTypes {}) _ (.boolean true) (.boolean true) rfl
    (by with_unfolding_all rfl) (by with_unfolding_all rfl)).2.2
  exact (here wholeListed isTwoAndAHalf _ isTwoAndAHalf twoAndAHalf rfl absorbs trivial trivial
    (fun array => by cases array)).1 rfl

/-- On three merging makes a match of two misses, since the constant is rounded to three. -/
theorem merging_adds_match :
    Expr.integerScope.schema.RowTyped [.integer 3] ∧
      (Expr.binary .or wholeListed isTwoAndAHalf).isCallFree = true ∧
      ∃ cond₀ cond₁,
        ((ofExpr Expr.integerScope (.binary .or wholeListed isTwoAndAHalf)).outcome
          (({} : Engine).withMerging false)).1 = .ok cond₀ ∧
        ((ofExpr Expr.integerScope (.binary .or wholeListed isTwoAndAHalf)).outcome
          (({} : Engine).withMerging true)).1 = .ok cond₁ ∧
        ((cond₀.evaluate Expr.integerScope [.integer 3]).outcome (({} : Engine).withMerging false)).1 =
          .ok (.boolean false) ∧
        ((cond₁.evaluate Expr.integerScope [.integer 3]).outcome (({} : Engine).withMerging true)).1 =
          .ok (.boolean true) := by
  refine ⟨Expr.rowTyped_integer 3, rfl, _, _, rfl, rfl, ?_, ?_⟩
  · with_unfolding_all rfl
  · with_unfolding_all rfl

end Condition

end SqlEngine
