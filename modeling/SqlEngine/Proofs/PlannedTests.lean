import SqlEngine.Proofs.Planning

/-!
# The tests of a plan

Every test that planning makes, from a list, by a negation or by taking in an equality, stands for the
values of its constants in the type of its operand.
-/

namespace SqlEngine

namespace Expr

variable {cmp : Value → Value → Ordering} {session : Nat} {t : DataType} {k : Expr} {w : Value}

theorem constantIn_eq_ok :
    k.constantIn cmp session t = .ok w ↔
      ∃ a, k.valueAt cmp (.constants session) [] 0 = .ok a ∧ a.convert t = .ok w := by
  constructor
  · intro h
    obtain ⟨a, found, converted⟩ := bind_eq_ok.1 h
    exact ⟨a, found, Value.convertOrFail_eq_ok.1 converted⟩
  · rintro ⟨a, found, converted⟩
    exact bind_eq_ok.2 ⟨a, found, Value.convertOrFail_eq_ok.2 converted⟩

theorem ofType_constantIn (h : k.constantIn cmp session t = .ok w) (present : w.containsNull = false) :
    Value.OfType t w := by
  obtain ⟨a, _, converted⟩ := constantIn_eq_ok.1 h
  exact Value.ofType_of_present (Value.hasType_convert converted) present

end Expr

namespace Membership

open Value

variable {cmp : Value → Value → Ordering} {s : Scope} {m m' : Membership} {k : Expr} {w : Value}
  {ws : List Value}

section add

variable (cmp : Value → Value → Ordering) (m : Membership) (w : Value)

@[simp] theorem add_left : (m.add cmp w).left = m.left := by
  simp only [add]
  split <;> rfl

@[simp] theorem add_leftType : (m.add cmp w).leftType = m.leftType := by
  simp only [add]
  split <;> rfl

@[simp] theorem add_whenOperand : (m.add cmp w).whenOperand = m.whenOperand := by
  simp only [add]
  split <;> rfl

@[simp] theorem add_constants : (m.add cmp w).constants = m.constants := by
  simp only [add]
  split <;> rfl

end add

section absorb

variable (cmp : Value → Value → Ordering) (m : Membership) (k : Expr) (w : Value)

@[simp] theorem absorb_left : (m.absorb cmp k w).left = m.left := add_left ..

@[simp] theorem absorb_leftType : (m.absorb cmp k w).leftType = m.leftType := add_leftType ..

@[simp] theorem absorb_whenOperand : (m.absorb cmp k w).whenOperand = m.whenOperand :=
  add_whenOperand ..

@[simp] theorem absorb_constants : (m.absorb cmp k w).constants = m.constants ++ [k] :=
  add_constants ..

end absorb

/-- The test stands for these values of its constants, and its set for them where values of the type are
ordered. -/
structure StandsFor (cmp : Value → Value → Ordering) (s : Scope) (m : Membership) (ws : List Value) :
    Prop where
  free : m.left.isCallFree = true
  type : m.left.staticType s = some m.leftType
  alone : m.whenOperand = false
  constant : Expr.allConstant m.constants = true
  values : List.Forall₂ (fun k w => k.constantIn cmp s.session m.leftType = .ok w) m.constants ws
  represents : OrdersTypes cmp → m.leftType ≠ .array → m.Represents (OfType m.leftType) cmp ws

theorem represents_gathered {session : Nat} {ks : List Expr} (h : m.gathered cmp session ks = .ok m') :
    ∃ ws, List.Forall₂ (fun k w => k.constantIn cmp session m.leftType = .ok w) ks ws ∧
      m' = { m with set := m'.set, hasNull := m'.hasNull } ∧
      (OrdersTypes cmp → m.leftType ≠ .array → ∀ us, m.Represents (OfType m.leftType) cmp us →
        m'.Represents (OfType m.leftType) cmp (us ++ ws)) := by
  induction ks generalizing m with
  | nil =>
    cases h
    refine ⟨[], .nil, rfl, fun _ _ us old => ?_⟩
    rwa [List.append_nil]
  | cons k rest ih =>
    obtain ⟨w, value, next⟩ := bind_eq_ok.1 h
    obtain ⟨ws, values, same, grown⟩ := ih next
    rw [add_leftType] at values grown
    refine ⟨w :: ws, .cons value values, ?_, fun orders scalar us old => ?_⟩
    · rw [same]
      simp only [add]
      split <;> rfl
    · have taken := represents_add (orders.orderedOn_type scalar) old (Expr.ofType_constantIn value)
      have all := grown orders scalar (us ++ [w]) taken
      rwa [List.append_assoc] at all

theorem standsFor_built {left : Expr} {type : DataType} {negated : Bool} {constants : List Expr}
    (free : left.isCallFree = true) (typed : left.staticType s = some type)
    (constant : Expr.allConstant constants = true)
    (h : built cmp s.session left type negated constants = .ok m) :
    m.left = left ∧ m.negated = negated ∧ m.constants = constants ∧ ∃ ws, m.StandsFor cmp s ws := by
  simp only [built] at h
  split at h
  · cases h
  · obtain ⟨ws, values, same, grown⟩ := represents_gathered h
    simp only [] at values grown
    rw [same]
    refine ⟨rfl, rfl, rfl, ws, free, typed, rfl, constant, values, fun orders scalar => ?_⟩
    have all := grown orders scalar [] (represents_nil rfl rfl)
    exact ⟨all.sorted, all.equal, all.hasNull⟩

theorem standsFor_absorb (h : m.StandsFor cmp s ws) (constant : k.isConstant = true)
    (value : k.constantIn cmp s.session m.leftType = .ok w) :
    (m.absorb cmp k w).StandsFor cmp s (ws ++ [w]) where
  free := by simp [h.free]
  type := by simp [h.type]
  alone := by simp [h.alone]
  constant := by
    rw [absorb_constants, Expr.allConstant_iff]
    intro x hx
    rcases List.mem_append.1 hx with old | new
    · exact (Expr.allConstant_iff _).1 h.constant x old
    · rw [List.mem_singleton.1 new]
      exact constant
  values := by
    rw [absorb_constants, absorb_leftType]
    exact List.rel_append h.values (.cons value .nil)
  represents := by
    rw [absorb_leftType]
    intro orders scalar
    obtain ⟨sorted, equal, hasNull⟩ := h.represents orders scalar
    exact represents_add (orders.orderedOn_type scalar) ⟨sorted, equal, hasNull⟩
      (Expr.ofType_constantIn value)

theorem standsFor_negate {b : Bool} (h : m.StandsFor cmp s ws) :
    { m with negated := b }.StandsFor cmp s ws := by
  refine ⟨h.free, h.type, h.alone, h.constant, h.values, fun orders scalar => ?_⟩
  obtain ⟨sorted, equal, hasNull⟩ := h.represents orders scalar
  exact ⟨sorted, equal, hasNull⟩

/-- A value of the operand has the type of the test. -/
theorem hasType_left {row : Row} {u : Value} {depth : Nat} (h : m.StandsFor cmp s ws)
    (typed : s.schema.RowTyped row) (value : m.left.valueAt cmp s row depth = .ok u) :
    u.HasType m.leftType :=
  Expr.hasType_valueAt typed h.free h.type value

/-- Whether the operand is among the values is what a test over scalars says. -/
theorem evaluate_among {row : Row} {u : Value} {depth : Nat} (orders : OrdersTypes cmp)
    (h : m.StandsFor cmp s ws) (scalar : m.leftType ≠ .array) (typed : s.schema.RowTyped row)
    (value : m.left.valueAt cmp s row depth = .ok u) :
    m.evaluate cmp u = ((among cmp ws u).flipped m.negated).toValue := by
  refine evaluate_eq (orders.orderedOn_type scalar) (h.represents orders scalar) fun present => ?_
  exact ofType_of_present (hasType_left h typed value) present

/-- A test over scalars finds what it takes in. -/
theorem findsAlso_left {row : Row} {u : Value} {depth : Nat} (orders : OrdersTypes cmp)
    (h : m.StandsFor cmp s ws) (scalar : m.leftType ≠ .array) (typed : s.schema.RowTyped row)
    (taken : k.constantIn cmp s.session m.leftType = .ok w)
    (value : m.left.valueAt cmp s row depth = .ok u) (hw : w.containsNull = false)
    (hu : u.containsNull = false) : m.FindsAlso cmp w u := by
  refine findsAlso_of_sorted (orders.orderedOn_type scalar) (h.represents orders scalar).sorted
    (Expr.ofType_constantIn taken hw) ?_
  exact ofType_of_present (hasType_left h typed value) hu

end Membership

namespace Condition

variable {cmp : Value → Value → Ordering} {merging : Bool} {s : Scope} {session : Nat}

/-- What becomes of a disjunction: the sides are left as they are, a test behind an expression comes
first, or the test takes in the expression. -/
inductive Joined (cmp : Value → Value → Ordering) (merging : Bool) (session : Nat) :
    Condition → Condition → Condition → Prop
  | apart {L R} (kept : merging = true → ∀ x m, ¬ (L = expr x ∧ R = member m)) :
      Joined cmp merging session L R (or L R)
  | swapped {x m} (on : merging = true) (barred : m.mergeable? x = none) :
      Joined cmp merging session (expr x) (member m) (or (member m) (expr x))
  | absorbed {L R m x k w} (on : merging = true) (pair : pair? L R = some (m, x))
      (merges : m.mergeable? x = some k) (value : k.constantIn cmp session m.leftType = .ok w) :
      Joined cmp merging session L R (member (m.absorb cmp k w))

theorem pair?_eq_some {L R : Condition} {m : Membership} {x : Expr} :
    pair? L R = some (m, x) ↔ (L = member m ∧ R = expr x) ∨ (L = expr x ∧ R = member m) := by
  constructor
  · intro h
    cases L <;> cases R <;> cases h
    · exact .inl ⟨rfl, rfl⟩
    · exact .inr ⟨rfl, rfl⟩
  · rintro (⟨rfl, rfl⟩ | ⟨rfl, rfl⟩) <;> rfl

theorem joined_cases {L R cond : Condition} (h : joined cmp merging session L R = .ok cond) :
    Joined cmp merging session L R cond := by
  unfold joined at h
  cases merging with
  | false =>
    cases h
    exact .apart nofun
  | true =>
    cases pair : pair? L R with
    | none =>
      simp only [pair] at h
      cases h
      refine .apart fun _ x m => ?_
      rintro ⟨rfl, rfl⟩
      cases pair
    | some sides =>
      obtain ⟨m, x⟩ := sides
      simp only [pair] at h
      simp only [mergedInto] at h
      cases merges : m.mergeable? x with
      | none =>
        simp only [merges] at h
        cases h
        rcases pair?_eq_some.1 pair with ⟨rfl, rfl⟩ | ⟨rfl, rfl⟩
        · refine .apart fun _ y n => ?_
          rintro ⟨first, _⟩
          cases first
        · exact .swapped rfl merges
      | some k =>
        simp only [merges] at h
        obtain ⟨w, value, rfl⟩ := map_eq_ok.1 h
        exact .absorbed rfl pair merges value

/-- What becomes of a negation: a test is reversed, anything else stays as it was written. -/
theorem opposed_cases (x : Expr) (cond : Condition) :
    (∃ m, cond = member m ∧ m.whenOperand = false ∧
      opposed x cond = member { m with negated := !m.negated }) ∨
      opposed x cond = expr (.not x) := by
  cases cond with
  | member m =>
    cases alone : m.whenOperand with
    | false =>
      refine .inl ⟨m, rfl, alone, ?_⟩
      simp [opposed, member?, Membership.negate?, alone]
    | true =>
      refine .inr ?_
      simp [opposed, member?, Membership.negate?, alone]
  | _ => exact .inr rfl

/-- A list becomes a test of its constants, or stays as it was written. -/
theorem plan_inList {left : Expr} {constants : List Expr} {negated : Bool} {cond : Condition}
    (free : left.isCallFree = true)
    (h : plan cmp merging s (.inList left constants negated) = .ok cond) :
    (∃ m, cond = member m ∧ m.left = left ∧ m.negated = negated ∧ m.constants = constants ∧
      ∃ ws, m.StandsFor cmp s ws) ∨ cond = expr (.inList left constants negated) := by
  simp only [plan] at h
  by_cases listed : 2 ≤ constants.length ∧ Expr.allConstant constants = true
  · rw [if_pos listed] at h
    cases type : left.staticType s with
    | none =>
      simp only [type] at h
      cases h
      exact .inr rfl
    | some t =>
      simp only [type] at h
      obtain ⟨m, build, rfl⟩ := map_eq_ok.1 h
      have stands := Membership.standsFor_built free type listed.2 build
      exact .inl ⟨m, rfl, stands⟩
  · rw [if_neg listed] at h
    cases h
    exact .inr rfl

/-- An expression that stays one is left as it was written. -/
theorem plan_eq_expr {x y : Expr} (free : x.isCallFree = true)
    (h : plan cmp merging s x = .ok (expr y)) : y = x := by
  cases x with
  | not x =>
    obtain ⟨cond, _, opposes⟩ := map_eq_ok.1 h
    rcases opposed_cases x cond with ⟨m, _, _, reversed⟩ | written
    · rw [reversed] at opposes
      cases opposes
    · rw [written] at opposes
      cases opposes
      rfl
  | inList left constants negated =>
    rcases plan_inList (Bool.and_eq_true_iff.1 free).1 h with ⟨m, test, _⟩ | written
    · cases test
    · cases written
      rfl
  | binary op l r =>
    cases op with
    | and =>
      obtain ⟨L, _, rest⟩ := bind_eq_ok.1 h
      obtain ⟨R, _, rest⟩ := bind_eq_ok.1 rest
      cases rest
    | or =>
      obtain ⟨L, _, rest⟩ := bind_eq_ok.1 h
      obtain ⟨R, _, rest⟩ := bind_eq_ok.1 rest
      cases joined_cases rest
    | _ =>
      cases h
      rfl
  | _ =>
    cases h
    rfl

/-- Every test that planning ends with stands for the values of its constants. -/
theorem standsFor_plan (cmp : Value → Value → Ordering) (merging : Bool) (s : Scope) :
    ∀ (x : Expr) (m : Membership), x.isCallFree = true → plan cmp merging s x = .ok (member m) →
      ∃ ws, m.StandsFor cmp s ws
  | .not x, m, free, h => by
    obtain ⟨cond, inner, opposes⟩ := map_eq_ok.1 h
    rcases opposed_cases x cond with ⟨n, rfl, _, reversed⟩ | written
    · rw [reversed] at opposes
      cases opposes
      obtain ⟨ws, stands⟩ := standsFor_plan cmp merging s x n free inner
      exact ⟨ws, Membership.standsFor_negate stands⟩
    · rw [written] at opposes
      cases opposes
  | .inList left constants negated, m, free, h => by
    rcases plan_inList (Bool.and_eq_true_iff.1 free).1 h with ⟨n, test, _, _, _, stands⟩ | written
    · cases test
      exact stands
    · cases written
  | .binary op l r, m, free, h => by
    obtain ⟨freeLeft, freeRight⟩ := Bool.and_eq_true_iff.1 free
    cases op with
    | and =>
      obtain ⟨L, _, rest⟩ := bind_eq_ok.1 h
      obtain ⟨R, _, rest⟩ := bind_eq_ok.1 rest
      cases rest
    | or =>
      obtain ⟨L, left, rest⟩ := bind_eq_ok.1 h
      obtain ⟨R, right, rest⟩ := bind_eq_ok.1 rest
      cases joined_cases rest with
      | @absorbed _ _ n _ _ _ on pair merges value =>
        obtain ⟨_, _, constant⟩ := mergeable?_eq_some.1 merges
        rcases pair?_eq_some.1 pair with ⟨rfl, rfl⟩ | ⟨rfl, rfl⟩
        · obtain ⟨ws, stands⟩ := standsFor_plan cmp merging s l n freeLeft left
          exact ⟨_, Membership.standsFor_absorb stands constant value⟩
        · obtain ⟨ws, stands⟩ := standsFor_plan cmp merging s r n freeRight right
          exact ⟨_, Membership.standsFor_absorb stands constant value⟩
    | _ => cases h
  | .literal _, _, _, h | .column .., _, _, h | .negate _, _, _, h | .isNull .., _, _, h
  | .cast .., _, _, h | .call .., _, _, h => by cases h

/-- The condition of an expression without calls is without calls. -/
theorem isCallFree_plan (cmp : Value → Value → Ordering) (merging : Bool) (s : Scope) :
    ∀ (x : Expr) (cond : Condition), x.isCallFree = true → plan cmp merging s x = .ok cond →
      cond.isCallFree = true
  | .not x, cond, free, h => by
    obtain ⟨inner, operand, opposes⟩ := map_eq_ok.1 h
    rcases opposed_cases x inner with ⟨m, rfl, _, reversed⟩ | written
    · rw [reversed] at opposes
      cases opposes
      exact isCallFree_plan cmp merging s x (member m) free operand
    · rw [written] at opposes
      cases opposes
      exact free
  | .inList left constants negated, cond, free, h => by
    rcases plan_inList (Bool.and_eq_true_iff.1 free).1 h with ⟨m, rfl, _, _, _, ws, stands⟩ | rfl
    · exact stands.free
    · exact free
  | .binary op l r, cond, free, h => by
    obtain ⟨freeLeft, freeRight⟩ := Bool.and_eq_true_iff.1 free
    have both {L R : Condition} (left : plan cmp merging s l = .ok L)
        (right : plan cmp merging s r = .ok R) :
        L.isCallFree = true ∧ R.isCallFree = true :=
      ⟨isCallFree_plan cmp merging s l L freeLeft left, isCallFree_plan cmp merging s r R freeRight right⟩
    cases op with
    | and =>
      obtain ⟨L, left, rest⟩ := bind_eq_ok.1 h
      obtain ⟨R, right, rest⟩ := bind_eq_ok.1 rest
      cases rest
      exact Bool.and_eq_true_iff.2 (both left right)
    | or =>
      obtain ⟨L, left, rest⟩ := bind_eq_ok.1 h
      obtain ⟨R, right, rest⟩ := bind_eq_ok.1 rest
      have sides := both left right
      cases joined_cases rest with
      | apart => exact Bool.and_eq_true_iff.2 sides
      | swapped => exact Bool.and_eq_true_iff.2 sides.symm
      | absorbed on pair merges value =>
        change (Membership.absorb _ _ _ _).left.isCallFree = true
        rw [Membership.absorb_left]
        rcases pair?_eq_some.1 pair with ⟨rfl, rfl⟩ | ⟨rfl, rfl⟩
        · exact sides.1
        · exact sides.2
    | _ =>
      cases h
      exact free
  | .literal _, _, free, h | .column .., _, free, h | .negate _, _, free, h
  | .isNull .., _, free, h | .cast .., _, free, h => by
    cases h
    exact free

section runs

variable {row : Row}

theorem fst_ofExpr {x : Expr} (free : x.isCallFree = true) (e : Engine) :
    ((ofExpr s x).outcome e).1 = plan e.compare e.settings.optimizeOr s x := by
  rw [outcome_ofExpr s e x free]

theorem fst_eval {x : Expr} (free : x.isCallFree = true) (e : Engine) :
    ((x.eval s row).outcome e).1 = x.valueAt e.compare s row 0 := by
  simp only [Expr.eval]
  rw [x.evalAt_computes e.compare s row 0 free e rfl]

theorem fst_evaluate {cond : Condition} (free : cond.isCallFree = true) (e : Engine) :
    ((cond.evaluate s row).outcome e).1 = cond.valueIn e.compare s row := by
  rw [evaluate_computes e.compare s row cond free e rfl]

end runs

end Condition

end SqlEngine
