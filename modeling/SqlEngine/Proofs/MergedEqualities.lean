import SqlEngine.Proofs.PlannedTests
import SqlEngine.Proofs.ShortCircuit

/-!
# Equalities and tests of one operand

An equality that a test takes in has a side that was matched with the operand of the test. A constant
that survives conversion to the type of the operand compares with it as its converted form does.
-/

namespace SqlEngine

theorem Text.sameName_congr {a b : String} (h : Text.sameName a b = true) (n : String) :
    Text.sameName n a = Text.sameName n b := by
  simp only [Text.sameName] at *
  rw [beq_iff_eq.1 h]

theorem Outcome.atDepth_refines (s : Scope) (depth : Nat) (x : Outcome) :
    Refines (Outcome.atDepth s depth x) x := by
  rcases Outcome.atDepth_cases s depth x with ⟨_, _, _, deep⟩ | ⟨_, same⟩
  · exact .of_tooDeep ⟨_, _, deep⟩
  · rw [same]
    exact .refl x

namespace Expr

/-- The side of an equality that is matched with the target. -/
def matched? (e target : Expr) : Option Expr :=
  match e with
  | binary .equal l r =>
    if l.sameColumn target then some l else if r.sameColumn target then some r else none
  | _ => none

theorem ifEquals?_cases {x target k : Expr} (h : x.ifEquals? target = some k) :
    ∃ side, x.matched? target = some side ∧ side.sameColumn target = true ∧
      (x = .binary .equal side k ∨ x = .binary .equal k side) := by
  cases x with
  | binary op l r =>
    cases op with
    | equal =>
      simp only [ifEquals?] at h
      unfold matched?
      simp only [] at h ⊢
      by_cases left : l.sameColumn target = true
      · rw [if_pos left] at h ⊢
        cases h
        exact ⟨l, rfl, left, .inl rfl⟩
      · rw [if_neg left] at h ⊢
        by_cases right : r.sameColumn target = true
        · rw [if_pos right] at h ⊢
          cases h
          exact ⟨r, rfl, right, .inr rfl⟩
        · rw [if_neg right] at h
          cases h
    | _ => cases h
  | _ => cases h

/-- The side is a column, or the operand itself. -/
def StandsForOperand (side operand : Expr) : Prop := side = operand ∨ ∃ t n, side = .column t n

theorem column_of_sameColumn {table : Option String} {name : String} {x : Expr}
    (h : (column table name).sameColumn x = true) :
    ∃ t n, x = column t n ∧ Text.sameName name n = true := by
  cases x with
  | column t n => exact ⟨t, n, rfl, (Bool.and_eq_true_iff.1 h).2⟩
  | _ => cases h

theorem columnIndex_eq_ok {s : Scope} {t : Option String} {n : String} {i : Nat} :
    s.columnIndex t n = .ok i ↔ s.isOwnTable t = true ∧ s.schema.indexOf? n = some i := by
  simp only [Scope.columnIndex]
  by_cases own : s.isOwnTable t = true
  · rw [if_pos own]
    cases s.schema.indexOf? n with
    | none => exact ⟨nofun, fun h => nomatch h.2⟩
    | some j =>
      constructor
      · intro h
        cases h
        exact ⟨own, rfl⟩
      · rintro ⟨_, h⟩
        cases h
        rfl
  · rw [if_neg own]
    exact ⟨nofun, fun h => absurd h.1 own⟩

/-- Columns of one name that a scope knows are one column, whatever tables they are written with. -/
theorem column_eq_of_sameName {s : Scope} {row : Row} {t t' : Option String} {n n' : String} {i : Nat}
    {u : Value} (same : Text.sameName n n' = true) (known : s.columnIndex t' n' = .ok i)
    (value : s.column row t n = .ok u) : s.column row t' n' = .ok u := by
  obtain ⟨j, found, rest⟩ := bind_eq_ok.1 value
  have indexes : s.schema.indexOf? n = s.schema.indexOf? n' := by
    simp only [Schema.indexOf?]
    congr 1
    funext c
    exact Text.sameName_congr same c.name
  have first := (columnIndex_eq_ok.1 found).2
  rw [indexes, (columnIndex_eq_ok.1 known).2] at first
  cases first
  refine bind_eq_ok.2 ⟨i, known, ?_⟩
  cases item : row[i]? with
  | none =>
    simp only [item] at rest
    cases rest
  | some v =>
    simp only [item] at rest
    exact rest

variable {cmp : Value → Value → Ordering} {s : Scope} {row : Row}

/-- The operand has the value that the side matched with it has. -/
theorem valueAt_operand {side operand : Expr} {type : DataType} {depth : Nat} {u : Value}
    (same : side.sameColumn operand = true) (stands : side.StandsForOperand operand)
    (typed : operand.staticType s = some type) (value : side.valueAt cmp s row depth = .ok u) :
    operand.valueAt cmp s row 0 = .ok u := by
  rcases stands with rfl | ⟨t, n, rfl⟩
  · exact valueAt_shallower (Nat.zero_le depth) u value
  · obtain ⟨t', n', rfl, names⟩ := column_of_sameColumn same
    have shallow : Outcome.atDepth s 0 (s.column row t n) = .ok u :=
      valueAt_shallower (Nat.zero_le depth) u value
    have inside : s.column row t n = .ok u := Outcome.atDepth_refines s 0 _ u shallow
    have known : ∃ i, s.columnIndex t' n' = .ok i := by
      cases index : s.columnIndex t' n' with
      | ok i => exact ⟨i, rfl⟩
      | error e =>
        change (s.columnIndex t' n').toOption.bind _ = some type at typed
        rw [index] at typed
        cases typed
    obtain ⟨i, known⟩ := known
    have other := column_eq_of_sameName names known inside
    rw [inside] at shallow
    change Outcome.atDepth s 0 (s.column row t' n') = .ok u
    rw [other]
    exact shallow

/-- The value of an equality is that of its sides, in the order in which they are written. -/
theorem equality_eq_ok {l r : Expr} {depth : Nat} {q : Value}
    (h : (binary .equal l r).valueAt cmp s row depth = .ok q) :
    ∃ a b, l.valueAt cmp s row (depth + 1) = .ok a ∧ r.valueAt cmp s row (depth + 1) = .ok b ∧
      Value.compareBy cmp .equal a b = .ok q := by
  have inside := Outcome.atDepth_refines s depth _ q h
  obtain ⟨a, left, rest⟩ := bind_eq_ok.1 inside
  obtain ⟨b, right, rest⟩ := bind_eq_ok.1 rest
  exact ⟨a, b, left, right, rest⟩

end Expr

/-- Conversion made a null of the value, left it as it is, or gave an exact number of the same size. -/
def Value.KeptAs (a w : Value) : Prop :=
  w = .null ∨ w = a ∨ ∃ x y, a.toDecimal? = some x ∧ w.toDecimal? = some y ∧ x.compare y = .eq

/-- The value of the constant survives conversion to the type. -/
def Expr.Survives (cmp : Value → Value → Ordering) (session : Nat) (t : DataType) (k : Expr) : Prop :=
  ∀ a w, k.valueAt cmp (.constants session) [] 0 = .ok a → a.convert t = .ok w → a.KeptAs w

namespace Value

variable {cmp : Value → Value → Ordering} {t : DataType} {u a w : Value}

theorem isCharacter_of_ofType (h : OfType t u) : u.isCharacter = t.isCharacterString := by
  cases h <;> rfl

theorem isExact_of_ofType (h : OfType t u) : u.toDecimal?.isSome = t.isExactNumeric := by
  cases h <;> rfl

theorem isCharacter_of_exact (h : a.toDecimal?.isSome = true) : a.isCharacter = false := by
  cases a <;> first | rfl | cases h

theorem compareBy_of_null {cmp : Value → Value → Ordering} {op : BinaryOp}
    (h : u.isNull = true ∨ a.isNull = true) : compareBy cmp op u a = .ok .null := by
  simp only [compareBy]
  rw [if_pos (Bool.or_eq_true_iff.2 h)]

/-- Values of which both or none are text are compared as they are. -/
theorem compareBy_equal {cmp : Value → Value → Ordering} (hu : u.isNull = false)
    (ha : a.isNull = false) (kinds : u.isCharacter = a.isCharacter) :
    compareBy cmp .equal u a = .ok (Truth.ofBool (cmp u a == .eq)).toValue := by
  have order : orderBy cmp u a = .ok (cmp u a) := by
    simp only [orderBy]
    rw [kinds]
    cases a.isCharacter <;> rfl
  simp only [compareBy]
  rw [hu, ha, order]
  cases cmp u a <;> rfl

theorem isNull_convert (h : a.convert t = .ok w) : w.isNull = a.isNull := by
  simp only [convert] at h
  cases null : a.isNull with
  | true =>
    rw [null, if_pos rfl] at h
    cases h
    rfl
  | false =>
    rw [null, if_neg Bool.false_ne_true] at h
    exact isNull_of_ofType (ofType_of_convertPresent h)

/-- A value that survives conversion is ordered among the values of the type as it was before. -/
theorem orderedOn_kept (orders : OrdersTypes cmp) (scalar : t ≠ .array) (hw : OfType t w)
    (kept : a.KeptAs w) :
    a.isCharacter = t.isCharacterString ∧
      ∃ P, OrderedOn P cmp ∧ P a ∧ P w ∧ (∀ u, OfType t u → P u) ∧ cmp a w = .eq := by
  rcases kept with rfl | rfl | ⟨x, y, exactA, exactW, same⟩
  · cases hw
  · have order := orders.orderedOn_type scalar
    exact ⟨isCharacter_of_ofType hw, _, order, hw, hw, fun u hu => hu, order.self hw⟩
  · have isExact : t.isExactNumeric = true := by
      rw [← isExact_of_ofType hw, exactW]
      rfl
    have ha : a.toDecimal?.isSome = true := Option.isSome_iff_exists.2 ⟨x, exactA⟩
    have hw' : w.toDecimal?.isSome = true := Option.isSome_iff_exists.2 ⟨y, exactW⟩
    refine ⟨?_, _, orderedOn_exact orders.compare_decimals, ha, hw', fun u hu => ?_, ?_⟩
    · rw [← isCharacter_of_ofType hw, isCharacter_of_exact ha, isCharacter_of_exact hw']
    · exact (isExact_of_ofType hu).trans isExact
    · rw [orders.compare_decimals exactA exactW]
      exact same

/-- A value that survives conversion compares as its converted form does, on either side. -/
theorem comparesLike_of_kept (orders : OrdersTypes cmp) (scalar : t ≠ .array) (hu : u.HasType t)
    (converted : a.convert t = .ok w) (kept : a.KeptAs w) :
    ComparesLike cmp u a w ∧
      compareBy cmp .equal a u = .ok (equality cmp w u).toValue := by
  have typed : w.HasType t := hasType_convert converted
  have null : w.containsNull = a.isNull :=
    (containsNull_of_hasType scalar typed).trans (isNull_convert converted)
  have nullOperand : u.containsNull = u.isNull := containsNull_of_hasType scalar hu
  by_cases absent : a.isNull = true ∨ u.isNull = true
  · have unknown : equality cmp w u = .unknown := by
      simp only [equality]
      rw [null, nullOperand, if_pos (Bool.or_eq_true_iff.2 absent)]
    rw [unknown]
    refine ⟨⟨null.symm, ?_⟩, compareBy_of_null absent⟩
    rw [unknown]
    exact compareBy_of_null absent.symm
  · obtain ⟨ha, hu'⟩ := not_or.1 absent
    rw [Bool.not_eq_true] at ha hu'
    have presentW : w.containsNull = false := null.trans ha
    have presentU : u.containsNull = false := nullOperand.trans hu'
    have ofW : OfType t w := ofType_of_present typed presentW
    have ofU : OfType t u := ofType_of_present hu presentU
    obtain ⟨kind, P, order, inA, inW, inside, same⟩ := orderedOn_kept orders scalar ofW kept
    have kinds : u.isCharacter = a.isCharacter := (isCharacter_of_ofType ofU).trans kind.symm
    have left : cmp a u = cmp w u := order.congr_left inA inW (inside u ofU) same
    have right : (cmp u a == .eq) = (cmp w u == .eq) := by
      rw [← left, order.swap (inside u ofU) inA]
      cases cmp a u <;> rfl
    rw [equality_of_present presentW presentU]
    refine ⟨⟨null.symm, ?_⟩, ?_⟩
    · rw [compareBy_equal hu' ha kinds, right, equality_of_present presentW presentU]
    · rw [compareBy_equal ha hu' kinds.symm, left]

end Value

namespace Condition

open Value

/-- The disjunction of `l` and `r` becomes the test `m` that takes in `x`, an equality with `k`. -/
structure Absorbs (cmp : Value → Value → Ordering) (merging : Bool) (s : Scope) (l r : Expr)
    (m : Membership) (x k : Expr) : Prop where
  on : merging = true
  sides : ∃ L R, plan cmp merging s l = .ok L ∧ plan cmp merging s r = .ok R ∧ pair? L R = some (m, x)
  merges : m.mergeable? x = some k

variable {cmp : Value → Value → Ordering} {s : Scope} {row : Row} {m : Membership} {ws : List Value}
  {x k : Expr} {u w v : Value}

/-- The test that takes in an equality stands for the values of its constants. -/
theorem Absorbs.stands {merging : Bool} {l r : Expr} (absorbs : Absorbs cmp merging s l r m x k)
    (freeLeft : l.isCallFree = true) (freeRight : r.isCallFree = true) : ∃ ws, m.StandsFor cmp s ws := by
  obtain ⟨L, R, left, right, pair⟩ := absorbs.sides
  rcases pair?_eq_some.1 pair with ⟨rfl, rfl⟩ | ⟨rfl, rfl⟩
  · exact standsFor_plan cmp merging s l m freeLeft left
  · exact standsFor_plan cmp merging s r m freeRight right

theorem valueIn_member_eq_ok :
    (member m).valueIn cmp s row = .ok v ↔
      ∃ u, m.left.valueAt cmp s row 0 = .ok u ∧ m.evaluate cmp u = v :=
  map_eq_ok

/-- A test that has taken in a constant is the disjunction with the verdict on that constant. -/
theorem evaluate_absorb (plain : m.negated = false)
    (finds : w.containsNull = false → u.containsNull = false → m.FindsAlso cmp w u) :
    (m.evaluate cmp u).disjoin (equality cmp w u).toValue =
      .ok ((m.absorb cmp k w).evaluate cmp u) :=
  Membership.evaluate_add (m := { m with constants := m.constants ++ [k] }) plain finds

/-- An equality that a test takes in has the operand on the side matched with it. -/
theorem operand_of_equality {depth : Nat} {q : Value} (stands : m.StandsFor cmp s ws)
    (merges : m.mergeable? x = some k)
    (operand : ∀ side, x.matched? m.left = some side → side.StandsForOperand m.left)
    (found : x.valueAt cmp s row depth = .ok q) :
    ∃ u a, m.left.valueAt cmp s row 0 = .ok u ∧ k.valueAt cmp s row (depth + 1) = .ok a ∧
      (compareBy cmp .equal u a = .ok q ∨ compareBy cmp .equal a u = .ok q) := by
  obtain ⟨_, equals, _⟩ := mergeable?_eq_some.1 merges
  obtain ⟨side, matched, same, written | written⟩ := Expr.ifEquals?_cases equals
  · rw [written] at found
    obtain ⟨u, a, left, right, compared⟩ := Expr.equality_eq_ok found
    exact ⟨u, a, Expr.valueAt_operand same (operand side matched) stands.type left, right,
      .inl compared⟩
  · rw [written] at found
    obtain ⟨a, u, left, right, compared⟩ := Expr.equality_eq_ok found
    exact ⟨u, a, Expr.valueAt_operand same (operand side matched) stands.type right, left,
      .inr compared⟩

/-- Where the constant survives conversion, the equality has the verdict of the converted constant. -/
theorem equality_of_survives {depth : Nat} {q : Value} (orders : OrdersTypes cmp)
    (stands : m.StandsFor cmp s ws)
    (scalar : m.leftType ≠ .array) (typed : s.schema.RowTyped row)
    (merges : m.mergeable? x = some k)
    (operand : ∀ side, x.matched? m.left = some side → side.StandsForOperand m.left)
    (survives : k.Survives cmp s.session m.leftType)
    (value : k.constantIn cmp s.session m.leftType = .ok w)
    (found : x.valueAt cmp s row depth = .ok q) :
    ∃ u, m.left.valueAt cmp s row 0 = .ok u ∧ q = (equality cmp w u).toValue := by
  obtain ⟨u, a, left, constant, compared⟩ := operand_of_equality stands merges operand found
  obtain ⟨a', alone, converted⟩ := Expr.constantIn_eq_ok.1 value
  obtain ⟨_, _, isConstant⟩ := mergeable?_eq_some.1 merges
  obtain rfl := Expr.constant_unique isConstant constant alone
  have operandTyped := Membership.hasType_left stands typed left
  obtain ⟨like, turned⟩ := comparesLike_of_kept orders scalar operandTyped converted
    (survives a w alone converted)
  refine ⟨u, left, ?_⟩
  rcases compared with compared | compared
  · exact Except.ok.inj (compared.symm.trans like.equal)
  · exact Except.ok.inj (compared.symm.trans turned)

end Condition

end SqlEngine
