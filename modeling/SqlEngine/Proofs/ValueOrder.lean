import SqlEngine.Proofs.SortedSearch
import SqlEngine.Proofs.TypedValues

/-!
# The order of the values of a type

Within every type but that of arrays the total comparison goes by a key: numbers by their size, text by
its letters, moments by their place in time. So it is a total preorder there, and also of all exact
numbers together, whatever their types.
-/

namespace SqlEngine

theorem orderedOn_of_key {α κ : Type} {P : α → Prop} {cmp : α → α → Ordering}
    {o : κ → κ → Ordering} (trans : Std.TransCmp o) (key : α → κ)
    (h : ∀ a b, P a → P b → cmp a b = o (key a) (key b)) : OrderedOn P cmp where
  eq_swap {a b} := by
    rw [h a.1 b.1 a.2 b.2, h b.1 a.1 b.2 a.2]
    exact trans.eq_swap
  isLE_trans {a b c} first second := by
    rw [h _ _ a.2 b.2] at first
    rw [h _ _ b.2 c.2] at second
    rw [h _ _ a.2 c.2]
    exact trans.isLE_trans first second

namespace Text

theorem compareLists_eq_compareLex {α : Type} (cmp : α → α → Ordering) (xs ys : List α) :
    compareLists cmp xs ys = List.compareLex cmp xs ys := by
  induction xs generalizing ys with
  | nil => cases ys <;> rfl
  | cons a r ih =>
    cases ys with
    | nil => rfl
    | cons b s =>
      rw [compareLists, List.compareLex_cons_cons, ih]

theorem trans_compareLists {α : Type} {cmp : α → α → Ordering} (trans : Std.TransCmp cmp) :
    Std.TransCmp (compareLists cmp) := by
  have same : compareLists cmp = List.compareLex cmp := by
    funext xs ys
    exact compareLists_eq_compareLex cmp xs ys
  rw [same]
  infer_instance

theorem trans_compareChars : Std.TransCmp compareChars :=
  trans_compareLists (inferInstanceAs (Std.TransCmp (compareOn Char.toNat)))

theorem trans_compareBytes : Std.TransCmp compareBytes :=
  trans_compareLists (inferInstanceAs (Std.TransCmp (compareOn UInt8.toNat)))

end Text

theorem Int.compare_mul_pos (x y : Int) {k : Int} (hk : 0 < k) :
    compare (x * k) (y * k) = compare x y := by
  rcases Int.lt_trichotomy x y with less | equal | greater
  · rw [Int.compare_eq_lt.2 less, Int.compare_eq_lt.2 (Int.mul_lt_mul_of_pos_right less hk)]
  · rw [equal, Int.compare_eq_eq.2 rfl, Int.compare_eq_eq.2 rfl]
  · rw [Int.compare_eq_gt.2 greater, Int.compare_eq_gt.2 (Int.mul_lt_mul_of_pos_right greater hk)]

namespace Decimal

/-- The number in units of the twenty-eighth place, which every decimal is a multiple of. -/
def units (d : Decimal) : Int := d.unscaled * Nat.pow 10 (28 - d.scale)

theorem units_mul (a : Decimal) (n : Nat) :
    a.units * (Nat.pow 10 (a.scale + n) : Nat) = a.unscaled * Nat.pow 10 n * Nat.pow 10 28 := by
  have places : Nat.pow 10 (28 - a.scale) * Nat.pow 10 (a.scale + n) = Nat.pow 10 n * Nat.pow 10 28 := by
    have scale := a.scale_le
    simp only [Nat.pow_eq, ← Nat.pow_add]
    congr 1
    omega
  rw [units, Int.mul_assoc, Int.mul_assoc, ← Int.natCast_mul, ← Int.natCast_mul, places]

theorem compare_eq_units (a b : Decimal) : a.compare b = Ord.compare a.units b.units := by
  have positive (n : Nat) : (0 : Int) < (Nat.pow 10 n : Nat) :=
    Int.natCast_pos.2 (Nat.pow_pos (by decide))
  have both := Int.compare_mul_pos a.units b.units (positive (a.scale + b.scale))
  rw [units_mul, Nat.add_comm, units_mul, Int.compare_mul_pos _ _ (positive 28)] at both
  exact both

end Decimal

namespace Value

/-- The comparison orders the values of each type but arrays, and exact numbers of all types by their
size. -/
structure OrdersTypes (cmp : Value → Value → Ordering) : Prop where
  orderedOn_type {t : DataType} (scalar : t ≠ .array) : OrderedOn (OfType t) cmp
  compare_decimals {a b : Value} {x y : Decimal} (ha : a.toDecimal? = some x)
    (hb : b.toDecimal? = some y) : cmp a b = x.compare y

/-- Exact numbers of all types are ordered together, where they are compared by their size. -/
theorem orderedOn_exact {cmp : Value → Value → Ordering}
    (decimals : ∀ {a b : Value} {x y : Decimal}, a.toDecimal? = some x → b.toDecimal? = some y →
      cmp a b = x.compare y) : OrderedOn (fun v => v.toDecimal?.isSome = true) cmp := by
  refine orderedOn_of_key (o := Ord.compare) (inferInstanceAs (Std.TransOrd Int))
    (fun v => (v.toDecimal?.map Decimal.units).getD 0) fun a b ha hb => ?_
  obtain ⟨x, hx⟩ := Option.isSome_iff_exists.1 ha
  obtain ⟨y, hy⟩ := Option.isSome_iff_exists.1 hb
  rw [decimals hx hy, hx, hy]
  exact x.compare_eq_units y

end Value

namespace Collation

variable (c : Collation) {a b : Value}

theorem compare_decimals {x y : Decimal} (ha : a.toDecimal? = some x) (hb : b.toDecimal? = some y) :
    c.compare a b = x.compare y := by
  cases a <;> cases ha <;> cases b <;> cases hb <;> rfl

/-- Numbers one of which is not exact are compared as doubles. -/
theorem compare_doubles {x y : Binary64} (inexact : a.toDecimal? = none)
    (ha : a.toDouble? = some x) (hb : b.toDouble? = some y) : c.compare a b = x.totalCompare y := by
  cases a <;> cases inexact <;> cases ha <;> cases b <;> cases hb <;> rfl

/-- The letters that the collation looks at. -/
def letters (c : Collation) (cs : List Char) : List Char :=
  if c.ignoreCase then Text.lower cs else cs

theorem compareText_eq (x y : List Char) :
    c.compareText x y = Text.compareChars (c.letters x) (c.letters y) := by
  simp only [compareText, letters]
  split <;> rfl

theorem compare_texts {x y : List Char} (ha : textKey? a = some x) (hb : textKey? b = some y) :
    c.compare a b = c.compareText x y := by
  cases a <;> cases ha <;> cases b <;> cases hb <;> rfl

theorem orderedOn_exact : OrderedOn (fun v => v.toDecimal?.isSome = true) c.compare :=
  Value.orderedOn_exact c.compare_decimals

theorem orderedOn_doubles :
    OrderedOn (fun v => v.toDecimal? = none ∧ v.toDouble?.isSome = true) c.compare := by
  refine orderedOn_of_key (o := Ord.compare) (inferInstanceAs (Std.TransOrd Int))
    (fun v => (v.toDouble?.map Binary.totalRank).getD 0) fun a b ha hb => ?_
  obtain ⟨x, hx⟩ := Option.isSome_iff_exists.1 ha.2
  obtain ⟨y, hy⟩ := Option.isSome_iff_exists.1 hb.2
  rw [c.compare_doubles ha.1 hx hy, hx, hy]
  rfl

theorem orderedOn_texts : OrderedOn (fun v => (textKey? v).isSome = true) c.compare := by
  refine orderedOn_of_key Text.trans_compareChars (fun v => c.letters ((textKey? v).getD []))
    fun a b ha hb => ?_
  obtain ⟨x, hx⟩ := Option.isSome_iff_exists.1 ha
  obtain ⟨y, hy⟩ := Option.isSome_iff_exists.1 hb
  rw [c.compare_texts hx hy, c.compareText_eq, hx, hy]
  rfl

/-- What truth values, times and result sets are compared by. -/
def count : Value → Nat
  | .boolean b => b.toNat
  | .time t => t.rank
  | .resultSet _ rows => rows.length
  | _ => 0

/-- What dates and timestamps are compared by. -/
def moment : Value → Int
  | .date d => d.rank
  | .timestamp t => t.rank
  | _ => 0

/-- Values of one type are ordered, but for arrays. -/
theorem orderedOn_type {t : DataType} (scalar : t ≠ .array) : OrderedOn (Value.OfType t) c.compare := by
  cases t with
  | array => exact absurd rfl scalar
  | boolean | time | resultSet | null =>
    refine orderedOn_of_key (o := Ord.compare) (inferInstanceAs (Std.TransOrd Nat)) count
      fun a b ha hb => ?_
    cases ha <;> cases hb <;> rfl
  | date | timestamp =>
    refine orderedOn_of_key (o := Ord.compare) (inferInstanceAs (Std.TransOrd Int)) moment
      fun a b ha hb => ?_
    cases ha
    cases hb
    rfl
  | smallint | integer | bigint | decimal =>
    refine c.orderedOn_exact.mono fun v hv => ?_
    cases hv
    rfl
  | real | double =>
    refine c.orderedOn_doubles.mono fun v hv => ?_
    cases hv
    exact ⟨rfl, rfl⟩
  | char | varchar | clob =>
    refine c.orderedOn_texts.mono fun v hv => ?_
    cases hv
    rfl
  | varbinary | blob | object =>
    refine orderedOn_of_key Text.trans_compareBytes (fun v => v.bytes?.getD []) fun a b ha hb => ?_
    cases ha
    cases hb
    rfl
  | xml =>
    refine orderedOn_of_key Text.trans_compareChars (fun v => (v.string?.getD "").toList)
      fun a b ha hb => ?_
    cases ha
    cases hb
    rfl

theorem ordersTypes : Value.OrdersTypes c.compare := ⟨c.orderedOn_type, c.compare_decimals⟩

end Collation

end SqlEngine
