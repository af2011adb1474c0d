import SqlEngine.Proofs.BinaryRounding
import SqlEngine.Proofs.TotalOrder

/-!
# Exact numbers among approximate ones

Exact numbers go by their size among themselves, but by their doubles among approximate numbers. For a
collection of exact numbers the two orders are one exactly if comparison stays transitive where they meet
approximate numbers and sets of both kinds keep one value of each class of equal ones. The orders are one
for whole numbers of up to fifty-three bits, and not any further.
-/

namespace SqlEngine

namespace Binary

variable {F : BinaryFormat} {x y : Binary F}

/-- A greater exponent comes with a full significand, which makes up for the last places below it. -/
theorem of_exponent_lt (lower : x.exponent < y.exponent) :
    x.size < y.size ∧ x.magnitude < y.magnitude := by
  have least := x.leastExponent_le
  have short := x.significand_lt
  have full := y.normal_or_least.resolve_right (by omega)
  have double : Nat.pow 2 (F.fractionBits + 1) = 2 * Nat.pow 2 F.fractionBits := by
    simp only [Nat.pow_eq, Nat.pow_succ]
    omega
  constructor
  · have twice : x.significand < 2 * y.significand := by omega
    have raised : (2 : ℚ) * 2 ^ x.exponent ≤ 2 ^ y.exponent := by
      rw [← zpow_one_add₀ two_ne_zero]
      exact zpow_le_zpow_right₀ one_le_two (by omega)
    calc (x.significand : ℚ) * 2 ^ x.exponent
        < (2 * y.significand : ℚ) * 2 ^ x.exponent :=
          mul_lt_mul_of_pos_right (by exact_mod_cast twice) (two_zpow_pos _)
      _ = y.significand * (2 * 2 ^ x.exponent) := by ring
      _ ≤ y.significand * 2 ^ y.exponent := mul_le_mul_of_nonneg_left raised (Nat.cast_nonneg _)
  · have places : (x.exponent - F.leastExponent).toNat + 1 ≤ (y.exponent - F.leastExponent).toNat := by
      omega
    have room := Nat.mul_le_mul_right (Nat.pow 2 F.fractionBits) places
    rw [x.magnitude_eq, y.magnitude_eq]
    rw [Nat.add_mul, Nat.one_mul] at room
    omega

/-- Magnitudes grow with the numbers. -/
theorem magnitude_lt_of_size_lt (less : x.size < y.size) : x.magnitude < y.magnitude := by
  rcases lt_trichotomy x.exponent y.exponent with lower | same | higher
  · exact (of_exponent_lt lower).2
  · rw [size, size, same, mul_lt_mul_iff_left₀ (two_zpow_pos _)] at less
    have smaller : x.significand < y.significand := by exact_mod_cast less
    rw [x.magnitude_eq, y.magnitude_eq, same]
    exact Nat.add_lt_add_left smaller _
  · exact absurd less (of_exponent_lt higher).1.not_gt

/-- Whole numbers of up to fifty-three bits are doubles. -/
theorem exists_whole {n : Nat} (bound : n ≤ 2 ^ 53) :
    ∃ x : Binary64, x.isFinite = true ∧ x.size = n := by
  rcases Nat.eq_zero_or_pos n with rfl | some
  · refine ⟨zero false, by decide, ?_⟩
    have none : (zero false : Binary64).significand = 0 := by decide
    rw [size, none, Nat.cast_zero, zero_mul]
  · have low : BinaryFormat.double.leastExponent = -1074 := by decide
    have digits : BinaryFormat.double.fractionBits = 52 := rfl
    have high : 1076 * Nat.pow 2 52 ≤ BinaryFormat.double.infinity := by decide
    rcases Nat.lt_or_eq_of_le bound with less | rfl
    · have short : n.log2 < 53 := (Nat.log2_lt (by omega)).2 less
      obtain ⟨x, finite, same⟩ := exists_size (F := .double) (q := 0) some (by omega) (by omega) (by
        rw [low, digits]
        exact Nat.le_trans (Nat.mul_le_mul_right _ (by omega)) high)
      exact ⟨x, finite, by rw [same, zpow_zero, mul_one]⟩
    · obtain ⟨x, finite, same⟩ := exists_size (F := .double) (m := 1) (q := 53) Nat.one_pos
        (by decide) (by decide) (by decide)
      exact ⟨x, finite, by rw [same]; norm_num⟩

theorem roundRatio_lt_of_lt {m n : Nat} (less : m < n) (bound : n ≤ 2 ^ 53) :
    BinaryFormat.double.roundRatio m 1 < BinaryFormat.double.roundRatio n 1 := by
  obtain ⟨x, xFinite, xSize⟩ := exists_whole (by omega : m ≤ 2 ^ 53)
  obtain ⟨y, yFinite, ySize⟩ := exists_whole bound
  rw [roundRatio_size xFinite Nat.one_pos (by rw [xSize, Nat.cast_one, div_one]),
    roundRatio_size yFinite Nat.one_pos (by rw [ySize, Nat.cast_one, div_one])]
  refine magnitude_lt_of_size_lt ?_
  rw [xSize, ySize]
  exact_mod_cast less

theorem totalRank_ofInt_lt {m n : Int} (less : m < n) (mBound : m.natAbs ≤ 2 ^ 53)
    (nBound : n.natAbs ≤ 2 ^ 53) : (ofInt .double m).totalRank < (ofInt .double n).totalRank := by
  simp only [ofInt, ofRatio, totalRank]
  by_cases mNegative : m < 0
  · by_cases nNegative : n < 0
    · have farther := roundRatio_lt_of_lt (by omega : n.natAbs < m.natAbs) mBound
      simp only [mNegative, nNegative, decide_true, if_true]
      omega
    · simp only [mNegative, nNegative, decide_true, decide_false, if_true, Bool.false_eq_true, if_false]
      omega
  · have nNegative : ¬ n < 0 := by omega
    have farther := roundRatio_lt_of_lt (by omega : m.natAbs < n.natAbs) nBound
    simp only [mNegative, nNegative, decide_false, Bool.false_eq_true, if_false]
    omega

/-- Doubles order whole numbers of up to fifty-three bits as they are. -/
theorem totalCompare_ofInt {m n : Int} (mBound : m.natAbs ≤ 2 ^ 53) (nBound : n.natAbs ≤ 2 ^ 53) :
    (ofInt .double m).totalCompare (ofInt .double n) = Ord.compare m n := by
  rw [totalCompare]
  rcases Int.lt_trichotomy m n with less | rfl | greater
  · rw [Int.compare_eq_lt.2 less, Int.compare_eq_lt.2 (totalRank_ofInt_lt less mBound nBound)]
  · rw [Int.compare_eq_eq.2 rfl, Int.compare_eq_eq.2 rfl]
  · rw [Int.compare_eq_gt.2 greater, Int.compare_eq_gt.2 (totalRank_ofInt_lt greater nBound mBound)]

end Binary

theorem Slot.Splits.countP {α : Type} {cmp : α → α → Ordering} {v : α} {xs : List α} {s : Slot}
    (h : Splits cmp v xs s) : xs.countP (cmp · v == .eq) = s.occupied.toNat := by
  have none {ys : List α} {o : Ordering} (apart : o ≠ .eq) (all : ∀ b ∈ ys, cmp b v = o) :
      ys.countP (cmp · v == .eq) = 0 := by
    refine List.countP_eq_zero.2 fun b hb => ?_
    rw [all b hb]
    simpa using apart
  cases h with
  | hit low a high below here above =>
    rw [List.countP_append, List.countP_cons, none (by decide) below, none (by decide) above, here]
    rfl
  | miss low high below above =>
    rw [List.countP_append, none (by decide) below, none (by decide) above]
    rfl

namespace ConstantSet

variable {cmp : Value → Value → Ordering} {Q : Value → Prop} {s : ConstantSet} {v : Value}

/-- The set that has taken in these values one after the other. -/
def ofValues (cmp : Value → Value → Ordering) (vs : List Value) : ConstantSet :=
  vs.foldl (fun s v => s.insert cmp v) {}

/-- How many values of the set are equal to a value. -/
def copies (cmp : Value → Value → Ordering) (s : ConstantSet) (v : Value) : Nat :=
  s.values.countP (cmp · v == .eq)

/-- A sorted set has one value for each class of those it has taken in. -/
theorem copies_of_sorted (order : OrderedOn Q cmp) (sorted : Sorted Q cmp s) (hv : Q v)
    (there : ∃ a ∈ s.values, cmp a v = .eq) : s.copies cmp v = 1 := by
  have splits := Slot.find_splits order hv s.values sorted.inside sorted.ascending
  rw [copies, splits.countP, splits.occupied_iff.2 there]
  rfl

/-- The set stays sorted while it takes values in, and has an equal one for each of them. -/
theorem sorted_foldl_insert (order : OrderedOn Q cmp) {vs : List Value} (inside : ∀ w ∈ vs, Q w)
    (sorted : Sorted Q cmp s) :
    Sorted Q cmp (vs.foldl (fun s v => s.insert cmp v) s) ∧
      ∀ w, Q w → (w ∈ vs ∨ ∃ a ∈ s.values, cmp a w = .eq) →
        ∃ a ∈ (vs.foldl (fun s v => s.insert cmp v) s).values, cmp a w = .eq := by
  induction vs generalizing s with
  | nil => exact ⟨sorted, fun w _ there => there.resolve_left List.not_mem_nil⟩
  | cons u r ih =>
    obtain ⟨kept, has⟩ := insert_spec order sorted (inside u List.mem_cons_self)
    obtain ⟨last, keeps⟩ := ih (fun w hw => inside w (List.mem_cons_of_mem u hw)) kept
    refine ⟨last, fun w hw there => keeps w hw ?_⟩
    rcases there with new | old
    · rcases List.mem_cons.1 new with rfl | new
      · exact .inr ((has w hw).2 (.inl (order.self hw)))
      · exact .inl new
    · exact .inr ((has w hw).2 (.inr old))

theorem copies_ofValues (order : OrderedOn Q cmp) {vs : List Value} (inside : ∀ w ∈ vs, Q w)
    (listed : v ∈ vs) : (ofValues cmp vs).copies cmp v = 1 := by
  obtain ⟨sorted, there⟩ := sorted_foldl_insert order inside sorted_empty
  have hv := inside v listed
  exact copies_of_sorted order sorted hv (there v hv (.inl listed))

/-- What a set has is never lost. -/
theorem copies_le_insert (cmp : Value → Value → Ordering) (s : ConstantSet) (u v : Value) :
    s.copies cmp v ≤ (s.insert cmp u).copies cmp v := by
  unfold insert
  dsimp only
  split
  · exact Nat.le_refl _
  · exact (List.sublist_insertIdx _ _ _).countP_le

/-- Two values that are not equal are both kept. -/
theorem values_ofValues_pair {a b : Value} (apart : cmp a b ≠ .eq) :
    (ofValues cmp [a, b]).values = [a, b] ∨ (ofValues cmp [a, b]).values = [b, a] := by
  have alone : ({} : ConstantSet).insert cmp a = ⟨[a]⟩ := by
    rw [insert, Slot.find]
    rfl
  rw [ofValues, List.foldl_cons, List.foldl_cons, List.foldl_nil, alone, insert, Slot.find]
  cases order : cmp a b with
  | lt => exact .inl rfl
  | eq => exact absurd order apart
  | gt => exact .inr rfl

/-- A value that equals two different ones has a copy in each of them. -/
theorem copies_ofValues_pair {a b : Value} (apart : cmp a b ≠ .eq) (first : cmp a v = .eq)
    (second : cmp b v = .eq) : (ofValues cmp [a, b]).copies cmp v = 2 := by
  rcases values_ofValues_pair apart with values | values <;> rw [copies, values] <;> simp [first, second]

end ConstantSet

namespace Value

/-- The double that stands for a number among approximate ones. -/
def widened (v : Value) : Binary64 := v.toDouble?.getD (.zero false)

/-- Whole numbers of a size up to `2 ^ 53`, in any exact type. -/
def IsWhole (v : Value) : Prop :=
  ∃ d, v.toDecimal? = some d ∧ d.scale = 0 ∧ d.mantissa ≤ 2 ^ 53

theorem toDouble_of_isApproximate {v : Value} (h : v.isApproximate = true) :
    v.toDecimal? = none ∧ v.toDouble? = some v.widened := by
  cases v <;> cases h <;> exact ⟨rfl, rfl⟩

theorem toDouble_of_isExact {v : Value} (h : v.isExact = true) : v.toDouble? = some v.widened := by
  cases v <;> cases h <;> rfl

theorem widened_of_scale {v : Value} {d : Decimal} (read : v.toDecimal? = some d)
    (whole : d.scale = 0) : v.widened = .ofInt .double d.unscaled := by
  cases v with
  | smallint n =>
    cases read
    rw [Decimal.unscaled_ofInt64, n.toInt_toInt64]
    rfl
  | integer n =>
    cases read
    rw [Decimal.unscaled_ofInt64, n.toInt_toInt64]
    rfl
  | bigint n =>
    cases read
    rw [Decimal.unscaled_ofInt64]
    rfl
  | decimal x =>
    cases read
    exact if_pos whole
  | _ => cases read

end Value

namespace Collation

variable (c : Collation) {P : Value → Prop}

/-- The order goes on through any approximate number between two of these. -/
def TransitiveThrough (P : Value → Prop) : Prop :=
  ∀ a b d, P a → b.isApproximate = true → P d →
    (c.compare a b = .eq → c.compare b d = .eq → c.compare a d = .eq) ∧
      (c.compare a b ≠ .gt → c.compare b d ≠ .gt → c.compare a d ≠ .gt)

/-- Sets of these and of approximate numbers have one value for each that they have taken in. -/
def KeepsOneOfEach (P : Value → Prop) : Prop :=
  ∀ vs : List Value, (∀ v ∈ vs, P v ∨ v.isApproximate = true) → ∀ v ∈ vs,
    (ConstantSet.ofValues c.compare vs).copies c.compare v = 1

/-- Exact numbers that doubles order as they are stay ordered among approximate ones. -/
theorem orderedOn_mixed (exact : ∀ v, P v → v.isExact = true)
    (agree : ∀ a d, P a → P d → c.compare a d = a.widened.totalCompare d.widened) :
    OrderedOn (fun v => P v ∨ v.isApproximate = true) c.compare := by
  have number (v : Value) (hv : P v ∨ v.isApproximate = true) : v.toDouble? = some v.widened := by
    rcases hv with hv | hv
    · exact Value.toDouble_of_isExact (exact v hv)
    · exact (Value.toDouble_of_isApproximate hv).2
  refine orderedOn_of_key (o := Ord.compare) (inferInstanceAs (Std.TransOrd Int))
    (fun v => v.widened.totalRank) fun a b ha hb => ?_
  rcases ha with ha | approximate
  · rcases hb with hb | approximate
    · exact agree a b ha hb
    · exact c.compare_numbers (.inr (Value.toDouble_of_isApproximate approximate).1)
        (number a (.inl ha)) (number b (.inr approximate))
  · exact c.compare_numbers (.inl (Value.toDouble_of_isApproximate approximate).1)
      (number a (.inr approximate)) (number b hb)

section necessary

variable {c} {a d : Value}

theorem compare_double_right (exact : a.isExact = true) (x : Binary64) :
    c.compare a (.double x) = a.widened.totalCompare x :=
  c.compare_numbers (.inr rfl) (Value.toDouble_of_isExact exact) rfl

theorem compare_double_left (exact : d.isExact = true) (x : Binary64) :
    c.compare (.double x) d = x.totalCompare d.widened :=
  c.compare_numbers (.inl rfl) rfl (Value.toDouble_of_isExact exact)

/-- A greater number has a greater double, or else its own double stands between the two. -/
theorem TransitiveThrough.widened_gt (transitive : c.TransitiveThrough P) (ha : P a) (hd : P d)
    (aExact : a.isExact = true) (dExact : d.isExact = true) (greater : c.compare a d = .gt) :
    a.widened.totalCompare d.widened = .gt := by
  rcases Decidable.em (a.widened.totalCompare d.widened = .gt) with higher | notHigher
  · exact higher
  · have first : c.compare a (.double a.widened) ≠ .gt := by
      rw [compare_double_right aExact, Binary.totalCompare_eq_iff.2 rfl]
      decide
    have second : c.compare (.double a.widened) d ≠ .gt := by
      rw [compare_double_left dExact]
      exact notHigher
    exact absurd greater ((transitive a _ d ha rfl hd).2 first second)

/-- Equal numbers have one double, or else the first and the double of the second are kept apart in a
set, and the second equals both. -/
theorem KeepsOneOfEach.widened_eq (keeps : c.KeepsOneOfEach P) (ha : P a) (hd : P d)
    (aExact : a.isExact = true) (dExact : d.isExact = true) (same : c.compare a d = .eq) :
    a.widened = d.widened := by
  rcases Decidable.em (a.widened = d.widened) with one | apart
  · exact one
  · let x : Value := .double d.widened
    have between : c.compare a x ≠ .eq := by
      rw [compare_double_right aExact, Ne, Binary.totalCompare_eq_iff]
      exact apart
    have onto : c.compare x d = .eq := by
      rw [compare_double_left dExact, Binary.totalCompare_eq_iff]
    have both := ConstantSet.copies_ofValues_pair between same onto
    have kept := ConstantSet.copies_le_insert c.compare (.ofValues c.compare [a, x]) d d
    have one : (ConstantSet.ofValues c.compare [a, x, d]).copies c.compare d = 1 := by
      refine keeps [a, x, d] (fun v hv => ?_) d (by simp)
      simp only [List.mem_cons, List.not_mem_nil, or_false] at hv
      rcases hv with rfl | rfl | rfl
      · exact .inl ha
      · exact .inr rfl
      · exact .inl hd
    change (ConstantSet.insert c.compare (.ofValues c.compare [a, x]) d).copies c.compare d = 1 at one
    omega

end necessary

/-- Exact numbers compare with approximate ones without breaks exactly if doubles order them as they
are. -/
theorem mixed_order_iff (exact : ∀ v, P v → v.isExact = true) :
    c.TransitiveThrough P ∧ c.KeepsOneOfEach P ↔
      ∀ a d, P a → P d → c.compare a d = a.widened.totalCompare d.widened := by
  constructor
  · rintro ⟨transitive, keeps⟩ a d ha hd
    have swapped : a.widened.totalCompare d.widened = (d.widened.totalCompare a.widened).swap :=
      @Std.OrientedCmp.eq_swap Int Ord.compare _ _ _
    cases order : c.compare a d with
    | gt => exact (transitive.widened_gt ha hd (exact a ha) (exact d hd) order).symm
    | eq =>
      have one := keeps.widened_eq ha hd (exact a ha) (exact d hd) order
      exact (Binary.totalCompare_eq_iff.2 one).symm
    | lt =>
      have greater : c.compare d a = .gt := by
        rw [c.compare_swap d a, order]
        rfl
      rw [swapped, transitive.widened_gt hd ha (exact d hd) (exact a ha) greater]
      rfl
  · intro agree
    have order := c.orderedOn_mixed exact agree
    constructor
    · intro a b d ha hb hd
      refine ⟨fun first second => ?_, fun first second => ?_⟩
      · rw [order.congr_left (.inl ha) (.inr hb) (.inl hd) first]
        exact second
      · rw [Ne, ← Ordering.isLE_iff_ne_gt] at *
        exact order.isLE_trans (a := ⟨a, .inl ha⟩) (b := ⟨b, .inr hb⟩) (c := ⟨d, .inl hd⟩) first second
    · exact fun vs inside v listed => ConstantSet.copies_ofValues order inside listed

/-- Doubles order whole numbers of up to fifty-three bits as they are. -/
theorem compare_whole {a d : Value} (ha : a.IsWhole) (hd : d.IsWhole) :
    c.compare a d = a.widened.totalCompare d.widened := by
  obtain ⟨x, aDecimal, xScale, xBound⟩ := ha
  obtain ⟨y, dDecimal, yScale, yBound⟩ := hd
  rw [c.compare_decimals aDecimal dDecimal, Value.widened_of_scale aDecimal xScale,
    Value.widened_of_scale dDecimal yScale, Binary.totalCompare_ofInt]
  · simp [Decimal.compare, xScale, yScale]
  · rwa [Decimal.natAbs_unscaled]
  · rwa [Decimal.natAbs_unscaled]

/-- So they compare with all approximate numbers without breaks. -/
theorem mixed_order_iff_whole :
    Value.IsWhole (.bigint 9007199254740992) ∧ compare {} (.bigint 9007199254740992) (.bigint 1) = .gt ∧
      TransitiveThrough {} Value.IsWhole ∧ KeepsOneOfEach {} Value.IsWhole := by
  have exact (v : Value) (hv : v.IsWhole) : v.isExact = true := by
    obtain ⟨d, read, _⟩ := hv
    rw [Value.isExact, read]
    rfl
  exact ⟨⟨_, rfl, rfl, by decide⟩, by decide,
    (mixed_order_iff {} exact).2 fun a d ha hd => compare_whole {} ha hd⟩

/-- The double next to two whole numbers equals both, and a set of the two keeps them both. -/
theorem mixed_order_breaks :
    let a : Value := .bigint 9007199254740993
    let b : Value := .double (.ofBits .double 0x4340000000000000)
    let d : Value := .bigint 9007199254740992
    let cmp := compare {}
    a.isExact = true ∧ b.isApproximate = true ∧ d.isExact = true ∧
      cmp a b = .eq ∧ cmp b d = .eq ∧ cmp a d = .gt ∧
      (ConstantSet.ofValues cmp [a, d, b]).copies cmp b = 2 :=
  ⟨rfl, rfl, rfl, by decide +kernel, by decide +kernel, by decide, by decide +kernel⟩

end Collation

end SqlEngine
