import Mathlib.Tactic.Linarith
import SqlEngine.Proofs.NearestWhole
import SqlEngine.Proofs.TypedValues

/-!
# Conversion of numbers to whole numbers

A number that is converted to a type of whole numbers is rounded, a half going away from zero, and is refused if the
type does not have the result. One number is let through that should not be: an approximate one of two to the
sixty-third, one past the largest `BIGINT`, becomes that largest one.
-/

namespace SqlEngine

/-- The bound of a type of whole numbers: it has those from `-bound` to `bound - 1`. -/
def DataType.wholeBound? : DataType → Option ℤ
  | smallint => some 0x8000
  | integer => some 0x80000000
  | bigint => some 0x8000000000000000
  | _ => none

namespace Binary

variable {F : BinaryFormat} {x : Binary F}

theorem abs_value (x : Binary F) : |x.value| = x.size := by
  have positive : 0 ≤ x.size := mul_nonneg (Nat.cast_nonneg _) (two_zpow_pos _).le
  simp only [value]
  split
  · rw [abs_neg, abs_of_nonneg positive]
  · exact abs_of_nonneg positive

/-- A number with an exponent that is not negative is whole. -/
theorem exists_int_value (whole : 0 ≤ x.exponent) : ∃ n : ℤ, x.value = n := by
  have size : x.size = ((x.significand * 2 ^ x.exponent.toNat : ℤ) : ℚ) := by
    rw [Binary.size, ← Int.toNat_of_nonneg whole, zpow_natCast]
    push_cast
    rfl
  simp only [value, size]
  split
  · exact ⟨_, (Int.cast_neg _).symm⟩
  · exact ⟨_, rfl⟩

/-- Numbers too large for a fraction are not rounded. -/
theorem value_of_large {n : ℤ} (rounded : NearestWhole x.value n) (large : 2 ^ (F.fractionBits + 1) ≤ n) :
    x.value = n := by
  rcases lt_or_ge x.exponent 0 with fraction | whole
  · have short : (x.significand : ℚ) < 2 ^ F.fractionBits * 2 := by
      rw [← pow_succ]
      exact_mod_cast x.significand_lt
    have halves : (2 : ℚ) ^ x.exponent ≤ 2 ^ (-1 : ℤ) := zpow_le_zpow_right₀ one_le_two (by omega)
    have small : x.size < 2 ^ F.fractionBits := by
      calc x.size ≤ x.significand * 2 ^ (-1 : ℤ) := mul_le_mul_of_nonneg_left halves (Nat.cast_nonneg _)
        _ < 2 ^ F.fractionBits * 2 * 2 ^ (-1 : ℤ) := mul_lt_mul_of_pos_right short (two_zpow_pos _)
        _ = 2 ^ F.fractionBits := by rw [zpow_neg_one, mul_inv_cancel_right₀ two_ne_zero]
    have size := (le_abs_self x.value).trans_eq x.abs_value
    have near := (abs_le.1 rounded.near).2
    have least : (1 : ℚ) ≤ 2 ^ F.fractionBits := one_le_pow₀ one_le_two
    have far : (2 : ℚ) ^ F.fractionBits * 2 ≤ n := by
      rw [← pow_succ]
      exact_mod_cast large
    linarith
  · obtain ⟨m, value⟩ := exists_int_value whole
    rw [value] at rounded ⊢
    rw [NearestWhole.intCast_iff.1 rounded]

end Binary

theorem Decimal.nearestWhole_whole (d : Decimal) : NearestWhole d.value (d.roundAway 0).unscaled := by
  have rounded := d.nearestWhole_roundAway (Nat.zero_le 28)
  rw [pow_zero, mul_one, Nat.zero_sub] at rounded
  rwa [Nat.pow_eq, Nat.pow_zero, Nat.cast_one, mul_one] at rounded

namespace Value

/-- The exact number that a value stands for. NaNs and infinities stand for none. -/
def number? : Value → Option ℚ
  | smallint n => some n.toInt
  | integer n => some n.toInt
  | bigint n => some n.toInt
  | decimal d => some d.value
  | real x => if x.isFinite then some x.value else none
  | double x => if x.isFinite then some x.value else none
  | _ => none

/-- The number of the value, rounded half away from zero, is `n`. -/
def RoundsTo (v : Value) (n : ℤ) : Prop := ∃ q, v.number? = some q ∧ NearestWhole q n

variable {v : Value} {t : DataType} {bound n n' : ℤ} {k : Int64}

theorem RoundsTo.unique (h : v.RoundsTo n) (h' : v.RoundsTo n') : n = n' := by
  obtain ⟨q, number, rounded⟩ := h
  obtain ⟨q', number', rounded'⟩ := h'
  cases number.symm.trans number'
  exact rounded.unique rounded'

theorem roundsTo_of_number (number : v.number? = some (n : ℚ)) : v.RoundsTo n :=
  ⟨n, number, NearestWhole.intCast_iff.2 rfl⟩

/-- Single precision numbers are taken as doubles. -/
theorem number?_of_approximate (approximate : v.isApproximate = true) :
    ∃ x, v.toDouble? = some x ∧ v.number? = if x.isFinite then some x.value else none := by
  cases v with
  | double x => exact ⟨x, rfl, rfl⟩
  | real x =>
    refine ⟨x.convert .double, rfl, ?_⟩
    rw [x.isFinite_convert_double]
    cases finite : x.isFinite with
    | true => rw [(Binary.value_convert_double finite).2, number?, finite]
    | false =>
      rw [number?, finite]
      rfl
  | _ => cases approximate

/-- The value is an approximate number of two to the sixty-third, and a `BIGINT` is asked for. -/
def PastLargest (v : Value) (t : DataType) : Prop :=
  t = .bigint ∧ v.isApproximate = true ∧ v.number? = some 0x8000000000000000

/-- What comes of reading a number as a whole one of sixty-four bits. -/
inductive ReadsWhole (v : Value) (t : DataType) : Except ValueError Int64 → Prop
  | exact {k : Int64} (rounded : v.RoundsTo k.toInt) : ReadsWhole v t (.ok k)
  | pastLargest (approximate : v.isApproximate = true) (number : v.number? = some 0x8000000000000000) :
      ReadsWhole v t (.ok Int64.maxValue)
  | refused (outside : ∀ n, v.RoundsTo n → n < -0x8000000000000000 ∨ 0x8000000000000000 ≤ n)
      (apart : v.isApproximate = true → v.number? ≠ some 0x8000000000000000) :
      ReadsWhole v t (.error (v.outOfRange t))

theorem readsWhole_decimal (d : Decimal) (t : DataType) : ReadsWhole (decimal d) t (wholeOfDecimal d t) := by
  have rounded : (decimal d).RoundsTo (d.roundAway 0).unscaled := ⟨_, rfl, d.nearestWhole_whole⟩
  have scale : (d.roundAway 0).scale = 0 := Nat.le_zero.1 (d.scale_roundAway_le 0)
  rw [wholeOfDecimal, Decimal.toInt64?_of_whole scale]
  by_cases inside : -0x8000000000000000 ≤ (d.roundAway 0).unscaled ∧
      (d.roundAway 0).unscaled < 0x8000000000000000
  · rw [if_pos inside]
    refine .exact ?_
    rwa [Int64.toInt_ofInt_of_le inside.1 inside.2]
  · rw [if_neg inside]
    refine .refused (fun n other => ?_) nofun
    rw [other.unique rounded]
    omega

theorem wholeOfDouble?_of_finite {x : Binary64} (finite : x.isFinite = true) :
    wholeOfDouble? x = if x.roundAway < -0x8000000000000000 ∨ 0x8000000000000000 < x.roundAway then none
      else some (Int64.ofInt (min x.roundAway (0x8000000000000000 - 1))) := by
  simp only [wholeOfDouble?, finite, Bool.not_true, Bool.false_eq_true, if_false]

theorem readsWhole_approximate (approximate : v.isApproximate = true) (t : DataType) :
    ReadsWhole v t (match v.toDouble?.bind wholeOfDouble? with
      | some n => .ok n
      | none => .error (v.outOfRange t)) := by
  obtain ⟨x, double, number⟩ := number?_of_approximate approximate
  rw [double, Option.bind_some]
  cases finite : x.isFinite with
  | false =>
    have none : wholeOfDouble? x = none := by simp [wholeOfDouble?, finite]
    rw [finite, if_neg Bool.false_ne_true] at number
    rw [none]
    refine .refused ?_ ?_
    · rintro n ⟨q, some, _⟩
      cases number.symm.trans some
    · intro _ some
      cases number.symm.trans some
  | true =>
    rw [finite, if_pos rfl] at number
    have rounded : v.RoundsTo x.roundAway := ⟨x.value, number, x.nearestWhole_roundAway⟩
    rw [wholeOfDouble?_of_finite finite]
    by_cases outside : x.roundAway < -0x8000000000000000 ∨ 0x8000000000000000 < x.roundAway
    · rw [if_pos outside]
      refine .refused ?_ ?_
      · intro n other
        rw [other.unique rounded]
        omega
      · intro _ equal
        have largest : v.RoundsTo 0x8000000000000000 := roundsTo_of_number equal
        have same := largest.unique rounded
        omega
    · rw [if_neg outside]
      by_cases past : x.roundAway = 0x8000000000000000
      · -- a double this large is whole, so the number itself is one past the largest
        have whole : x.value = x.roundAway := by
          apply Binary.value_of_large x.nearestWhole_roundAway
          rw [past]
          decide
        rw [past] at whole ⊢
        exact .pastLargest approximate (number.trans (congrArg some whole))
      · have inside : x.roundAway ≤ 0x8000000000000000 - 1 := by omega
        rw [min_eq_left inside]
        refine .exact ?_
        rwa [Int64.toInt_ofInt_of_le (by omega) (by omega)]

/-- A number is read exactly or refused, but for the one past the largest. -/
theorem readsWhole_toWhole (numeric : v.type.isNumeric = true) (t : DataType) : ReadsWhole v t (v.toWhole t) := by
  cases v with
  | smallint n =>
    refine .exact (roundsTo_of_number ?_)
    rw [Int16.toInt_toInt64]
    rfl
  | integer n =>
    refine .exact (roundsTo_of_number ?_)
    rw [Int32.toInt_toInt64]
    rfl
  | bigint n => exact .exact (roundsTo_of_number rfl)
  | decimal d => exact readsWhole_decimal d t
  | real _ | double _ => exact readsWhole_approximate rfl t
  | _ => cases numeric

theorem isNull_of_isNumeric (numeric : v.type.isNumeric = true) : v.isNull = false := by
  cases v with
  | null => cases numeric
  | _ => rfl

theorem wholeBound_le (integral : t.wholeBound? = some bound) : bound ≤ 0x8000000000000000 := by
  cases t <;> cases integral <;> decide

/-- What was read is given as it is if the type has it. -/
theorem convert_of_toWhole (integral : t.wholeBound? = some bound) (present : v.isNull = false)
    (read : v.toWhole t = .ok k) :
    (-bound ≤ k.toInt ∧ k.toInt < bound →
        ∃ w, v.convert t = .ok w ∧ w.type = t ∧ w.number? = some (k.toInt : ℚ)) ∧
      (¬ (-bound ≤ k.toInt ∧ k.toInt < bound) → v.convert t = .error (v.outOfRange t)) := by
  rw [convert_of_present present]
  cases t with
  | smallint =>
    cases integral
    have converted : v.convertPresent .smallint =
        if -0x8000 ≤ k.toInt ∧ k.toInt < 0x8000 then .ok (smallint (Int16.ofInt k.toInt))
        else .error (v.outOfRange .smallint) := by
      simp only [convertPresent, read]
      rfl
    rw [converted]
    refine ⟨fun inside => ?_, fun outside => if_neg outside⟩
    refine ⟨_, if_pos inside, rfl, ?_⟩
    rw [number?, Int16.toInt_ofInt_of_le inside.1 inside.2]
  | integer =>
    cases integral
    have converted : v.convertPresent .integer =
        if -0x80000000 ≤ k.toInt ∧ k.toInt < 0x80000000 then .ok (integer (Int32.ofInt k.toInt))
        else .error (v.outOfRange .integer) := by
      simp only [convertPresent, read]
      rfl
    rw [converted]
    refine ⟨fun inside => ?_, fun outside => if_neg outside⟩
    refine ⟨_, if_pos inside, rfl, ?_⟩
    rw [number?, Int32.toInt_ofInt_of_le inside.1 inside.2]
  | bigint =>
    cases integral
    have converted : v.convertPresent .bigint = .ok (bigint k) := by
      simp only [convertPresent, read]
      rfl
    rw [converted]
    exact ⟨fun _ => ⟨_, rfl, rfl, rfl⟩, fun outside => absurd ⟨k.le_toInt, k.toInt_lt⟩ outside⟩
  | _ => cases integral

theorem convert_of_toWhole_error {e : ValueError} (integral : t.wholeBound? = some bound)
    (present : v.isNull = false) (read : v.toWhole t = .error e) : v.convert t = .error e := by
  rw [convert_of_present present]
  cases t with
  | smallint | integer | bigint =>
    simp only [convertPresent, read]
    rfl
  | _ => cases integral

/-- Conversion gives the rounded number if the type has it, and otherwise says that it is out of range. -/
structure ExactOrRefused (v : Value) (t : DataType) (bound : ℤ) : Prop where
  exact : ∀ n, v.RoundsTo n → -bound ≤ n → n < bound →
    ∃ w, v.convert t = .ok w ∧ w.type = t ∧ w.number? = some (n : ℚ)
  refused : (¬ ∃ n, v.RoundsTo n ∧ -bound ≤ n ∧ n < bound) → v.convert t = .error (v.outOfRange t)

theorem exactOrRefused_of_read (integral : t.wholeBound? = some bound) (present : v.isNull = false)
    (read : v.toWhole t = .ok k) (rounded : v.RoundsTo k.toInt) : v.ExactOrRefused t bound where
  exact n same least below := by
    cases same.unique rounded
    exact (convert_of_toWhole integral present read).1 ⟨least, below⟩
  refused outside := (convert_of_toWhole integral present read).2 fun inside => outside ⟨_, rounded, inside⟩

theorem not_pastLargest_of_rounds (rounded : v.RoundsTo k.toInt) : ¬ v.PastLargest t := by
  rintro ⟨_, _, number⟩
  have largest : v.RoundsTo 0x8000000000000000 := roundsTo_of_number number
  have same := largest.unique rounded
  have below := k.toInt_lt
  omega

/-- The number one past the largest is out of range for the smaller types, and becomes the largest `BIGINT`. -/
theorem exactOrRefused_pastLargest (integral : t.wholeBound? = some bound) (present : v.isNull = false)
    (number : v.number? = some 0x8000000000000000) (read : v.toWhole t = .ok Int64.maxValue) :
    (v.ExactOrRefused t bound ↔ t ≠ .bigint) ∧ (t = .bigint → v.convert t = .ok (bigint Int64.maxValue)) := by
  have rounded : v.RoundsTo 0x8000000000000000 := roundsTo_of_number number
  have none : ¬ ∃ n, v.RoundsTo n ∧ -bound ≤ n ∧ n < bound := by
    rintro ⟨n, same, _, below⟩
    have most := wholeBound_le integral
    rw [same.unique rounded] at below
    omega
  have given : t = .bigint → v.convert t = .ok (bigint Int64.maxValue) := by
    rintro rfl
    rw [convert_of_present present, convertPresent, read]
    rfl
  refine ⟨⟨?_, fun other => ⟨fun n same least below => absurd ⟨n, same, least, below⟩ none, fun _ => ?_⟩⟩, given⟩
  · intro right same
    have refused := right.refused none
    rw [given same] at refused
    cases refused
  · apply (convert_of_toWhole integral present read).2
    cases t with
    | smallint | integer =>
      cases integral
      decide
    | bigint => exact absurd rfl other
    | _ => cases integral

/-- A conversion to whole numbers is exact or refused for all numbers and types but for one number of one type. That
one is given as the largest number of the type. -/
theorem exactOrRefused_iff (numeric : v.type.isNumeric = true) (integral : t.wholeBound? = some bound) :
    (v.ExactOrRefused t bound ↔ ¬ v.PastLargest t) ∧
      (v.PastLargest t → v.convert t = .ok (bigint Int64.maxValue)) := by
  have present := isNull_of_isNumeric numeric
  have reads := readsWhole_toWhole numeric t
  cases read : v.toWhole t with
  | ok k =>
    rw [read] at reads
    cases reads with
    | exact rounded =>
      have other : ¬ v.PastLargest t := not_pastLargest_of_rounds rounded
      exact ⟨iff_of_true (exactOrRefused_of_read integral present read rounded) other, fun past => absurd past other⟩
    | pastLargest approximate number =>
      obtain ⟨right, given⟩ := exactOrRefused_pastLargest integral present number read
      refine ⟨right.trans ?_, fun past => given past.1⟩
      exact not_congr ⟨fun same => ⟨same, approximate, number⟩, fun past => past.1⟩
  | error e =>
    rw [read] at reads
    cases reads with
    | refused outside apart =>
      have other : ¬ v.PastLargest t := fun past => apart past.2.1 past.2.2
      have most := wholeBound_le integral
      refine ⟨iff_of_true ⟨?_, fun _ => convert_of_toWhole_error integral present read⟩ other,
        fun past => absurd past other⟩
      intro n rounded least below
      have far := outside n rounded
      omega

/-- The largest double below the bound of `BIGINT`, and the bound itself in single precision. -/
theorem exactOrRefused_iff_largest :
    let below : Binary64 := .ofBits .double 0x43DFFFFFFFFFFFFF
    let past : Binary32 := .ofBits .single 0x5F000000
    (double below).ExactOrRefused .bigint 0x8000000000000000 ∧
      (real past).convert .bigint = .ok (bigint Int64.maxValue) ∧
      (real past).ExactOrRefused .integer 0x80000000 := by
  intro below past
  have size : below.size = 9223372036854774784 := by
    have significand : below.significand = 9007199254740991 := by decide +kernel
    have exponent : below.exponent = 10 := by decide +kernel
    rw [Binary.size, significand, exponent]
    norm_num
  have bound : past.size = 9223372036854775808 := by
    have significand : past.significand = 8388608 := by decide +kernel
    have exponent : past.exponent = 40 := by decide +kernel
    rw [Binary.size, significand, exponent]
    norm_num
  have inside : ¬ (double below).PastLargest .bigint := by
    rintro ⟨_, _, number⟩
    have value : below.value = 9223372036854774784 := size
    simp [number?, value] at number
  have largest : (real past).PastLargest .bigint := ⟨rfl, rfl, congrArg some bound⟩
  refine ⟨(exactOrRefused_iff rfl rfl).1.2 inside, (exactOrRefused_iff rfl rfl).2 largest,
    (exactOrRefused_iff rfl rfl).1.2 fun other => nomatch other.1⟩

/-- Not all conversions of numbers to whole ones are exact or refused: two to the sixty-third becomes one less. -/
theorem double_past_largest_converted :
    ¬ ∀ (v : Value) (t : DataType) (bound : ℤ), v.type.isNumeric = true → t.wholeBound? = some bound →
      v.ExactOrRefused t bound := by
  intro all
  let past : Binary64 := .ofBits .double 0x43E0000000000000
  have size : past.size = 9223372036854775808 := by
    have significand : past.significand = 4503599627370496 := by decide +kernel
    have exponent : past.exponent = 11 := by decide +kernel
    rw [Binary.size, significand, exponent]
    norm_num
  have number : (double past).number? = some 0x8000000000000000 := congrArg some size
  have read : (double past).toWhole .bigint = .ok Int64.maxValue := by decide +kernel
  obtain ⟨right, _⟩ := exactOrRefused_pastLargest rfl rfl number read
  exact right.1 (all (double past) .bigint _ rfl rfl) rfl

end Value

end SqlEngine
