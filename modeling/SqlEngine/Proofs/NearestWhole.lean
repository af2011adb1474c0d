import SqlEngine.Proofs.RoundedNumbers

/-!
# Nearest whole numbers

Each rational number has one whole number that it rounds to, a half going away from zero. Rounding a binary
number and rounding a decimal at some place find it for the number that is meant, whatever its exponent or scale.
-/

namespace SqlEngine

/-- The whole number `n` is nearest to `q`, and of two that are equally near the one further from zero. -/
structure NearestWhole (q : ℚ) (n : ℤ) : Prop where
  near : |n - q| ≤ 1 / 2
  half : |n - q| = 1 / 2 → |q| < |(n : ℚ)|

namespace NearestWhole

variable {q : ℚ} {m n n' : ℤ} {unit : ℕ}

theorem distance_eq (positive : 0 < unit) : |(n : ℚ) - m / unit| = ((n * unit - m).natAbs : ℚ) / unit := by
  have unitPos : (0 : ℚ) < unit := by exact_mod_cast positive
  have whole : (n : ℚ) - m / unit = ((n * unit - m : ℤ) : ℚ) / unit := by
    push_cast
    rw [sub_div, mul_div_cancel_right₀ _ unitPos.ne']
  rw [whole, abs_div, abs_of_pos unitPos, Nat.cast_natAbs, Int.cast_abs]

theorem iff_roundsAway (positive : 0 < unit) : NearestWhole (m / unit) n ↔ RoundsAway unit m (n * unit) := by
  have unitPos : (0 : ℚ) < unit := by exact_mod_cast positive
  have near : |(n : ℚ) - m / unit| ≤ 1 / 2 ↔ 2 * (n * unit - m).natAbs ≤ unit := by
    rw [distance_eq positive, div_le_div_iff₀ unitPos two_pos, one_mul, mul_comm]
    exact_mod_cast Iff.rfl
  have half : |(n : ℚ) - m / unit| = 1 / 2 ↔ 2 * (n * unit - m).natAbs = unit := by
    rw [distance_eq positive, div_eq_div_iff unitPos.ne' two_ne_zero, one_mul, mul_comm]
    exact_mod_cast Iff.rfl
  have farther : |(m : ℚ) / unit| < |(n : ℚ)| ↔ m.natAbs < (n * unit).natAbs := by
    rw [abs_div, abs_of_pos unitPos, div_lt_iff₀ unitPos, Int.natAbs_mul, Int.natAbs_natCast,
      ← Int.cast_abs, ← Int.cast_abs, ← Nat.cast_natAbs, ← Nat.cast_natAbs]
    exact_mod_cast Iff.rfl
  constructor
  · rintro ⟨close, tie⟩
    exact ⟨Int.dvd_mul_left n unit, near.1 close, fun middle => farther.1 (tie (half.2 middle))⟩
  · rintro ⟨_, close, tie⟩
    exact ⟨near.2 close, fun middle => farther.2 (tie (half.1 middle))⟩

theorem unique (h : NearestWhole q n) (h' : NearestWhole q n') : n = n' := by
  rw [← Rat.num_div_den q, iff_roundsAway q.den_pos] at h h'
  have denominator : (q.den : ℤ) ≠ 0 := by exact_mod_cast q.den_nz
  exact Int.eq_of_mul_eq_mul_right denominator (h.unique q.den_pos h')

theorem exists_nearest (q : ℚ) : ∃ n, NearestWhole q n := by
  refine ⟨q.num.sign * ((2 * q.num.natAbs + q.den) / (2 * q.den) : ℕ), ?_⟩
  rw [← Rat.num_div_den q, iff_roundsAway q.den_pos, Rat.num_div_den]
  exact RoundsAway.signed_halfUp q.den_pos q.num

theorem neg (h : NearestWhole q n) : NearestWhole (-q) (-n) := by
  rw [← Rat.num_div_den q, iff_roundsAway q.den_pos] at h
  rw [← Rat.num_div_den q, ← neg_div, ← Int.cast_neg, iff_roundsAway q.den_pos, Int.neg_mul]
  exact h.neg

/-- A whole number is nearest to itself. -/
theorem intCast_iff : NearestWhole (m : ℚ) n ↔ n = m := by
  have self : NearestWhole (m : ℚ) m := by
    refine ⟨?_, ?_⟩ <;> norm_num
  constructor
  · intro h
    exact h.unique self
  · rintro rfl
    exact self

end NearestWhole

namespace Decimal

variable {d : Decimal} {s : ℕ}

/-- The number that a decimal stands for. -/
def value (d : Decimal) : ℚ := d.unscaled / 10 ^ d.scale

theorem cast_pow_ten (n : ℕ) : (((Nat.pow 10 n : ℕ) : ℤ) : ℚ) = 10 ^ n := by
  rw [Nat.pow_eq]
  push_cast
  rfl

theorem value_eq_units (d : Decimal) : d.value = d.units / 10 ^ 28 := by
  have few := d.scale_le
  have power : (10 : ℚ) ^ 28 = 10 ^ d.scale * 10 ^ (28 - d.scale) := by
    rw [← pow_add, Nat.add_sub_cancel' few]
  rw [value, units, power, Int.cast_mul, cast_pow_ten, mul_div_mul_right _ _ (pow_ne_zero _ (by norm_num))]

theorem value_ofInt64 (n : Int64) : (ofInt64 n).value = n.toInt := by
  rw [value, unscaled_ofInt64]
  exact div_one _

/-- At the place of a scale, a decimal is rounded to the nearest number of its value. -/
theorem nearestWhole_roundAway (d : Decimal) (few : s ≤ 28) :
    NearestWhole (d.value * 10 ^ s) ((d.roundAway s).unscaled * (Nat.pow 10 (s - (d.roundAway s).scale) : ℕ)) := by
  have rounded := d.roundsAway_roundAway s
  rw [← units_of_scale_le few (d.scale_roundAway_le s), ← NearestWhole.iff_roundsAway (pow_pos_ten _)] at rounded
  have power : (10 : ℚ) ^ 28 = 10 ^ (28 - s) * 10 ^ s := by
    rw [← pow_add, Nat.sub_add_cancel few]
  have value : d.value * 10 ^ s = d.units / (Nat.pow 10 (28 - s) : ℕ) := by
    rw [value_eq_units, power, ← div_div, div_mul_cancel₀ _ (pow_ne_zero _ (by norm_num)), ← Int.cast_natCast,
      cast_pow_ten]
  rw [value]
  exact rounded

end Decimal

namespace Binary

variable {F : BinaryFormat}

/-- The number that a finite binary number stands for. -/
def value (x : Binary F) : ℚ := if x.negative then -x.size else x.size

theorem nearestWhole_roundAway (x : Binary F) : NearestWhole x.value x.roundAway := by
  have positive := scaleDown_pos (n := x.significand) Nat.one_pos (-x.exponent)
  have ratio := scaleDown_ratio x.significand 1 (-x.exponent)
  simp only [roundAway]
  generalize scaleDown x.significand 1 (-x.exponent) = fraction at positive ratio
  obtain ⟨n, d⟩ := fraction
  have size : x.size = n / d := by
    rw [ratio, Nat.cast_one, div_one, zpow_neg, div_inv_eq_mul]
    rfl
  have rounded : NearestWhole x.size ((2 * n + d) / (2 * d) : ℤ) := by
    have up := RoundsAway.halfUp positive n
    rw [← NearestWhole.iff_roundsAway positive] at up
    rw [size]
    push_cast at up
    exact up
  simp only [value]
  split
  · exact rounded.neg
  · exact rounded

/-- Double precision keeps the number that a single precision number stands for. -/
theorem value_convert_double {x : Binary32} (finite : x.isFinite = true) :
    (x.convert .double).isFinite = true ∧ (x.convert .double).value = x.value := by
  obtain ⟨y, yFinite, same⟩ := exists_double finite
  rw [convert_size finite yFinite same.symm]
  refine ⟨yFinite, ?_⟩
  have size : (⟨x.negative, y.magnitude, y.magnitude_lt⟩ : Binary64).size = x.size := same
  simp only [value, size]

theorem isFinite_convert_double (x : Binary32) : (x.convert .double).isFinite = x.isFinite := by
  cases finite : x.isFinite with
  | true => exact (value_convert_double finite).1
  | false =>
    simp only [convert]
    by_cases number : x.isNaN = true
    · rw [if_pos number]
      cases x.negative <;> decide
    · have infinite : x.isInfinite = true := by
        simp only [isNaN, isInfinite, isFinite, beq_iff_eq, decide_eq_true_eq, decide_eq_false_iff_not]
          at *
        omega
      rw [if_neg number, if_pos infinite]
      cases x.negative <;> decide

end Binary

end SqlEngine
