import Mathlib.Algebra.Order.Field.Basic
import Mathlib.Data.Rat.Cast.Order
import Mathlib.Tactic.NormNum
import Mathlib.Tactic.Ring
import SqlEngine.Numeric.Binary

/-!
# Exact rounding

Rounding a fraction that is a number of the format gives that number. So a single precision number
that goes through double precision comes back unchanged.
-/

namespace SqlEngine

theorem two_zpow_pos (q : ℤ) : (0 : ℚ) < 2 ^ q := zpow_pos (by norm_num) q

theorem scaleDown_pos {n d : Nat} (hd : 0 < d) (q : ℤ) : 0 < (scaleDown n d q).2 := by
  simp only [scaleDown]
  split
  · exact Nat.mul_pos hd (Nat.pow_pos (by decide))
  · exact hd

theorem scaleDown_ratio (n d : Nat) (q : ℤ) :
    ((scaleDown n d q).1 : ℚ) / (scaleDown n d q).2 = n / d / 2 ^ q := by
  simp only [scaleDown]
  split
  · next h =>
    have power : (2 : ℚ) ^ q = 2 ^ q.toNat := by
      rw [← zpow_natCast, Int.toNat_of_nonneg h]
    simp only [Nat.pow_eq, Nat.cast_mul, Nat.cast_pow, Nat.cast_ofNat]
    rw [power, div_div]
  · next h =>
    have power : (2 : ℚ) ^ q = (2 ^ (-q).toNat)⁻¹ := by
      rw [← zpow_natCast, Int.toNat_of_nonneg (by omega), ← zpow_neg, neg_neg]
    simp only [Nat.pow_eq, Nat.cast_mul, Nat.cast_pow, Nat.cast_ofNat]
    rw [power, div_inv_eq_mul]
    ring

theorem div_lt_two_pow_iff {a b : Nat} (hb : 0 < b) (k : Nat) :
    a / b < Nat.pow 2 k ↔ (a : ℚ) / b < 2 ^ (k : ℤ) := by
  have positive : (0 : ℚ) < b := by exact_mod_cast hb
  rw [Nat.div_lt_iff_lt_mul hb, div_lt_iff₀ positive, zpow_natCast]
  exact_mod_cast Iff.rfl

theorem divNearestEven_mul (k : Nat) {b : Nat} (hb : 0 < b) : divNearestEven (k * b) b = k := by
  simp only [divNearestEven]
  have quotient : k * b / b = k := Nat.mul_div_cancel k hb
  have remainder : k * b % b = 0 := Nat.mul_mod_left k b
  simp only [quotient, remainder]
  rw [if_pos (by omega)]

theorem log2_bounds {n : Nat} (hn : 0 < n) :
    (2 : ℚ) ^ (n.log2 : ℤ) ≤ n ∧ (n : ℚ) < 2 ^ ((n.log2 : ℤ) + 1) := by
  have lower := Nat.log2_self_le (n := n) (by omega)
  have upper := Nat.lt_log2_self (n := n)
  constructor
  · rw [zpow_natCast]
    exact_mod_cast lower
  · have cast : (2 : ℚ) ^ ((n.log2 : ℤ) + 1) = ((2 ^ (n.log2 + 1) : Nat) : ℚ) := by
      push_cast
      rw [← zpow_natCast]
      push_cast
      rfl
    rw [cast]
    exact_mod_cast upper

namespace BinaryFormat

variable {F : BinaryFormat}

/-- The last place lies the width of the fraction below the first bit of the number. -/
theorem lastPlace_eq {n d : Nat} (hn : 0 < n) (hd : 0 < d) {p : ℤ}
    (lower : (2 : ℚ) ^ p ≤ (n : ℚ) / d) (upper : (n : ℚ) / d < 2 ^ (p + 1)) :
    F.lastPlace n d = max F.leastExponent (p - F.fractionBits) := by
  obtain ⟨nLower, nUpper⟩ := log2_bounds hn
  obtain ⟨dLower, dUpper⟩ := log2_bounds hd
  have dPos : (0 : ℚ) < d := by exact_mod_cast hd
  have two : (1 : ℚ) < 2 := by norm_num
  have above : p < (n.log2 : ℤ) - d.log2 + 1 := by
    have bound : (2 : ℚ) ^ p < 2 ^ ((n.log2 : ℤ) - d.log2 + 1) := by
      refine lt_of_le_of_lt lower ?_
      rw [div_lt_iff₀ dPos]
      refine lt_of_lt_of_le nUpper ?_
      have split : (2 : ℚ) ^ ((n.log2 : ℤ) + 1) =
          2 ^ ((n.log2 : ℤ) - d.log2 + 1) * 2 ^ (d.log2 : ℤ) := by
        rw [← zpow_add₀ (by norm_num)]
        congr 1
        ring
      rw [split]
      exact mul_le_mul_of_nonneg_left dLower (two_zpow_pos _).le
    exact (zpow_lt_zpow_iff_right₀ two).1 bound
  have below : (n.log2 : ℤ) - d.log2 - 1 < p + 1 := by
    have bound : (2 : ℚ) ^ ((n.log2 : ℤ) - d.log2 - 1) < 2 ^ (p + 1) := by
      refine lt_of_lt_of_le ?_ (upper.le)
      rw [lt_div_iff₀ dPos]
      refine lt_of_lt_of_le ?_ nLower
      have split : (2 : ℚ) ^ (n.log2 : ℤ) =
          2 ^ ((n.log2 : ℤ) - d.log2 - 1) * 2 ^ ((d.log2 : ℤ) + 1) := by
        rw [← zpow_add₀ (by norm_num)]
        congr 1
        ring
      rw [split]
      exact mul_lt_mul_of_pos_left dUpper (two_zpow_pos _)
    exact (zpow_lt_zpow_iff_right₀ two).1 bound
  let q : ℤ := (n.log2 : ℤ) - d.log2 - F.fractionBits - 1
  have short : (scaleDown n d q).1 / (scaleDown n d q).2 < Nat.pow 2 (F.fractionBits + 1) ↔
      p < (n.log2 : ℤ) - d.log2 := by
    rw [div_lt_two_pow_iff (scaleDown_pos hd q), scaleDown_ratio, div_lt_iff₀ (two_zpow_pos q),
      ← zpow_add₀ (by norm_num : (2 : ℚ) ≠ 0)]
    have place : ((F.fractionBits + 1 : Nat) : ℤ) + q = (n.log2 : ℤ) - d.log2 := by
      simp only [q]
      push_cast
      ring
    rw [place]
    constructor
    · intro h
      exact (zpow_lt_zpow_iff_right₀ two).1 (lt_of_le_of_lt lower h)
    · intro h
      exact lt_of_lt_of_le upper (zpow_le_zpow_right₀ two.le (by omega))
  unfold lastPlace
  simp only []
  congr 1
  by_cases h : p < (n.log2 : ℤ) - d.log2
  · rw [if_pos (short.2 h)]
    omega
  · rw [if_neg (fun lt => h (short.1 lt))]
    omega

/-- A fraction that is whole at its last place is not rounded. -/
theorem roundRatio_eq {n d k : Nat} (hn : 0 < n) (hd : 0 < d)
    (whole : (n : ℚ) / d = k * 2 ^ F.lastPlace n d) :
    F.roundRatio n d =
      min F.infinity ((F.lastPlace n d - F.leastExponent).toNat * Nat.pow 2 F.fractionBits + k) := by
  unfold roundRatio
  rw [if_neg (by omega)]
  simp only []
  have positive := scaleDown_pos (n := n) hd (F.lastPlace n d)
  have ratio := scaleDown_ratio n d (F.lastPlace n d)
  generalize scaleDown n d (F.lastPlace n d) = s at positive ratio
  obtain ⟨a, b⟩ := s
  have bPos : (0 : ℚ) < b := by exact_mod_cast positive
  have exact : a = k * b := by
    rw [whole, mul_div_assoc, div_self (two_zpow_pos _).ne', mul_one, div_eq_iff bPos.ne'] at ratio
    exact_mod_cast ratio
  simp only [exact, divNearestEven_mul k positive]

theorem roundRatio_le (F : BinaryFormat) (n d : Nat) : F.roundRatio n d ≤ F.infinity := by
  unfold roundRatio
  split
  · exact Nat.zero_le _
  · exact Nat.min_le_left _ _

/-- A whole number is not rounded to zero in a format that has fractions. -/
theorem roundRatio_pos (fractions : F.leastExponent ≤ 0) (room : 0 < F.infinity) {n : Nat} (hn : 0 < n) :
    0 < F.roundRatio n 1 := by
  unfold roundRatio
  rw [if_neg (by omega)]
  simp only []
  refine Nat.lt_min.2 ⟨room, ?_⟩
  have least : F.leastExponent ≤ F.lastPlace n 1 := le_max_left _ _
  rcases least.eq_or_lt with same | above
  · have place : scaleDown n 1 F.leastExponent = (n * Nat.pow 2 (-F.leastExponent).toNat, 1) := by
      unfold scaleDown
      split
      · have zero : F.leastExponent = 0 := by omega
        simp [zero]
      · rfl
    have whole := divNearestEven_mul (n * Nat.pow 2 (-F.leastExponent).toNat) Nat.one_pos
    rw [Nat.mul_one] at whole
    rw [← same, place, whole]
    exact Nat.add_pos_right _ (Nat.mul_pos hn (Nat.two_pow_pos _))
  · exact Nat.add_pos_left (Nat.mul_pos (by omega) (Nat.two_pow_pos _)) _

end BinaryFormat

namespace Binary

variable {F : BinaryFormat}

/-- As a double, only zero is equal to zero. -/
theorem ofInt_eq_zero (n : Int) : (ofInt .double n).eq (.zero false) = (n == 0) := by
  have number : (ofInt .double n).isNaN = false :=
    decide_eq_false (Nat.not_lt_of_le (BinaryFormat.roundRatio_le .double n.natAbs 1))
  by_cases none : n = 0
  · subst none
    rfl
  · have positive : 0 < (ofInt .double n).magnitude :=
      BinaryFormat.roundRatio_pos (by decide) (by decide) (Int.natAbs_pos.2 none)
    have apart : (ofInt .double n).rank ≠ 0 := by
      unfold rank
      split <;> omega
    rw [eq, number, beq_eq_false_iff_ne.2 none]
    exact beq_eq_false_iff_ne.2 apart

/-- What a finite number stands for, but for its sign. -/
def size (x : Binary F) : ℚ := x.significand * 2 ^ x.exponent

theorem magnitude_eq (x : Binary F) :
    x.magnitude =
      (x.exponent - F.leastExponent).toNat * Nat.pow 2 F.fractionBits + x.significand := by
  have split := Nat.div_add_mod x.magnitude (Nat.pow 2 F.fractionBits)
  unfold exponent significand
  simp only []
  by_cases h : x.magnitude / Nat.pow 2 F.fractionBits = 0
  · rw [h, Nat.mul_zero] at split
    rw [if_pos h, if_pos h]
    simp only [sub_self, Int.toNat_zero, Nat.zero_mul]
    exact split.symm
  · rw [if_neg h, if_neg h]
    obtain ⟨e, he⟩ := Nat.exists_eq_succ_of_ne_zero h
    rw [he] at split ⊢
    have places : (F.leastExponent + ((e.succ - 1 : Nat) : ℤ) - F.leastExponent).toNat = e := by
      rw [Nat.succ_sub_one]
      omega
    rw [Nat.mul_succ, Nat.mul_comm] at split
    rw [places]
    omega

theorem significand_lt (x : Binary F) : x.significand < Nat.pow 2 (F.fractionBits + 1) := by
  have small := Nat.mod_lt x.magnitude (Nat.two_pow_pos F.fractionBits)
  have double : Nat.pow 2 (F.fractionBits + 1) = 2 * Nat.pow 2 F.fractionBits := by
    simp only [Nat.pow_eq, Nat.pow_succ]
    omega
  simp only [Nat.pow_eq] at *
  simp only [significand]
  simp only [Nat.pow_eq]
  split <;> omega

/-- A number either has a full significand or the least exponent. -/
theorem normal_or_least (x : Binary F) :
    Nat.pow 2 F.fractionBits ≤ x.significand ∨ x.exponent = F.leastExponent := by
  unfold significand exponent
  simp only []
  split
  · exact .inr rfl
  · exact .inl (Nat.le_add_right _ _)

theorem leastExponent_le (x : Binary F) : F.leastExponent ≤ x.exponent := by
  unfold exponent
  simp only []
  split <;> omega

theorem magnitude_eq_zero {x : Binary F} (h : x.significand = 0) : x.magnitude = 0 := by
  have positive := Nat.two_pow_pos F.fractionBits
  rcases x.normal_or_least with full | least
  · simp only [Nat.pow_eq] at full
    omega
  · rw [x.magnitude_eq, least, h]
    simp

/-- A fraction of the size of a finite number is rounded to it. -/
theorem roundRatio_size {x : Binary F} (finite : x.isFinite) {n d : Nat} (hd : 0 < d)
    (h : (n : ℚ) / d = x.size) : F.roundRatio n d = x.magnitude := by
  have dPos : (0 : ℚ) < d := by exact_mod_cast hd
  have bound : x.magnitude < F.infinity := by simpa [isFinite] using finite
  by_cases hn : n = 0
  · have none : x.significand = 0 := by
      rw [hn, Nat.cast_zero, zero_div, size, zero_eq_mul] at h
      rcases h with h | h
      · exact_mod_cast h
      · exact absurd h (two_zpow_pos _).ne'
    rw [magnitude_eq_zero none, BinaryFormat.roundRatio, if_pos hn]
  · have some : 0 < x.significand := by
      rcases Nat.eq_zero_or_pos x.significand with zero | pos
      · rw [size, zero, Nat.cast_zero, zero_mul, div_eq_zero_iff] at h
        rcases h with h | h
        · exact absurd (by exact_mod_cast h) hn
        · exact absurd h dPos.ne'
      · exact pos
    obtain ⟨lower, upper⟩ := log2_bounds some
    have place : F.lastPlace n d = x.exponent := by
      have scaled := two_zpow_pos x.exponent
      rw [BinaryFormat.lastPlace_eq (p := x.significand.log2 + x.exponent)
        (Nat.pos_of_ne_zero hn) hd]
      · have short : x.significand.log2 < F.fractionBits + 1 :=
          (Nat.log2_lt (by omega)).2 x.significand_lt
        have least := x.leastExponent_le
        rcases x.normal_or_least with full | subnormal
        · have long : F.fractionBits ≤ x.significand.log2 := (Nat.le_log2 (by omega)).2 full
          omega
        · omega
      · rw [h, size, zpow_add₀ (by norm_num)]
        exact mul_le_mul_of_nonneg_right lower scaled.le
      · rw [h, size, add_right_comm, zpow_add₀ (by norm_num)]
        exact mul_lt_mul_of_pos_right upper scaled
    rw [BinaryFormat.roundRatio_eq (k := x.significand) (Nat.pos_of_ne_zero hn) hd
      (by rw [h, place, size]), place, ← x.magnitude_eq]
    exact Nat.min_eq_right bound.le

/-- Scaling to the size of a finite number gives its magnitude. -/
theorem ofScaled_size {x : Binary F} (finite : x.isFinite) (negative : Bool) {m : Nat} {q : ℤ}
    (h : (m : ℚ) * 2 ^ q = x.size) :
    ofScaled F negative m q = ⟨negative, x.magnitude, x.magnitude_lt⟩ := by
  have positive := scaleDown_pos (n := m) Nat.one_pos (-q)
  have ratio : ((scaleDown m 1 (-q)).1 : ℚ) / (scaleDown m 1 (-q)).2 = x.size := by
    rw [scaleDown_ratio, Nat.cast_one, div_one, zpow_neg, div_inv_eq_mul, h]
  simp only [ofScaled, ofRatio]
  simp only [roundRatio_size finite positive ratio]

/-- A number whose first bit lies high enough and not too high is a number of the format. -/
theorem exists_size {m : Nat} {q : ℤ} (some : 0 < m) (short : m.log2 ≤ F.fractionBits)
    (low : F.leastExponent ≤ q + m.log2 - F.fractionBits)
    (high : ((q + m.log2 - F.fractionBits - F.leastExponent).toNat + 2) * Nat.pow 2 F.fractionBits ≤
      F.infinity) :
    ∃ x : Binary F, x.isFinite = true ∧ x.size = m * 2 ^ q := by
  let unit := Nat.pow 2 F.fractionBits
  let k := m * Nat.pow 2 (F.fractionBits - m.log2)
  let place := (q + m.log2 - F.fractionBits - F.leastExponent).toNat
  have unitPos : 0 < unit := Nat.two_pow_pos _
  have full : unit = Nat.pow 2 m.log2 * Nat.pow 2 (F.fractionBits - m.log2) := by
    simp only [unit, Nat.pow_eq]
    rw [← Nat.pow_add, Nat.add_sub_cancel' short]
  have lower : unit ≤ k := by
    rw [full]
    exact Nat.mul_le_mul_right _ (Nat.log2_self_le (by omega))
  have upper : k < 2 * unit := by
    have doubled : 2 * unit = Nat.pow 2 (m.log2 + 1) * Nat.pow 2 (F.fractionBits - m.log2) := by
      rw [full, ← Nat.mul_assoc]
      simp only [Nat.pow_eq, Nat.pow_succ, Nat.mul_comm 2]
    rw [doubled]
    exact Nat.mul_lt_mul_of_pos_right Nat.lt_log2_self (Nat.two_pow_pos _)
  have finite : place * unit + k < F.infinity := by
    have room : (place + 2) * unit ≤ F.infinity := high
    rw [Nat.add_mul] at room
    omega
  let x : Binary F := ⟨false, place * unit + k, Nat.lt_trans finite F.infinity_lt⟩
  have split : place * unit + k = unit * (place + 1) + (k - unit) := by
    rw [Nat.mul_succ, Nat.mul_comm]
    omega
  have quotient : x.magnitude / unit = place + 1 := by
    show (place * unit + k) / unit = place + 1
    rw [split, Nat.mul_add_div unitPos, Nat.div_eq_of_lt (by omega), Nat.add_zero]
  have remainder : x.magnitude % unit = k - unit := by
    show (place * unit + k) % unit = k - unit
    rw [split, Nat.mul_add_mod, Nat.mod_eq_of_lt (by omega)]
  have significand : x.significand = k := by
    simp only [Binary.significand]
    simp only [unit] at quotient remainder lower
    simp only [quotient, remainder]
    rw [if_neg (by omega), Nat.add_sub_cancel' lower]
  have exponent : x.exponent = q + m.log2 - F.fractionBits := by
    simp only [Binary.exponent]
    simp only [unit] at quotient
    simp only [quotient]
    rw [if_neg (by omega), Nat.add_sub_cancel]
    omega
  refine ⟨x, by simpa [isFinite] using finite, ?_⟩
  have shift : q + m.log2 - F.fractionBits = q - (F.fractionBits - m.log2 : Nat) := by
    omega
  rw [size, significand, exponent, shift, zpow_sub₀ (by norm_num), zpow_natCast]
  simp only [k, Nat.pow_eq, Nat.cast_mul, Nat.cast_pow, Nat.cast_ofNat]
  rw [mul_assoc, mul_div_cancel₀]
  exact (pow_pos (by norm_num) _).ne'

theorem exponent_le {x : Binary32} (finite : x.isFinite) : x.exponent ≤ 104 := by
  have bound : x.magnitude < BinaryFormat.single.infinity := by simpa [isFinite] using finite
  have top : BinaryFormat.single.infinity = 255 * 8388608 := by decide
  have least : BinaryFormat.single.leastExponent = -149 := by decide
  have unit : Nat.pow 2 BinaryFormat.single.fractionBits = 8388608 := by decide
  simp only [exponent]
  simp only [unit, least]
  split <;> omega

/-- Single precision numbers are double precision numbers. -/
theorem exists_double {x : Binary32} (finite : x.isFinite) :
    ∃ y : Binary64, y.isFinite = true ∧ y.size = x.size := by
  rcases Nat.eq_zero_or_pos x.significand with zero | some
  · refine ⟨.zero false, by decide, ?_⟩
    have none : (Binary.zero false : Binary64).significand = 0 := by decide
    rw [size, size, zero, none, Nat.cast_zero, zero_mul, zero_mul]
  · have short : x.significand.log2 < 24 := (Nat.log2_lt (by omega)).2 x.significand_lt
    have least : -149 ≤ x.exponent := x.leastExponent_le
    have most := x.exponent_le finite
    have low : BinaryFormat.double.leastExponent = -1074 := by decide
    have digits : BinaryFormat.double.fractionBits = 52 := rfl
    have places :
        (x.exponent + x.significand.log2 - 52 - -1074).toNat + 2 ≤ 2046 := by omega
    obtain ⟨y, yFinite, same⟩ := exists_size (F := .double) (q := x.exponent) some
      (by omega) (by omega) (by
        rw [low, digits]
        exact Nat.le_trans (Nat.mul_le_mul_right _ places) (by decide))
    exact ⟨y, yFinite, same⟩

theorem eq_infinite {x : Binary F} (h : x.isInfinite = true) : x = infinite x.negative := by
  obtain ⟨negative, magnitude, bound⟩ := x
  have same : magnitude = F.infinity := by simpa [isInfinite] using h
  subst same
  rfl

/-- A finite number of another format has the number of its size in this one. -/
theorem convert_size {G : BinaryFormat} {x : Binary F} {y : Binary G} (xFinite : x.isFinite)
    (yFinite : y.isFinite) (same : x.size = y.size) :
    x.convert G = ⟨x.negative, y.magnitude, y.magnitude_lt⟩ := by
  have bound : x.magnitude < F.infinity := by simpa [isFinite] using xFinite
  have number : x.isNaN = false := by simpa [isNaN] using bound.le
  have bounded : x.isInfinite = false := by simpa [isInfinite] using bound.ne
  simp only [convert]
  simp only [number, bounded, Bool.false_eq_true, if_false]
  exact ofScaled_size yFinite x.negative same

/-- Double precision loses nothing of a single precision number but the payload of a NaN. -/
theorem convert_double_single {x : Binary32} (h : x.isNaN = false) :
    (x.convert .double).convert .single = x := by
  by_cases infinite : x.isInfinite = true
  · rw [eq_infinite infinite]
    cases x.negative <;> decide
  · have finite : x.isFinite = true := by
      simp only [isNaN, isInfinite, isFinite, beq_iff_eq, decide_eq_true_eq, decide_eq_false_iff_not]
        at *
      omega
    obtain ⟨y, yFinite, same⟩ := exists_double finite
    rw [convert_size finite yFinite same.symm]
    exact convert_size (x := ⟨x.negative, y.magnitude, y.magnitude_lt⟩) yFinite finite same

theorem isNaN_convert_single {x : Binary64} (h : x.isNaN = true) :
    (x.convert .single).isNaN = true := by
  simp only [convert]
  rw [if_pos h]
  cases x.negative <;> decide

theorem isNaN_convert_double {x : Binary32} (h : x.isNaN = true) :
    (x.convert .double).isNaN = true := by
  simp only [convert]
  rw [if_pos h]
  cases x.negative <;> decide

end Binary

end SqlEngine
