import SqlEngine.Proofs.DecimalValues

/-!
# Rounding half away from zero

What rounding means for whole numbers, apart from how it is done: the result is the nearest multiple of a unit,
and of two multiples that are equally near the one further from zero. There is one such number, and rounding a
decimal to some places finds it.
-/

namespace SqlEngine

/-- The number `n` is the multiple of `unit` that `m` is rounded to. -/
structure RoundsAway (unit : Nat) (m n : Int) : Prop where
  multiple : (unit : Int) ∣ n
  near : 2 * (n - m).natAbs ≤ unit
  half : 2 * (n - m).natAbs = unit → m.natAbs < n.natAbs

namespace RoundsAway

variable {unit k : Nat} {m n n' : Int}

theorem self (positive : 0 < unit) (multiple : (unit : Int) ∣ m) : RoundsAway unit m m := by
  refine ⟨multiple, ?_, ?_⟩ <;> omega

/-- Multiples of the unit that differ are a unit apart. -/
theorem unit_le_of_lt {x y : Int} (hx : (unit : Int) ∣ x) (hy : (unit : Int) ∣ y) (less : x < y) :
    x + unit ≤ y := by
  have apart := Int.le_of_dvd (by omega) (Int.dvd_sub hy hx)
  omega

theorem le_of_rounds (positive : 0 < unit) (h : RoundsAway unit m n) (h' : RoundsAway unit m n') : n ≤ n' := by
  by_contra greater
  have apart := unit_le_of_lt h'.multiple h.multiple (by omega)
  have near := h.near
  have near' := h'.near
  -- the number stands in the middle, so both multiples are further from zero and zero is between them
  have larger := h.half (by omega)
  have larger' := h'.half (by omega)
  have above := unit_le_of_lt (Int.dvd_zero _) h.multiple (by omega)
  omega

theorem unique (positive : 0 < unit) (h : RoundsAway unit m n) (h' : RoundsAway unit m n') : n = n' :=
  Int.le_antisymm (le_of_rounds positive h h') (le_of_rounds positive h' h)

theorem neg (h : RoundsAway unit m n) : RoundsAway unit (-m) (-n) := by
  have near := h.near
  have half := h.half
  refine ⟨Int.dvd_neg.2 h.multiple, ?_, ?_⟩ <;> omega

theorem mul (positive : 0 < k) (h : RoundsAway unit m n) : RoundsAway (unit * k) (m * k) (n * k) := by
  have distance : 2 * (n * k - m * k).natAbs = 2 * (n - m).natAbs * k := by
    rw [← Int.sub_mul, Int.natAbs_mul, Int.natAbs_natCast, Nat.mul_assoc]
  refine ⟨?_, ?_, ?_⟩
  · push_cast
    exact Int.mul_dvd_mul_right _ h.multiple
  · rw [distance]
    exact Nat.mul_le_mul_right k h.near
  · intro middle
    rw [distance] at middle
    rw [Int.natAbs_mul, Int.natAbs_mul, Int.natAbs_natCast]
    apply Nat.mul_lt_mul_of_pos_right _ positive
    exact h.half (Nat.eq_of_mul_eq_mul_right positive middle)

/-- Adding half a unit and dropping the rest rounds a natural number. -/
theorem halfUp (positive : 0 < unit) (m : Nat) :
    RoundsAway unit m (((2 * m + unit) / (2 * unit) : Nat) * (unit : Int)) := by
  have division := Nat.div_add_mod (2 * m + unit) (2 * unit)
  have rest := Nat.mod_lt (2 * m + unit) (show 0 < 2 * unit by omega)
  generalize (2 * m + unit) / (2 * unit) = q at division
  have twice : 2 * unit * q = 2 * (q * unit) := by ring
  rw [twice] at division
  rw [← Int.natCast_mul]
  refine ⟨Int.natCast_dvd_natCast.2 (Nat.dvd_mul_left unit q), ?_, ?_⟩ <;> omega

theorem signed_halfUp (positive : 0 < unit) (m : Int) :
    RoundsAway unit m (m.sign * ((2 * m.natAbs + unit) / (2 * unit) : Nat) * unit) := by
  have rounded := halfUp positive m.natAbs
  rcases Int.lt_trichotomy m 0 with below | rfl | above
  · have opposite := rounded.neg
    have size : -(m.natAbs : Int) = m := by omega
    rw [size] at opposite
    rw [Int.sign_eq_neg_one_of_neg below, Int.neg_one_mul, Int.neg_mul]
    exact opposite
  · rw [Int.sign_zero, Int.zero_mul, Int.zero_mul]
    exact self positive (Int.dvd_zero _)
  · have size : (m.natAbs : Int) = m := by omega
    rw [size] at rounded
    rw [Int.sign_eq_one_of_pos above, Int.one_mul]
    exact rounded

/-- Rounding keeps the order with respect to a multiple of the unit unless it reaches that multiple. -/
theorem compare_multiple (h : RoundsAway unit m n) {x : Int} (multiple : (unit : Int) ∣ x)
    (ne : n ≠ x) : compare n x = compare m x := by
  have near := h.near
  rcases Int.lt_or_gt_of_ne ne with less | greater
  · have apart := unit_le_of_lt h.multiple multiple less
    rw [Int.compare_eq_lt.2 less, Int.compare_eq_lt.2 (by omega)]
  · have apart := unit_le_of_lt multiple h.multiple greater
    rw [Int.compare_eq_gt.2 greater, Int.compare_eq_gt.2 (by omega)]

end RoundsAway

namespace Decimal

variable {d : Decimal} {p : Nat}

theorem dvd_units (few : d.scale ≤ p) : ((Nat.pow 10 (28 - p) : Nat) : Int) ∣ d.units := by
  by_cases inside : p ≤ 28
  · rw [← units_of_scale_le inside few]
    exact Int.dvd_mul_left _ _
  · rw [Nat.sub_eq_zero_of_le (by omega)]
    exact Int.one_dvd _

/-- A decimal is rounded to places behind the point as its value is. -/
theorem roundsAway_roundAway (d : Decimal) (p : Nat) :
    RoundsAway (Nat.pow 10 (28 - p)) d.units (d.roundAway p).units := by
  by_cases short : p < d.scale
  · have rounded := RoundsAway.signed_halfUp (pow_pos_ten (d.scale - p)) d.unscaled
    rw [natAbs_unscaled, ← unscaled_roundAway short] at rounded
    have scaled := rounded.mul (pow_pos_ten (28 - d.scale))
    have places : Nat.pow 10 (28 - p) = Nat.pow 10 (d.scale - p) * Nat.pow 10 (28 - d.scale) := by
      rw [← pow_add_ten]
      congr 1
      have := d.scale_le
      omega
    have value : (d.roundAway p).units =
        (d.roundAway p).unscaled * (Nat.pow 10 (d.scale - p) : Nat) * (Nat.pow 10 (28 - d.scale) : Nat) := by
      rw [units, scale_roundAway short, places]
      push_cast
      ring
    rw [places, value]
    exact scaled
  · rw [roundAway_of_scale_le (by omega)]
    exact RoundsAway.self (pow_pos_ten _) (dvd_units (by omega))

theorem units_of_whole {n : Int} (scale : d.scale = 0) (value : d.unscaled = n) :
    d.units = n * Nat.pow 10 28 := by
  rw [units, scale, value]

theorem units_ofInt64 (n : Int64) : (ofInt64 n).units = n.toInt * Nat.pow 10 28 :=
  units_of_whole rfl (unscaled_ofInt64 n)

theorem toInt64?_of_whole (scale : d.scale = 0) :
    d.toInt64? = if -0x8000000000000000 ≤ d.unscaled ∧ d.unscaled < 0x8000000000000000 then
      some (Int64.ofInt d.unscaled) else none := by
  have truncated : d.truncate = d.unscaled := by
    rw [truncate, scale]
    exact Int.tdiv_one _
  rw [toInt64?, truncated]

theorem toInt64?_eq_some {n : Int64} (scale : d.scale = 0) (h : d.toInt64? = some n) :
    d.unscaled = n.toInt := by
  rw [toInt64?_of_whole scale] at h
  split at h
  · next inside =>
    cases h
    exact (Int64.toInt_ofInt_of_le inside.1 inside.2).symm
  · cases h

end Decimal

end SqlEngine
