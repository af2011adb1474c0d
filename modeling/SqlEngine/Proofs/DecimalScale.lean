import SqlEngine.Decimal.Basic

/-!
# The scale of decimals

Bringing a decimal to a scale a second time changes nothing, and changing its sign is the same before
and after.
-/

namespace SqlEngine.Decimal

theorem roundAway_of_scale_le {d : Decimal} {places : Nat} (h : d.scale ≤ places) :
    d.roundAway places = d := by
  simp only [roundAway]
  rw [dif_neg (by omega)]

theorem scale_roundAway_le (d : Decimal) (places : Nat) : (d.roundAway places).scale ≤ places := by
  simp only [roundAway]
  split
  · split <;> exact Nat.le_refl places
  · omega

theorem scale_appendZeros_le (places : Nat) (d : Decimal) :
    (appendZeros places d).scale ≤ d.scale + places := by
  induction places generalizing d with
  | zero => exact Nat.le_refl d.scale
  | succ places ih =>
    simp only [appendZeros]
    split
    · have rest := ih ⟨d.negative, d.mantissa * 10, d.scale + 1, by omega, by omega⟩
      simp only [] at rest
      omega
    · omega

/-- Zeros are appended until there are enough or no more fit. -/
theorem appendZeros_again (places : Nat) (d : Decimal) :
    appendZeros (d.scale + places - (appendZeros places d).scale) (appendZeros places d) =
      appendZeros places d := by
  induction places generalizing d with
  | zero =>
    have none : d.scale + 0 - (appendZeros 0 d).scale = 0 := by
      show d.scale + 0 - d.scale = 0
      omega
    rw [none]
    rfl
  | succ places ih =>
    by_cases room : d.mantissa * 10 < 0x1000000000000000000000000 ∧ d.scale < 28
    · have step : appendZeros (places + 1) d =
          appendZeros places ⟨d.negative, d.mantissa * 10, d.scale + 1, room.1, room.2⟩ := by
        rw [appendZeros, dif_pos room]
      have rest := ih ⟨d.negative, d.mantissa * 10, d.scale + 1, room.1, room.2⟩
      have count : d.scale + (places + 1) = d.scale + 1 + places := by omega
      rw [step, count]
      exact rest
    · have stop (n : Nat) : appendZeros n d = d := by
        cases n with
        | zero => rfl
        | succ n => rw [appendZeros, dif_neg room]
      rw [stop, stop]

theorem scale_rescale_le (d : Decimal) (scale : Nat) : (d.rescale scale).scale ≤ scale := by
  have rounded := d.scale_roundAway_le scale
  have appended := scale_appendZeros_le (scale - (d.roundAway scale).scale) (d.roundAway scale)
  unfold rescale
  simp only []
  omega

theorem rescale_rescale (d : Decimal) (scale : Nat) :
    (d.rescale scale).rescale scale = d.rescale scale := by
  have rounded := d.scale_roundAway_le scale
  have again := appendZeros_again (scale - (d.roundAway scale).scale) (d.roundAway scale)
  rw [Nat.add_sub_cancel' rounded] at again
  have settled : (d.rescale scale).roundAway scale = d.rescale scale :=
    roundAway_of_scale_le (d.scale_rescale_le scale)
  rw [rescale, settled]
  exact again

theorem rescale_scale (d : Decimal) : d.rescale d.scale = d := by
  have kept : d.roundAway d.scale = d := roundAway_of_scale_le (Nat.le_refl _)
  rw [rescale, kept, Nat.sub_self]
  rfl

theorem natAbs_unscaled (d : Decimal) : d.unscaled.natAbs = d.mantissa := by
  unfold unscaled
  split <;> omega

theorem unscaled_ofInt64 (n : Int64) : (ofInt64 n).unscaled = n.toInt := by
  simp only [ofInt64, ofInt, unscaled, decide_eq_true_eq]
  split <;> omega

theorem compare_self (d : Decimal) : d.compare d = .eq :=
  Int.compare_eq_eq.2 rfl

/-- Decimals that differ in their sign alone; the sign of zero does not count. -/
structure Opposite (a b : Decimal) : Prop where
  mantissa : b.mantissa = a.mantissa
  scale : b.scale = a.scale
  negative : a.mantissa ≠ 0 → b.negative = !a.negative

namespace Opposite

theorem neg (d : Decimal) : Opposite d d.neg := ⟨rfl, rfl, fun _ => rfl⟩

theorem roundAway {a b : Decimal} (h : Opposite a b) (places : Nat) :
    Opposite (a.roundAway places) (b.roundAway places) := by
  obtain ⟨s, m, k, small, few⟩ := a
  obtain ⟨t, n, l, _, _⟩ := b
  obtain ⟨mantissa, scale, negative⟩ := h
  obtain rfl : n = m := mantissa
  obtain rfl : l = k := scale
  simp only [Decimal.roundAway]
  by_cases short : places < l
  · rw [dif_pos short, dif_pos short]
    by_cases zero : n = 0
    · rw [if_pos zero, if_pos zero]
      exact ⟨rfl, rfl, fun some => absurd zero some⟩
    · rw [if_neg zero, if_neg zero]
      refine ⟨rfl, rfl, fun some => ?_⟩
      have kept : ((2 * n + Nat.pow 10 (l - places)) / (2 * Nat.pow 10 (l - places)) != 0) = true :=
        bne_iff_ne.2 some
      have flipped : t = !s := negative zero
      simp only [kept, flipped, Bool.and_true]
  · rw [dif_neg short, dif_neg short]
    exact ⟨rfl, rfl, negative⟩

theorem appendZeros {a b : Decimal} (h : Opposite a b) (places : Nat) :
    Opposite (Decimal.appendZeros places a) (Decimal.appendZeros places b) := by
  induction places generalizing a b with
  | zero => exact h
  | succ places ih =>
    simp only [Decimal.appendZeros]
    by_cases room : a.mantissa * 10 < 0x1000000000000000000000000 ∧ a.scale < 28
    · rw [dif_pos room, dif_pos (by rw [h.mantissa, h.scale]; exact room)]
      refine ih ⟨?_, ?_, fun some => ?_⟩
      · simp only [h.mantissa]
      · simp only [h.scale]
      · exact h.negative fun zero => some (by simp [zero])
    · rw [dif_neg room, dif_neg (by rw [h.mantissa, h.scale]; exact room)]
      exact h

theorem rescale {a b : Decimal} (h : Opposite a b) (scale : Nat) :
    Opposite (a.rescale scale) (b.rescale scale) := by
  have rounded := h.roundAway scale
  unfold Decimal.rescale
  simp only []
  rw [rounded.scale]
  exact rounded.appendZeros _

theorem unscaled {a b : Decimal} (h : Opposite a b) : b.unscaled = -a.unscaled := by
  simp only [Decimal.unscaled]
  rw [h.mantissa]
  by_cases zero : a.mantissa = 0
  · simp [zero]
  · rw [h.negative zero]
    cases a.negative <;> simp

theorem compare_eq {a b x y : Decimal} (h : Opposite a b) (g : Opposite x y)
    (same : a.compare x = .eq) : b.compare y = .eq := by
  have equal := Int.compare_eq_eq.1 same
  refine Int.compare_eq_eq.2 ?_
  rw [h.unscaled, g.unscaled, h.scale, g.scale, Int.neg_mul, Int.neg_mul, equal]

end Opposite

end SqlEngine.Decimal
