import SqlEngine.Proofs.WholeConversions

/-!
# Conversion of numbers to decimals

A number that is converted to a decimal type is rounded at the scale of the type, a half going away from zero, and is
refused if it has too many digits then. A number that ninety-six bits do not have at that scale should be refused as
well. It gets as many places as fit instead, and its digits are counted after that, so that a precision of
twenty-eight digits or more, or none, can let it through with places missing.
-/

namespace SqlEngine

namespace Decimal

variable {d : Decimal} {s n n' : ℕ} {m : ℤ}

/-- The number `m` has too many digits, and `n` is left when as many zeros at its end are dropped as it takes. -/
structure Shortened (m n : ℕ) : Prop where
  zeros : ∃ k, 0 < k ∧ m = n * Nat.pow 10 k
  fits : n < 0x1000000000000000000000000
  full : 0x1000000000000000000000000 ≤ n * 10

theorem Shortened.too_large {k : ℕ} (h : Shortened k n) : 0x1000000000000000000000000 ≤ k := by
  obtain ⟨zeros, some, rfl⟩ := h.zeros
  have least : Nat.pow 10 1 ≤ Nat.pow 10 zeros := Nat.pow_le_pow_right (by decide) some
  exact h.full.trans (Nat.mul_le_mul_left n least)

theorem Shortened.unique {k : ℕ} (h : Shortened k n) (h' : Shortened k n') : n = n' := by
  have le {n n' : ℕ} (h : Shortened k n) (h' : Shortened k n') : n ≤ n' := by
    obtain ⟨zeros, _, same⟩ := h.zeros
    obtain ⟨zeros', _, same'⟩ := h'.zeros
    by_contra greater
    have more : zeros + 1 ≤ zeros' := by
      by_contra less
      have power : Nat.pow 10 zeros' ≤ Nat.pow 10 zeros := Nat.pow_le_pow_right (by decide) (by omega)
      have larger := Nat.mul_lt_mul_of_lt_of_le (Nat.not_le.1 greater) power (pow_pos_ten zeros)
      omega
    -- the smaller one would have fitted with a zero more
    have power : Nat.pow 10 (zeros + 1) ≤ Nat.pow 10 zeros' := Nat.pow_le_pow_right (by decide) more
    have tenfold : n' * 10 * Nat.pow 10 zeros ≤ n * Nat.pow 10 zeros := by
      rw [← same, same', Nat.mul_assoc, Nat.mul_comm 10]
      exact Nat.mul_le_mul_left n' power
    have below := Nat.le_of_mul_le_mul_right tenfold (pow_pos_ten zeros)
    have fits := h.fits
    have full := h'.full
    omega
  exact Nat.le_antisymm (le h h') (le h' h)

/-- A decimal has all places of the scale that it is brought to, or those that fit. -/
theorem rescale_cases (few : s ≤ 28) (rounded : NearestWhole (d.value * 10 ^ s) m) :
    (d.rescale s).scale = s ∧ (d.rescale s).unscaled = m ∨
      (d.rescale s).scale < s ∧ (d.rescale s).value = d.value ∧ Shortened m.natAbs (d.rescale s).mantissa := by
  obtain rfl := rounded.unique (d.nearestWhole_roundAway few)
  have most := d.scale_roundAway_le s
  obtain ⟨k, atMost, ⟨scale, unscaled⟩, full⟩ := exists_pads_appendZeros (s - (d.roundAway s).scale) (d.roundAway s)
  change (d.rescale s).scale = _ at scale
  change (d.rescale s).unscaled = _ at unscaled
  rcases Nat.eq_or_lt_of_le atMost with all | less
  · rw [all] at scale unscaled
    exact .inl ⟨by omega, unscaled⟩
  · refine .inr ⟨by omega, ?_, ⟨s - (d.roundAway s).scale - k, by omega, ?_⟩, (d.rescale s).mantissa_lt, ?_⟩
    · -- a number that is padded was not rounded
      have kept : d.roundAway s = d := by
        apply roundAway_of_scale_le
        by_contra short
        have reached := scale_roundAway (d := d) (by omega : s < d.scale)
        omega
      rw [value_eq_units, value_eq_units, rescale, units_appendZeros, kept]
    · rw [← natAbs_unscaled, unscaled, Int.natAbs_mul, Int.natAbs_mul, Int.natAbs_natCast, Int.natAbs_natCast,
        Nat.mul_assoc, ← pow_add_ten]
      congr 2
      omega
    · rcases full less with full | last
      · exact full
      · change (d.rescale s).scale = 28 at last
        omega

end Decimal

namespace Value

variable {v : Value} {p : Option ℕ} {s n : ℕ} {m : ℤ}

/-- The number of the value, rounded half away from zero at the place `s` behind the point, is `m` units of it. -/
def RoundsAt (v : Value) (s : ℕ) (m : ℤ) : Prop := ∃ q, v.number? = some q ∧ NearestWhole (q * 10 ^ s) m

/-- The number has at most as many digits as the precision allows, if there is one. -/
def Within (p : Option ℕ) (n : ℕ) : Prop := ∀ most, p = some most → Text.digitCount n ≤ most

theorem fitDecimal_eq_error {t : DataType} {scale : Option ℕ} {d : Decimal}
    (wide : ¬ Within p (atScale scale d).mantissa) : v.fitDecimal t p scale d = .error (v.outOfRange t) := by
  cases p with
  | none => exact absurd nofun wide
  | some most =>
    have beyond : most < Text.digitCount (atScale scale d).mantissa := by
      by_contra short
      apply wide
      rintro _ ⟨⟩
      omega
    exact if_pos beyond

/-- An exact number is converted as a decimal of the same value. -/
theorem exists_decimal (exact : v.type.isExactNumeric = true) : ∃ d : Decimal, v.number? = some d.value ∧
    ∀ p scale, v.convert (.decimal p scale) = (v.fitDecimal (.decimal p scale) p scale d).map decimal := by
  cases v with
  | smallint n =>
    refine ⟨.ofInt64 n.toInt64, ?_, fun _ _ => rfl⟩
    rw [Decimal.value_ofInt64, Int16.toInt_toInt64]
    rfl
  | integer n =>
    refine ⟨.ofInt64 n.toInt64, ?_, fun _ _ => rfl⟩
    rw [Decimal.value_ofInt64, Int32.toInt_toInt64]
    rfl
  | bigint n =>
    refine ⟨.ofInt64 n, ?_, fun _ _ => rfl⟩
    rw [Decimal.value_ofInt64]
    rfl
  | decimal d => exact ⟨d, rfl, fun _ _ => rfl⟩
  | _ => cases exact

/-- Conversion gives the rounded number at the scale of the type, and refuses one with too many digits for the
precision or for a decimal. -/
structure Normalized (v : Value) (p : Option ℕ) (s : ℕ) (m : ℤ) : Prop where
  given : ∀ w, v.convert (.decimal p (some s)) = .ok w →
    ∃ d, w = decimal d ∧ d.scale = s ∧ d.unscaled = m ∧ Within p m.natAbs
  refused : ¬ (Within p m.natAbs ∧ m.natAbs < 0x1000000000000000000000000) →
    v.convert (.decimal p (some s)) = .error (v.outOfRange (.decimal p (some s)))

section Fitted

variable {d : Decimal}
  (converted : v.convert (.decimal p (some s)) = (v.fitDecimal (.decimal p (some s)) p (some s) d).map decimal)
include converted

theorem convert_of_within (within : Within p (d.rescale s).mantissa) :
    v.convert (.decimal p (some s)) = .ok (decimal (d.rescale s)) := by
  have fitted : v.fitDecimal (.decimal p (some s)) p (some s) d = .ok (d.rescale s) :=
    fitDecimal_eq_ok.2 ⟨rfl, within⟩
  rw [converted, fitted]
  rfl

theorem convert_of_not_within (wide : ¬ Within p (d.rescale s).mantissa) :
    v.convert (.decimal p (some s)) = .error (v.outOfRange (.decimal p (some s))) := by
  rw [converted, fitDecimal_eq_error wide]
  rfl

theorem normalized_of_unscaled (scale : (d.rescale s).scale = s) (unscaled : (d.rescale s).unscaled = m) :
    v.Normalized p s m := by
  have size : m.natAbs = (d.rescale s).mantissa := by rw [← unscaled, Decimal.natAbs_unscaled]
  by_cases within : Within p (d.rescale s).mantissa
  · refine ⟨fun w ok => ?_, fun outside => absurd ⟨?_, ?_⟩ outside⟩
    · rw [convert_of_within converted within] at ok
      cases ok
      exact ⟨_, rfl, scale, unscaled, size ▸ within⟩
    · exact size ▸ within
    · exact size ▸ (d.rescale s).mantissa_lt
  · have error := convert_of_not_within converted within
    refine ⟨fun w ok => ?_, fun _ => error⟩
    cases error.symm.trans ok

theorem normalized_iff_of_shortened (shortened : Decimal.Shortened m.natAbs (d.rescale s).mantissa) :
    v.Normalized p s m ↔ ¬ Within p (d.rescale s).mantissa := by
  constructor
  · intro right within
    have large := shortened.too_large
    have refused := right.refused fun inside => Nat.not_lt.2 large inside.2
    cases refused.symm.trans (convert_of_within converted within)
  · intro wide
    have error := convert_of_not_within converted wide
    refine ⟨fun w ok => ?_, fun _ => error⟩
    cases error.symm.trans ok

end Fitted

/-- The number that is given has the scale of the type, or is the same number with places missing. -/
theorem convert_cases (exact : v.type.isExactNumeric = true) (few : s ≤ 28) (rounded : v.RoundsAt s m) :
    (∀ n, ¬ Decimal.Shortened m.natAbs n) ∧ v.Normalized p s m ∧
        (Within p m.natAbs → ∃ w, v.convert (.decimal p (some s)) = .ok w) ∨
      ∃ n, Decimal.Shortened m.natAbs n ∧ (v.Normalized p s m ↔ ¬ Within p n) ∧
        (Within p n → ∃ d, v.convert (.decimal p (some s)) = .ok (decimal d) ∧ d.scale < s ∧ d.mantissa = n ∧
          v.number? = some d.value) := by
  obtain ⟨d, number, converted⟩ := exists_decimal exact
  replace converted := converted p (some s)
  obtain ⟨q, same, rounded⟩ := rounded
  cases number.symm.trans same
  rcases Decimal.rescale_cases few rounded with ⟨scale, unscaled⟩ | ⟨less, value, shortened⟩
  · have size : m.natAbs = (d.rescale s).mantissa := by rw [← unscaled, Decimal.natAbs_unscaled]
    refine .inl ⟨fun n shortened => ?_, normalized_of_unscaled converted scale unscaled, fun within => ?_⟩
    · have small := (d.rescale s).mantissa_lt
      have large := shortened.too_large
      omega
    · exact ⟨_, convert_of_within converted (size ▸ within)⟩
  · refine .inr ⟨_, shortened, normalized_iff_of_shortened converted shortened, fun within => ?_⟩
    exact ⟨_, convert_of_within converted within, less, rfl, by rw [value, number]⟩

/-- Precisions below twenty-eight digits let no number through that is too large for a decimal. -/
theorem normalized_of_precision_lt {most : ℕ} (exact : v.type.isExactNumeric = true) (few : s ≤ 28)
    (rounded : v.RoundsAt s m) (below : most < 28) : v.Normalized (some most) s m := by
  rcases convert_cases exact few rounded with ⟨_, right, _⟩ | ⟨n, shortened, right, _⟩
  · exact right
  · apply right.2
    intro within
    have digits : Text.digitCount n ≤ 27 := (within most rfl).trans (Nat.le_of_lt_succ below)
    have small : n < Nat.pow 10 27 := (Text.length_natDigits_le_iff (by decide)).1 digits
    have power : Nat.pow 10 27 * 10 ≤ 0x1000000000000000000000000 := by decide
    have full := shortened.full
    omega

/-- A conversion gives the rounded number or refuses it, unless the number has too many digits for a decimal and
the precision allows those that are left when zeros at its end are dropped. -/
theorem normalized_iff (exact : v.type.isExactNumeric = true) (few : s ≤ 28) :
    (∃ m, v.RoundsAt s m) ∧ ∀ m, v.RoundsAt s m →
      (v.Normalized p s m ↔ ∀ n, Decimal.Shortened m.natAbs n → ¬ Within p n) ∧
      (Within p m.natAbs → m.natAbs < 0x1000000000000000000000000 → ∃ w, v.convert (.decimal p (some s)) = .ok w) ∧
      ∀ n, Decimal.Shortened m.natAbs n → Within p n → ∃ d, v.convert (.decimal p (some s)) = .ok (decimal d) ∧
        d.scale < s ∧ d.mantissa = n ∧ v.number? = some d.value := by
  constructor
  · obtain ⟨d, number, _⟩ := exists_decimal exact
    obtain ⟨m, rounded⟩ := NearestWhole.exists_nearest (d.value * 10 ^ s)
    exact ⟨m, d.value, number, rounded⟩
  · intro m rounded
    rcases convert_cases (p := p) exact few rounded with ⟨whole, right, given⟩ | ⟨n, shortened, right, given⟩
    · exact ⟨iff_of_true right fun n shortened => absurd shortened (whole n), fun within _ => given within,
        fun n shortened => absurd shortened (whole n)⟩
    · refine ⟨right.trans ⟨fun wide k other => ?_, fun wide => wide n shortened⟩, fun _ small => ?_, fun k other => ?_⟩
      · rwa [other.unique shortened]
      · exact absurd small (Nat.not_lt.2 shortened.too_large)
      · rw [other.unique shortened]
        exact given

/-- Ten with twenty-eight places is one digit too long for a decimal, but not with twenty-seven. -/
theorem roundsAt_ten : (integer 10).RoundsAt 28 (10 ^ 29) ∧
    Decimal.Shortened (10 ^ 29 : ℤ).natAbs (Nat.pow 10 28) ∧ Within (some 29) (Nat.pow 10 28) := by
  refine ⟨⟨_, rfl, ?_⟩, ⟨⟨1, by decide, by decide⟩, by decide, by decide⟩, ?_⟩
  · have ten : (10 : Int32).toInt = 10 := by decide
    have value : ((10 : Int32).toInt : ℚ) * 10 ^ 28 = ((10 ^ 29 : ℤ) : ℚ) := by
      rw [ten]
      norm_num
    rw [value]
    exact NearestWhole.intCast_iff.2 rfl
  · rintro _ ⟨⟩
    exact (Text.length_natDigits_le_iff (by decide)).2 (by decide)

/-- A half goes away from zero, and ten is given with a place missing. -/
theorem normalized_iff_ten :
    (decimal ⟨true, 125, 3, by decide, by decide⟩).Normalized (some 5) 2 (-13) ∧
      ∃ d, (integer 10).convert (.decimal (some 29) (some 28)) = .ok (decimal d) ∧ d.scale < 28 := by
  obtain ⟨ten, shortened, within⟩ := roundsAt_ten
  obtain ⟨d, given, less, _⟩ := ((normalized_iff rfl (Nat.le_refl 28)).2 _ ten).2.2 _ shortened within
  have eighth : (decimal ⟨true, 125, 3, by decide, by decide⟩).RoundsAt 2 (-13) := by
    refine ⟨_, rfl, ?_, ?_⟩ <;> norm_num [Decimal.value, Decimal.unscaled, abs_of_pos, abs_of_neg]
  refine ⟨((normalized_iff rfl (by decide)).2 _ eighth).1.2 fun n shortened => ?_, d, given, less⟩
  exact absurd shortened.too_large (by decide)

/-- Not all conversions of exact numbers give the scale of the type or refuse the number: ten is given with a
place missing. -/
theorem ten_converted_with_place_missing :
    ¬ ∀ (v : Value) (p : Option ℕ) (s : ℕ) (m : ℤ), v.type.isExactNumeric = true → s ≤ 28 → v.RoundsAt s m →
      v.Normalized p s m := by
  intro all
  obtain ⟨ten, shortened, within⟩ := roundsAt_ten
  have right := all (integer 10) (some 29) 28 _ rfl (Nat.le_refl 28) ten
  rcases convert_cases rfl (Nat.le_refl 28) ten with ⟨whole, _⟩ | ⟨n, other, normalized, _⟩
  · exact whole _ shortened
  · rw [other.unique shortened] at normalized
    exact normalized.1 right within

end Value

end SqlEngine
