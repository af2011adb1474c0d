import SqlEngine.Proofs.BinaryRounding
import SqlEngine.Proofs.ValueOrder

/-!
# Decimals by their value

Sums, differences, products and rounding of decimals depend on the values alone: other scales of the operands
can give another scale of the result, and decide whether there is one, but they do not give another number.
-/

namespace SqlEngine

theorem divNearestEven_cancel (m d k : Nat) (positive : 0 < k) :
    divNearestEven (m * k) (d * k) = divNearestEven m d := by
  have twice (r : Nat) : 2 * (r * k) = 2 * r * k := (Nat.mul_assoc ..).symm
  simp only [divNearestEven, Nat.mul_div_mul_right _ _ positive, Nat.mul_mod_mul_right, twice,
    Nat.mul_lt_mul_right positive]

theorem divNearestEven_zero {d : Nat} (positive : 0 < d) : divNearestEven 0 d = 0 := by
  have none := divNearestEven_mul 0 positive
  rwa [Nat.zero_mul] at none

namespace Decimal

variable {a b d d' : Decimal} {n n' : Bool} {m m' s s' k : Nat}

theorem pow_pos_ten (n : Nat) : 0 < Nat.pow 10 n := Nat.pow_pos (by decide)

theorem pow_add_ten (m n : Nat) : Nat.pow 10 (m + n) = Nat.pow 10 m * Nat.pow 10 n := Nat.pow_add ..

theorem mul_neg_iff_of_pos {x k : Int} (positive : 0 < k) : x * k < 0 ↔ x < 0 := by
  rw [mul_neg_iff]
  omega

theorem units_eq_iff : a.units = b.units ↔
    a.unscaled * (Nat.pow 10 b.scale : Nat) = b.unscaled * (Nat.pow 10 a.scale : Nat) := by
  have order := compare_eq_units a b
  constructor
  · intro same
    rw [Int.compare_eq_eq.2 same] at order
    exact Int.compare_eq_eq.1 order
  · intro same
    have equal : a.compare b = .eq := Int.compare_eq_eq.2 same
    exact Int.compare_eq_eq.1 (order.symm.trans equal)

theorem unscaled_eq_zero (h : d.mantissa = 0) : d.unscaled = 0 := by
  simp [unscaled, h]

theorem units_eq_zero_iff : d.units = 0 ↔ d.mantissa = 0 := by
  have positive : (Nat.pow 10 (28 - d.scale) : Int) ≠ 0 := by
    have := pow_pos_ten (28 - d.scale)
    omega
  rw [units, Int.mul_eq_zero]
  simp only [unscaled, positive, or_false]
  cases d.negative <;> simp

theorem units_neg : d.neg.units = -d.units := by
  have opposite : d.neg.unscaled = -d.unscaled := (Opposite.neg d).unscaled
  rw [units, units, opposite, Int.neg_mul]
  rfl

/-- `b` is `a` with `k` more zeros behind the point. -/
structure Pads (a b : Decimal) (k : Nat) : Prop where
  scale : b.scale = a.scale + k
  unscaled : b.unscaled = a.unscaled * (Nat.pow 10 k : Nat)

theorem Pads.refl (d : Decimal) : Pads d d 0 := ⟨rfl, (Int.mul_one _).symm⟩

theorem Pads.units (h : Pads a b k) : a.units = b.units := by
  rw [units_eq_iff, h.scale, h.unscaled, pow_add_ten]
  push_cast
  ring

theorem Pads.mantissa (h : Pads a b k) : b.mantissa = a.mantissa * Nat.pow 10 k := by
  rw [← natAbs_unscaled b, h.unscaled, Int.natAbs_mul, natAbs_unscaled, Int.natAbs_natCast]

/-- Of two equal decimals one has some more zeros than the other. -/
theorem pads_of_units (same : a.units = b.units) : ∃ k, Pads a b k ∨ Pads b a k := by
  have pads {a b : Decimal} (same : a.units = b.units) (fewer : a.scale ≤ b.scale) :
      Pads a b (b.scale - a.scale) := by
    have equal := units_eq_iff.1 same
    have places : b.scale = b.scale - a.scale + a.scale := by omega
    refine ⟨by omega, ?_⟩
    rw [places, pow_add_ten] at equal
    push_cast at equal
    rw [← Int.mul_assoc] at equal
    have positive : (Nat.pow 10 a.scale : Int) ≠ 0 := by
      have := pow_pos_ten a.scale
      omega
    exact (Int.eq_of_mul_eq_mul_right positive equal).symm
  rcases Nat.le_total a.scale b.scale with fewer | fewer
  · exact ⟨_, .inl (pads same fewer)⟩
  · exact ⟨_, .inr (pads same.symm fewer)⟩

theorem ofParts?_eq_some : ofParts? n m s = some d ↔ d.negative = n ∧ d.mantissa = m ∧ d.scale = s := by
  unfold ofParts?
  constructor
  · intro h
    split at h
    · cases h
      exact ⟨rfl, rfl, rfl⟩
    · cases h
  · rintro ⟨rfl, rfl, rfl⟩
    rw [dif_pos ⟨d.mantissa_lt, d.scale_le⟩]

/-- The first drop for which the rest fits. -/
theorem fitFrom_eq_some {fuel drop : Nat} (h : fitFrom n m s fuel drop = some d) :
    ∃ j, drop ≤ j ∧ j < drop + fuel ∧ ofParts? n (divNearestEven m (Nat.pow 10 j)) (s - j) = some d ∧
      ∀ i, drop ≤ i → i < j → ofParts? n (divNearestEven m (Nat.pow 10 i)) (s - i) = none := by
  induction fuel generalizing drop with
  | zero => cases h
  | succ fuel ih =>
    simp only [fitFrom] at h
    split at h
    · next fits =>
      cases h
      exact ⟨drop, Nat.le_refl _, by omega, fits, fun i _ _ => by omega⟩
    · next misses =>
      obtain ⟨j, above, below, fits, first⟩ := ih h
      refine ⟨j, by omega, by omega, fits, ?_⟩
      intro i atLeast less
      by_cases start : i = drop
      · rw [start]
        exact misses
      · exact first i (by omega) less

/-- Zeros behind the point do not change what a number is fitted to. -/
theorem fit?_pad (h : fit? n m s = some d) (h' : fit? n (m * Nat.pow 10 k) (s + k) = some d') :
    d.units = d'.units := by
  obtain ⟨j, least, most, fits, first⟩ := fitFrom_eq_some h
  obtain ⟨j', least', most', fits', first'⟩ := fitFrom_eq_some h'
  have shifted (i : Nat) : divNearestEven (m * Nat.pow 10 k) (Nat.pow 10 (i + k)) =
      divNearestEven m (Nat.pow 10 i) := by
    rw [pow_add_ten]
    exact divNearestEven_cancel m _ _ (pow_pos_ten k)
  by_cases short : j' < k
  · -- only zeros were dropped, so the number fits as it is
    have rest : k = k - j' + j' := by omega
    have exact : divNearestEven (m * Nat.pow 10 k) (Nat.pow 10 j') = m * Nat.pow 10 (k - j') := by
      have split : m * Nat.pow 10 k = m * Nat.pow 10 (k - j') * Nat.pow 10 j' := by
        rw [Nat.mul_assoc, ← pow_add_ten, ← rest]
      rw [split]
      exact divNearestEven_mul _ (pow_pos_ten j')
    rw [exact] at fits'
    obtain ⟨sign', mantissa', scale'⟩ := ofParts?_eq_some.1 fits'
    have bound := d'.mantissa_lt
    have few := d'.scale_le
    have smaller : m ≤ m * Nat.pow 10 (k - j') := Nat.le_mul_of_pos_right m (pow_pos_ten _)
    have whole : divNearestEven m (Nat.pow 10 0) = m := by
      have := divNearestEven_mul m (b := 1) (by decide)
      rwa [Nat.mul_one] at this
    have immediate : j = 0 := by
      by_contra late
      have misses := first 0 (by omega) (by omega)
      rw [whole, ofParts?, dif_pos ⟨by omega, by omega⟩] at misses
      cases misses
    rw [immediate, whole] at fits
    obtain ⟨sign, mantissa, scale⟩ := ofParts?_eq_some.1 fits
    have padded : Pads d d' (k - j') := by
      refine ⟨by omega, ?_⟩
      simp only [unscaled, sign, sign', mantissa, mantissa']
      cases n <;> simp
    exact padded.units
  · have here := shifted (j' - k)
    rw [Nat.sub_add_cancel (by omega)] at here
    have there : s + k - j' = s - (j' - k) := by omega
    rw [here, there] at fits'
    have notBefore : ¬ j < j' - k := by
      intro before
      have misses := first' (j + k) (by omega) (by omega)
      rw [shifted, Nat.add_sub_add_right, fits] at misses
      cases misses
    have notAfter : ¬ j' - k < j := by
      intro after
      rw [first (j' - k) (by omega) after] at fits'
      cases fits'
    have meet : j' - k = j := by omega
    rw [meet, fits] at fits'
    cases fits'
    rfl

theorem fit?_zero (h : fit? n 0 s = some d) : d.units = 0 := by
  obtain ⟨j, _, _, fits, _⟩ := fitFrom_eq_some h
  exact units_eq_zero_iff.2 ((ofParts?_eq_some.1 fits).2.1.trans (divNearestEven_zero (pow_pos_ten j)))

theorem fit?_congr (values : m * Nat.pow 10 s' = m' * Nat.pow 10 s) (signs : m ≠ 0 → n = n')
    (h : fit? n m s = some d) (h' : fit? n' m' s' = some d') : d.units = d'.units := by
  have padded {n n' : Bool} {m m' s s' : Nat} {d d' : Decimal} (fewer : s ≤ s')
      (values : m * Nat.pow 10 s' = m' * Nat.pow 10 s) (signs : m ≠ 0 → n = n')
      (h : fit? n m s = some d) (h' : fit? n' m' s' = some d') : d.units = d'.units := by
    obtain ⟨k, rfl⟩ := Nat.exists_eq_add_of_le fewer
    have zeros : m' = m * Nat.pow 10 k := by
      rw [Nat.add_comm, pow_add_ten, ← Nat.mul_assoc] at values
      exact (Nat.eq_of_mul_eq_mul_right (pow_pos_ten s) values).symm
    rw [zeros] at h'
    by_cases zero : m = 0
    · rw [zero] at h
      rw [zero, Nat.zero_mul] at h'
      rw [fit?_zero h, fit?_zero h']
    · rw [← signs zero] at h'
      exact fit?_pad h h'
  have zero_iff : m = 0 ↔ m' = 0 := by
    have := pow_pos_ten s
    have := pow_pos_ten s'
    constructor
    · rintro rfl
      rw [Nat.zero_mul] at values
      exact (Nat.mul_eq_zero.1 values.symm).resolve_right (by omega)
    · rintro rfl
      rw [Nat.zero_mul] at values
      exact (Nat.mul_eq_zero.1 values).resolve_right (by omega)
  rcases Nat.le_total s s' with fewer | fewer
  · exact padded fewer values signs h h'
  · exact (padded fewer values.symm (fun some => (signs fun zero => some (zero_iff.1 zero)).symm) h' h).symm

theorem isZero_congr (same : a.units = b.units) : a.isZero = b.isZero := by
  have isZero_iff {d : Decimal} : d.isZero = true ↔ d.units = 0 := by
    rw [units_eq_zero_iff]
    exact beq_iff_eq
  rw [Bool.eq_iff_iff, isZero_iff, isZero_iff, same]

/-- Fitting a number whose places behind the twenty-eighth round to nothing. -/
theorem fit?_vanishing (nothing : divNearestEven m (Nat.pow 10 (s - 28)) = 0) :
    ∃ d, fit? n m s = some d ∧ d.units = 0 := by
  have fuel : s + 1 - (s - 28) = s - (s - 28) + 1 := by omega
  have parts : ofParts? n 0 (s - (s - 28)) = some ⟨n, 0, s - (s - 28), by decide, by omega⟩ :=
    dif_pos ⟨by decide, by omega⟩
  refine ⟨⟨n, 0, s - (s - 28), by decide, by omega⟩, ?_, units_eq_zero_iff.2 rfl⟩
  simp only [fit?]
  rw [fuel, fitFrom, nothing, parts]

/-- The sum in units of the last place that an operand has. -/
def sumUnits (a b : Decimal) : Int :=
  a.unscaled * Nat.pow 10 (max a.scale b.scale - a.scale) + b.unscaled * Nat.pow 10 (max a.scale b.scale - b.scale)

theorem units_of_scale_le {p : Nat} (few : p ≤ 28) (le : d.scale ≤ p) :
    d.unscaled * (Nat.pow 10 (p - d.scale) : Nat) * (Nat.pow 10 (28 - p) : Nat) = d.units := by
  rw [units, Int.mul_assoc, ← Int.natCast_mul, ← pow_add_ten]
  congr 3
  omega

theorem sumUnits_mul (a b : Decimal) :
    sumUnits a b * (Nat.pow 10 (28 - max a.scale b.scale) : Nat) = a.units + b.units := by
  have few : max a.scale b.scale ≤ 28 := max_le a.scale_le b.scale_le
  rw [sumUnits, Int.add_mul, units_of_scale_le few (le_max_left ..), units_of_scale_le few (le_max_right ..)]

theorem values_of_units {x x' : Int} {p p' : Nat} (few : p ≤ 28) (few' : p' ≤ 28)
    (same : x * (Nat.pow 10 (28 - p) : Nat) = x' * (Nat.pow 10 (28 - p') : Nat)) :
    x * (Nat.pow 10 p' : Nat) = x' * (Nat.pow 10 p : Nat) := by
  have all {q : Nat} (h : q ≤ 28) : (Nat.pow 10 (28 - q) : Int) * Nat.pow 10 q = Nat.pow 10 28 := by
    rw [← Int.natCast_mul, ← pow_add_ten, Nat.sub_add_cancel h]
  have positive : (Nat.pow 10 28 : Int) ≠ 0 := by decide
  refine Int.eq_of_mul_eq_mul_right positive ?_
  calc x * Nat.pow 10 p' * Nat.pow 10 28
      = x * Nat.pow 10 (28 - p) * Nat.pow 10 p' * Nat.pow 10 p := by rw [← all few]; ring
    _ = x' * Nat.pow 10 (28 - p') * Nat.pow 10 p' * Nat.pow 10 p := by rw [same]
    _ = x' * Nat.pow 10 p * Nat.pow 10 28 := by rw [← all few']; ring

variable {a' b' : Decimal}

theorem add?_congr (left : a.units = a'.units) (right : b.units = b'.units) (h : add? a b = some d)
    (h' : add? a' b' = some d') : d.units = d'.units := by
  simp only [add?, isZero_congr left, isZero_congr right] at h h'
  split at h
  · next zero =>
    rw [if_pos zero] at h'
    cases h
    cases h'
    exact right
  · next notZero =>
    rw [if_neg notZero] at h'
    split at h
    · next zero =>
      rw [if_pos zero] at h'
      cases h
      cases h'
      exact left
    · next notZero' =>
      rw [if_neg notZero'] at h'
      have same : sumUnits a b * (Nat.pow 10 (max a'.scale b'.scale) : Nat) =
          sumUnits a' b' * (Nat.pow 10 (max a.scale b.scale) : Nat) := by
        refine values_of_units (max_le a.scale_le b.scale_le) (max_le a'.scale_le b'.scale_le) ?_
        rw [sumUnits_mul, sumUnits_mul, left, right]
      have sizes := congrArg Int.natAbs same
      rw [Int.natAbs_mul, Int.natAbs_mul, Int.natAbs_natCast, Int.natAbs_natCast] at sizes
      refine fit?_congr sizes (fun _ => ?_) h h'
      have positive (q : Nat) : (0 : Int) < (Nat.pow 10 q : Nat) := Int.natCast_pos.2 (pow_pos_ten q)
      have signs : sumUnits a b < 0 ↔ sumUnits a' b' < 0 := by
        rw [← mul_neg_iff_of_pos (positive (max a'.scale b'.scale)), same,
          mul_neg_iff_of_pos (positive (max a.scale b.scale))]
      exact decide_eq_decide.2 signs

theorem sub?_congr (left : a.units = a'.units) (right : b.units = b'.units) (h : sub? a b = some d)
    (h' : sub? a' b' = some d') : d.units = d'.units := by
  simp only [sub?, isZero_congr left, isZero_congr right] at h h'
  split at h
  · next zeros =>
    rw [if_pos zeros] at h'
    cases h
    cases h'
    exact right
  · next notZeros =>
    rw [if_neg notZeros] at h'
    exact add?_congr left (by rw [units_neg, units_neg, right]) h h'

/-- A product is the product of the numbers, fitted; the factors that are looked at apart only take the
sign off zero. -/
theorem mul?_eq_some (h : mul? a b = some d) :
    ∃ p, fit? (a.negative != b.negative) (a.mantissa * b.mantissa) (a.scale + b.scale) = some p ∧
      d.units = p.units := by
  simp only [mul?] at h
  split at h
  · next zero =>
    have none : a.mantissa * b.mantissa = 0 := by
      rcases Bool.or_eq_true_iff.1 zero with left | right
      · rw [beq_iff_eq.1 left, Nat.zero_mul]
      · rw [beq_iff_eq.1 right, Nat.mul_zero]
    have nothing : divNearestEven (a.mantissa * b.mantissa) (Nat.pow 10 (a.scale + b.scale - 28)) = 0 := by
      rw [none]
      exact divNearestEven_zero (pow_pos_ten _)
    obtain ⟨p, fits, value⟩ := fit?_vanishing (n := a.negative != b.negative) nothing
    cases h
    exact ⟨p, fits, value.symm⟩
  · split at h
    · exact ⟨d, h, rfl⟩
    · next narrow =>
      split at h
      · next tiny =>
        have both : a.isNarrow = true ∧ b.isNarrow = true := by
          simpa using narrow
        have small : a.mantissa * b.mantissa < 0x100000000 * 0x100000000 :=
          Nat.mul_lt_mul'' (of_decide_eq_true both.1) (of_decide_eq_true both.2)
        have large : Nat.pow 10 20 ≤ Nat.pow 10 (a.scale + b.scale - 28) :=
          Nat.pow_le_pow_right (by decide) (by omega)
        have twenty : Nat.pow 10 20 = 100000000000000000000 := by decide
        have nothing : divNearestEven (a.mantissa * b.mantissa) (Nat.pow 10 (a.scale + b.scale - 28)) = 0 := by
          simp only [divNearestEven]
          rw [Nat.div_eq_of_lt (by omega), Nat.mod_eq_of_lt (by omega), if_pos (by omega)]
        obtain ⟨p, fits, value⟩ := fit?_vanishing (n := a.negative != b.negative) nothing
        cases h
        exact ⟨p, fits, value.symm⟩
      · obtain ⟨p, fits, rfl⟩ := Option.map_eq_some_iff.1 h
        refine ⟨p, fits, ?_⟩
        simp only [units, unsignedZero, unscaled]
        by_cases zero : p.mantissa = 0 <;> simp [zero]

theorem mantissas_of_units (same : a.units = b.units) :
    a.mantissa * Nat.pow 10 b.scale = b.mantissa * Nat.pow 10 a.scale := by
  have sizes := congrArg Int.natAbs (units_eq_iff.1 same)
  rwa [Int.natAbs_mul, Int.natAbs_mul, Int.natAbs_natCast, Int.natAbs_natCast, natAbs_unscaled,
    natAbs_unscaled] at sizes

theorem negative_iff (some : d.mantissa ≠ 0) : d.negative = true ↔ d.units < 0 := by
  have positive : (0 : Int) < (Nat.pow 10 (28 - d.scale) : Nat) := Int.natCast_pos.2 (pow_pos_ten _)
  rw [units, mul_neg_iff_of_pos positive]
  unfold unscaled
  cases d.negative with
  | false => simp
  | true =>
    simp only [if_true, true_iff]
    omega

theorem negative_congr (same : a.units = b.units) (some : a.mantissa ≠ 0) : a.negative = b.negative := by
  have some' : b.mantissa ≠ 0 := by
    rw [Ne, ← units_eq_zero_iff, ← same, units_eq_zero_iff]
    exact some
  rw [Bool.eq_iff_iff, negative_iff some, negative_iff some', same]

theorem mul?_congr (left : a.units = a'.units) (right : b.units = b'.units) (h : mul? a b = some d)
    (h' : mul? a' b' = some d') : d.units = d'.units := by
  obtain ⟨p, fits, value⟩ := mul?_eq_some h
  obtain ⟨p', fits', value'⟩ := mul?_eq_some h'
  rw [value, value']
  refine fit?_congr ?_ (fun some => ?_) fits fits'
  · have first := mantissas_of_units left
    have second := mantissas_of_units right
    rw [pow_add_ten, pow_add_ten]
    calc a.mantissa * b.mantissa * (Nat.pow 10 a'.scale * Nat.pow 10 b'.scale)
        = a.mantissa * Nat.pow 10 a'.scale * (b.mantissa * Nat.pow 10 b'.scale) := by ring
      _ = a'.mantissa * Nat.pow 10 a.scale * (b'.mantissa * Nat.pow 10 b.scale) := by rw [first, second]
      _ = a'.mantissa * b'.mantissa * (Nat.pow 10 a.scale * Nat.pow 10 b.scale) := by ring
  · have someLeft : a.mantissa ≠ 0 := fun zero => some (by rw [zero, Nat.zero_mul])
    have someRight : b.mantissa ≠ 0 := fun zero => some (by rw [zero, Nat.mul_zero])
    rw [negative_congr left someLeft, negative_congr right someRight]

theorem unscaled_roundAway {p : Nat} (short : p < d.scale) : (d.roundAway p).unscaled =
    d.unscaled.sign * ((2 * d.mantissa + Nat.pow 10 (d.scale - p)) / (2 * Nat.pow 10 (d.scale - p)) : Nat) := by
  simp only [roundAway]
  rw [dif_pos short]
  split
  · next zero =>
    rw [unscaled_eq_zero zero, Int.sign_zero, Int.zero_mul]
    exact unscaled_eq_zero zero
  · next some =>
    simp only [unscaled]
    generalize (2 * d.mantissa + Nat.pow 10 (d.scale - p)) / (2 * Nat.pow 10 (d.scale - p)) = r
    cases d.negative
    · have positive : Int.sign (d.mantissa : Int) = 1 := Int.sign_eq_one_of_pos (by omega)
      simp [positive]
    · have below : Int.sign (-(d.mantissa : Int)) = -1 := Int.sign_eq_neg_one_of_neg (by omega)
      by_cases zero : r = 0
      · simp [zero]
      · simp [zero, below]

theorem scale_roundAway {p : Nat} (short : p < d.scale) : (d.roundAway p).scale = p := by
  simp only [roundAway]
  rw [dif_pos short]
  split <;> rfl

theorem units_of_same_scale (scale : a.scale = b.scale) (same : a.unscaled = b.unscaled) :
    a.units = b.units := by
  rw [units, units, scale, same]

theorem Pads.roundAway (h : Pads a b k) (p : Nat) : (a.roundAway p).units = (b.roundAway p).units := by
  have sign : b.unscaled.sign = a.unscaled.sign := by
    rw [h.unscaled, Int.sign_mul, Int.sign_eq_one_of_pos (Int.natCast_pos.2 (pow_pos_ten k)), Int.mul_one]
  have scale := h.scale
  by_cases shorter : p < a.scale
  · have longer : p < b.scale := by omega
    refine units_of_same_scale ((scale_roundAway shorter).trans (scale_roundAway longer).symm) ?_
    have places : b.scale - p = a.scale - p + k := by omega
    have grown : 2 * (a.mantissa * Nat.pow 10 k) + Nat.pow 10 (a.scale - p) * Nat.pow 10 k =
        (2 * a.mantissa + Nat.pow 10 (a.scale - p)) * Nat.pow 10 k := by ring
    rw [unscaled_roundAway shorter, unscaled_roundAway longer, sign, h.mantissa, places, pow_add_ten, grown,
      ← Nat.mul_assoc, Nat.mul_div_mul_right _ _ (pow_pos_ten k)]
  · rw [roundAway_of_scale_le (d := a) (by omega)]
    by_cases longer : p < b.scale
    · have padded : Pads a (b.roundAway p) (p - a.scale) := by
        refine ⟨by rw [scale_roundAway longer]; omega, ?_⟩
        have zeros : k = p - a.scale + (b.scale - p) := by omega
        have positive := pow_pos_ten (b.scale - p)
        have exact : (2 * b.mantissa + Nat.pow 10 (b.scale - p)) / (2 * Nat.pow 10 (b.scale - p)) =
            a.mantissa * Nat.pow 10 (p - a.scale) := by
          have split : b.mantissa = a.mantissa * Nat.pow 10 (p - a.scale) * Nat.pow 10 (b.scale - p) := by
            rw [h.mantissa, Nat.mul_assoc, ← pow_add_ten, ← zeros]
          rw [split]
          generalize a.mantissa * Nat.pow 10 (p - a.scale) = x
          generalize Nat.pow 10 (b.scale - p) = u at positive
          have odd : 2 * (x * u) + u = (2 * x + 1) * u := by ring
          rw [odd, Nat.mul_div_mul_right _ _ positive]
          omega
        rw [unscaled_roundAway longer, sign, exact]
        have whole := Int.sign_mul_natAbs a.unscaled
        rw [natAbs_unscaled] at whole
        rw [Int.natCast_mul, ← Int.mul_assoc, whole]
      exact padded.units
    · rw [roundAway_of_scale_le (d := b) (by omega)]
      exact h.units

theorem roundAway_congr (same : a.units = b.units) (p : Nat) :
    (a.roundAway p).units = (b.roundAway p).units := by
  obtain ⟨k, padded | padded⟩ := pads_of_units same
  · exact padded.roundAway p
  · exact (padded.roundAway p).symm

/-- As many zeros are appended as asked for, or as fit. -/
theorem exists_pads_appendZeros (places : Nat) (d : Decimal) :
    ∃ k ≤ places, Pads d (appendZeros places d) k ∧
      (k < places → 0x1000000000000000000000000 ≤ (appendZeros places d).mantissa * 10 ∨
        (appendZeros places d).scale = 28) := by
  induction places generalizing d with
  | zero => exact ⟨0, Nat.le_refl 0, .refl d, nofun⟩
  | succ places ih =>
    simp only [appendZeros]
    split
    · next room =>
      obtain ⟨k, most, ⟨scale, unscaled⟩, full⟩ := ih ⟨d.negative, d.mantissa * 10, d.scale + 1, room.1, room.2⟩
      refine ⟨k + 1, by omega, ⟨?_, ?_⟩, fun less => full (by omega)⟩
      · rw [scale, Nat.add_assoc, Nat.add_comm 1]
      · have first : Decimal.unscaled ⟨d.negative, d.mantissa * 10, d.scale + 1, room.1, room.2⟩ = d.unscaled * 10 := by
          simp only [Decimal.unscaled]
          cases d.negative <;> simp
        rw [unscaled, first, pow_add_ten]
        push_cast
        ring
    · next full =>
      have few := d.scale_le
      exact ⟨0, Nat.zero_le _, .refl d, fun _ => by omega⟩

theorem units_appendZeros (places : Nat) (d : Decimal) : (appendZeros places d).units = d.units := by
  obtain ⟨_, _, padded, _⟩ := exists_pads_appendZeros places d
  exact padded.units.symm

theorem rescale_congr (same : a.units = b.units) (scale : Nat) :
    (a.rescale scale).units = (b.rescale scale).units := by
  simp only [rescale, units_appendZeros]
  exact roundAway_congr same scale

end Decimal

end SqlEngine
