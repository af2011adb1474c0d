import SqlEngine.Proofs.DecimalValues
import SqlEngine.Proofs.EqualTexts
import SqlEngine.Proofs.TypeSoundness

/-!
# Exact numbers that differ in scale

Computing with exact numbers, comparing them and converting them to exact types makes no difference between
decimals of one value.
-/

namespace SqlEngine

namespace Value

/-- Both null, one whole number, or decimals of one value. -/
inductive Near : Value → Value → Prop
  | null : Near null null
  | whole {v : Value} (integral : v.isIntegral = true) : Near v v
  | decimals {d e : Decimal} (same : d.units = e.units) : Near (decimal d) (decimal e)

/-- Null counts as an exact number. -/
def isExactOrNull (v : Value) : Bool := v.isNull || v.isExact

theorem near_self {v : Value} (exact : v.isExactOrNull = true) : v.Near v := by
  cases v with
  | null => exact .null
  | smallint _ | integer _ | bigint _ => exact .whole rfl
  | decimal d => exact .decimals rfl
  | _ => cases exact

theorem near_of_same {v w : Value} (exact : v.isExactOrNull = true) (same : v.same w = true) : v.Near w := by
  cases sameCases same with
  | one => exact near_self exact
  | @decimals x y same =>
    have equal : x.compare y = .eq := eq_of_beq same
    rw [Decimal.compare_eq_units] at equal
    exact .decimals (Int.compare_eq_eq.1 equal)
  | _ => cases exact

variable {v w v' w' a b : Value}

namespace Near

theorem numbers (h : v.Near w) : v = .null ∧ w = .null ∨
    ∃ x y, v.toDecimal? = some x ∧ w.toDecimal? = some y ∧ x.units = y.units := by
  cases h with
  | null => exact .inl ⟨rfl, rfl⟩
  | whole integral =>
    cases v with
    | smallint _ | integer _ | bigint _ => exact .inr ⟨_, _, rfl, rfl, rfl⟩
    | _ => cases integral
  | decimals same => exact .inr ⟨_, _, rfl, rfl, same⟩

/-- As decimals they have one value. -/
theorem units {x y : Decimal} (h : v.Near w) (first : v.toDecimal? = some x) (second : w.toDecimal? = some y) :
    x.units = y.units := by
  rcases h.numbers with ⟨rfl, _⟩ | ⟨p, q, hp, hq, same⟩
  · cases first
  · cases hp.symm.trans first
    cases hq.symm.trans second
    exact same

theorem isNull (h : v.Near w) : v.isNull = w.isNull := by
  cases h <;> rfl

theorem isIntegral (h : v.Near w) : v.isIntegral = w.isIntegral := by
  cases h <;> rfl

theorem eq_of_isIntegral (h : v.Near w) (integral : v.isIntegral = true) : v = w := by
  cases h with
  | null | whole => rfl
  | decimals => cases integral

/-- Neither of them is approximate or text. -/
theorem plain (h : v.Near w) : v.isApproximate = false ∧ v.isCharacter = false := by
  cases h with
  | null | decimals => exact ⟨rfl, rfl⟩
  | whole integral =>
    cases v with
    | smallint _ | integer _ | bigint _ => exact ⟨rfl, rfl⟩
    | _ => cases integral

theorem symm (h : v.Near w) : w.Near v := by
  cases h with
  | null => exact .null
  | whole integral => exact .whole integral
  | decimals same => exact .decimals same.symm

theorem exactArithmetic {op : BinaryOp} (h : v.Near w) (h' : v'.Near w')
    (first : Value.exactArithmetic op v v' = .ok a) (second : Value.exactArithmetic op w w' = .ok b) :
    a.Near b := by
  have congruent {compute : Decimal → Decimal → Option Decimal}
      (chosen : op.arithmetic? Decimal.add? Decimal.sub? Decimal.mul? = some compute)
      {x y x' y' d e : Decimal} (left : x.units = y.units) (right : x'.units = y'.units)
      (one : compute x x' = some d) (other : compute y y' = some e) : d.units = e.units := by
    cases op with
    | plus =>
      cases chosen
      exact Decimal.add?_congr left right one other
    | minus =>
      cases chosen
      exact Decimal.sub?_congr left right one other
    | times =>
      cases chosen
      exact Decimal.mul?_congr left right one other
    | _ => cases chosen
  simp only [Value.exactArithmetic] at first second
  obtain ⟨compute, chosen, rest⟩ := bind_eq_ok.1 first
  obtain ⟨x, left, rest⟩ := bind_eq_ok.1 rest
  obtain ⟨x', right, rest⟩ := bind_eq_ok.1 rest
  obtain ⟨d, one, rest⟩ := bind_eq_ok.1 rest
  obtain ⟨compute', chosen', rest'⟩ := bind_eq_ok.1 second
  obtain ⟨y, left', rest'⟩ := bind_eq_ok.1 rest'
  obtain ⟨y', right', rest'⟩ := bind_eq_ok.1 rest'
  obtain ⟨e, other, rest'⟩ := bind_eq_ok.1 rest'
  cases rest
  cases rest'
  rw [orElseThrow_eq_ok] at chosen chosen' left right left' right' one other
  cases chosen.symm.trans chosen'
  exact .decimals (congruent chosen (h.units left left') (h'.units right right') one other)

theorem arithmetic {op : BinaryOp} (h : v.Near w) (h' : v'.Near w') (first : Value.arithmetic op v v' = .ok a)
    (second : Value.arithmetic op w w' = .ok b) : a.Near b := by
  simp only [Value.arithmetic, h.isNull, h'.isNull, h.isIntegral, h'.isIntegral, h.plain,
    h'.plain, h.symm.plain, h'.symm.plain, Bool.or_self, Bool.false_eq_true, if_false]
    at first second
  split at first
  · next absent =>
    rw [if_pos absent] at second
    cases first
    cases second
    exact .null
  · next present =>
    rw [if_neg present] at second
    split at first
    · next whole =>
      rw [if_pos whole] at second
      obtain ⟨left, right⟩ := Bool.and_eq_true_iff.1 whole
      rw [h.eq_of_isIntegral (h.isIntegral.trans left), h'.eq_of_isIntegral (h'.isIntegral.trans right)] at first
      cases Except.ok.inj (first.symm.trans second)
      have ofType := ofType_wholeArithmetic first
      refine .whole ((isIntegral_of_ofType ofType).trans ?_)
      split <;> rfl
    · next fractional =>
      rw [if_neg fractional] at second
      exact h.exactArithmetic h' first second

theorem negated (h : v.Near w) (first : v.negated = .ok a) (second : w.negated = .ok b) : a.Near b := by
  cases h with
  | null =>
    cases first
    cases second
    exact .null
  | whole integral =>
    cases Except.ok.inj (first.symm.trans second)
    cases v with
    | smallint _ | integer _ | bigint _ =>
      simp only [Value.negated] at first
      split at first
      · cases first
      · cases first
        exact .whole rfl
    | _ => cases integral
  | decimals same =>
    cases first
    cases second
    refine .decimals ?_
    rw [Decimal.units_neg, Decimal.units_neg, same]

/-- The nearest whole number. -/
theorem wholeOfDecimal {d e : Decimal} {t t' : DataType} {m n : Int64} (same : d.units = e.units)
    (first : Value.wholeOfDecimal d t = .ok m) (second : Value.wholeOfDecimal e t' = .ok n) : m = n := by
  have flat (d : Decimal) : (d.roundAway 0).scale = 0 := Nat.le_zero.1 (d.scale_roundAway_le 0)
  have rounded := Decimal.units_eq_iff.1 (Decimal.roundAway_congr same 0)
  rw [flat, flat] at rounded
  have whole : (d.roundAway 0).unscaled = (e.roundAway 0).unscaled := by
    simpa using rounded
  have truncated : (d.roundAway 0).toInt64? = (e.roundAway 0).toInt64? := by
    simp only [Decimal.toInt64?, Decimal.truncate, whole, flat]
  simp only [Value.wholeOfDecimal, truncated] at first second
  split at first
  · next found =>
    rw [found] at second
    cases first
    cases second
    rfl
  · cases first

theorem toWhole {t t' : DataType} {m n : Int64} (h : v.Near w) (present : v.isNull = false)
    (first : v.toWhole t = .ok m) (second : w.toWhole t' = .ok n) : m = n := by
  cases h with
  | null => cases present
  | whole integral =>
    cases v with
    | smallint _ | integer _ | bigint _ =>
      cases first
      cases second
      rfl
    | _ => cases integral
  | decimals same => exact wholeOfDecimal same first second

theorem toExact {t t' : DataType} {d e : Decimal} (h : v.Near w) (present : v.isNull = false)
    (first : v.toExact t = .ok d) (second : w.toExact t' = .ok e) : d.units = e.units := by
  rcases h.numbers with ⟨rfl, _⟩ | ⟨x, y, hx, hy, same⟩
  · cases present
  · simp only [Value.toExact, hx] at first
    simp only [Value.toExact, hy] at second
    cases first
    cases second
    exact same

theorem convert {t : DataType} (h : v.Near w) (exact : t.isExactNumeric = true) (first : v.convert t = .ok a)
    (second : w.convert t = .ok b) : a.Near b := by
  cases absent : v.isNull with
  | true =>
    have absent' : w.isNull = true := h.isNull.symm.trans absent
    simp only [Value.convert, absent, absent', if_true] at first second
    cases first
    cases second
    exact .null
  | false =>
    have present' : w.isNull = false := h.isNull.symm.trans absent
    rw [convert_of_present absent] at first
    rw [convert_of_present present'] at second
    cases t with
    | smallint | integer =>
      obtain ⟨m, found, rest⟩ := bind_eq_ok.1 first
      obtain ⟨n, found', rest'⟩ := bind_eq_ok.1 second
      cases h.toWhole absent found found'
      simp only [] at rest rest'
      split at rest
      · next fits =>
        rw [if_pos fits] at rest'
        cases rest
        cases rest'
        exact .whole rfl
      · cases rest
    | bigint =>
      obtain ⟨m, found, rfl⟩ := map_eq_ok.1 first
      obtain ⟨n, found', rfl⟩ := map_eq_ok.1 second
      cases h.toWhole absent found found'
      exact .whole rfl
    | decimal precision scale =>
      obtain ⟨x, found, rest⟩ := bind_eq_ok.1 first
      obtain ⟨y, found', rest'⟩ := bind_eq_ok.1 second
      obtain ⟨d, fits, rfl⟩ := map_eq_ok.1 rest
      obtain ⟨e, fits', rfl⟩ := map_eq_ok.1 rest'
      have same := h.toExact absent found found'
      rw [(fitDecimal_eq_ok.1 fits).1, (fitDecimal_eq_ok.1 fits').1]
      cases scale with
      | none => exact .decimals same
      | some places => exact .decimals (Decimal.rescale_congr same places)
    | _ => cases exact

end Near

end Value

namespace Collation

open Value

variable {c : Collation} {v w v' w' a b : Value}

theorem compare_near (h : v.Near w) (h' : v'.Near w') : c.compare v v' = c.compare w w' := by
  rcases h.numbers with ⟨rfl, rfl⟩ | ⟨x, y, hx, hy, left⟩
  · cases h' with
    | null | whole | decimals => rfl
  · rcases h'.numbers with ⟨rfl, rfl⟩ | ⟨x', y', hx', hy', right⟩
    · cases h with
      | null | whole | decimals => rfl
    · rw [compare_decimals c hx hx', compare_decimals c hy hy', Decimal.compare_eq_units,
        Decimal.compare_eq_units, left, right]

theorem compare_of_near (h : v.Near w) : c.compare v w = .eq := by
  have self : w.Near w := by
    cases h with
    | null => exact .null
    | whole integral => exact .whole integral
    | decimals => exact .decimals rfl
  rw [compare_near h self]
  exact c.compare_self w

theorem compareBy_near {op : BinaryOp} (h : v.Near w) (h' : v'.Near w')
    (first : compareBy c.compare op v v' = .ok a) (second : compareBy c.compare op w w' = .ok b) : a = b := by
  refine compareBy_of_orderBy h.isNull h'.isNull (fun o o' ordered ordered' => ?_) first second
  simp only [orderBy, h.plain, h'.plain] at ordered
  simp only [orderBy, h.symm.plain, h'.symm.plain] at ordered'
  rw [compare_near h h'] at ordered
  exact Except.ok.inj (ordered.symm.trans ordered')

end Collation

end SqlEngine
