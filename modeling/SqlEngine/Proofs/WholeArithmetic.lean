import SqlEngine.Proofs.WholeConversions

/-!
# Arithmetic on whole numbers

What is computed from whole numbers is the number that it should be, in a type that goes by the types of the operands
alone, or else it is refused as out of range. Nothing is wrapped or rounded. So sums and products commute, and a
difference is the sum with the negated number.
-/

namespace SqlEngine

/-- The type has this whole number. -/
def DataType.Has (t : DataType) (n : ℤ) : Prop := ∃ bound, t.wholeBound? = some bound ∧ -bound ≤ n ∧ n < bound

theorem DataType.has_iff {t : DataType} {bound n : ℤ} (integral : t.wholeBound? = some bound) :
    t.Has n ↔ -bound ≤ n ∧ n < bound := by
  constructor
  · rintro ⟨other, same, inside⟩
    cases integral.symm.trans same
    exact inside
  · intro inside
    exact ⟨bound, integral, inside⟩

/-- What an operator makes of two whole numbers. -/
def BinaryOp.onWhole? : BinaryOp → Option (ℤ → ℤ → ℤ)
  | plus => some fun m n => m + n
  | minus => some fun m n => m - n
  | times => some fun m n => m * n
  | _ => none

namespace Value

/-- The number that a value stands for whose type has whole numbers only. -/
def whole? : Value → Option ℤ
  | smallint k => some k.toInt
  | integer k => some k.toInt
  | bigint k => some k.toInt
  | _ => none

/-- The value is this number, in this type. -/
structure IsNumber (t : DataType) (n : ℤ) (v : Value) : Prop where
  type : v.type = t
  whole : v.whole? = some n

/-- The type in which two whole numbers are computed with. -/
def wholeType (a b : Value) : DataType :=
  if a.type = .bigint ∨ b.type = .bigint then .bigint else .integer

variable {a b c v w : Value} {t : DataType} {m n : ℤ}

theorem IsNumber.has (h : v.IsNumber t n) : t.Has n := by
  obtain ⟨rfl, whole⟩ := h
  cases v with
  | smallint k | integer k | bigint k =>
    cases whole
    exact ⟨_, rfl, k.le_toInt, k.toInt_lt⟩
  | _ => cases whole

/-- A type has a number in one form only. -/
theorem IsNumber.unique (h : v.IsNumber t n) (h' : w.IsNumber t n) : v = w := by
  obtain ⟨rfl, whole⟩ := h
  obtain ⟨type, whole'⟩ := h'
  have same := whole.trans whole'.symm
  cases v with
  | smallint k =>
    cases w with
    | smallint l => exact congrArg smallint (Int16.toInt_inj.1 (Option.some.inj same))
    | _ => cases type
  | integer k =>
    cases w with
    | integer l => exact congrArg integer (Int32.toInt_inj.1 (Option.some.inj same))
    | _ => cases type
  | bigint k =>
    cases w with
    | bigint l => exact congrArg bigint (Int64.toInt_inj.1 (Option.some.inj same))
    | _ => cases type
  | _ => cases whole

theorem isNumber_of_whole (whole : v.whole? = some n) : v.IsNumber v.type n := ⟨rfl, whole⟩

/-- A whole number is read as one of sixty-four bits without loss. -/
theorem toInt64?_of_whole (whole : v.whole? = some n) :
    v.isNull = false ∧ v.isIntegral = true ∧ ∃ k, v.toInt64? = some k ∧ k.toInt = n := by
  cases v with
  | smallint k =>
    cases whole
    exact ⟨rfl, rfl, _, rfl, Int16.toInt_toInt64 k⟩
  | integer k =>
    cases whole
    exact ⟨rfl, rfl, _, rfl, Int32.toInt_toInt64 k⟩
  | bigint k =>
    cases whole
    exact ⟨rfl, rfl, _, rfl, rfl⟩
  | _ => cases whole

theorem isBigint_iff : v.isBigint = true ↔ v.type = .bigint := by
  cases v <;> simp [isBigint, type, DataType.anyVarchar]

/-- The outcome is this number in this type if the type has it, and otherwise an overflow with these texts. -/
structure ExactOrOverflow (t : DataType) (n : ℤ) (what target : String) (x : Except EngineError Value) : Prop where
  fits : t.Has n → ∃ v, x = .ok v ∧ v.IsNumber t n
  overflow : ¬ t.Has n → x = .error (.value (.outOfRange what target))

def Overflows (x : Except EngineError Value) : Prop := ∃ what target, x = .error (.value (.outOfRange what target))

section ExactOrOverflow

variable {what target : String} {x : Except EngineError Value}

theorem ExactOrOverflow.ok_iff (h : ExactOrOverflow t n what target x) : x = .ok v ↔ v.IsNumber t n := by
  constructor
  · intro given
    by_cases has : t.Has n
    · obtain ⟨w, same, number⟩ := h.fits has
      cases given.symm.trans same
      exact number
    · cases given.symm.trans (h.overflow has)
  · intro number
    obtain ⟨w, given, other⟩ := h.fits number.has
    rw [given, number.unique other]

theorem ExactOrOverflow.overflows_iff (h : ExactOrOverflow t n what target x) : Overflows x ↔ ¬ t.Has n := by
  constructor
  · rintro ⟨what, target, refused⟩ has
    obtain ⟨w, given, _⟩ := h.fits has
    cases given.symm.trans refused
  · intro outside
    exact ⟨what, target, h.overflow outside⟩

/-- A number that is given where it is in range, and refused elsewhere. -/
theorem exactOrOverflow_ite {p : Prop} [Decidable p] (inside : p ↔ t.Has n) (number : p → w.IsNumber t n) :
    ExactOrOverflow t n what target (if p then .ok w else .error (.value (.outOfRange what target))) where
  fits has := ⟨w, if_pos (inside.2 has), number (inside.2 has)⟩
  overflow outside := if_neg fun h => outside (inside.1 h)

/-- The least number of a type is refused, and for every other one negation does not wrap. -/
theorem exactOrOverflow_negation {p : Prop} [Decidable p] (bound : ℕ) (integral : t.wholeBound? = some (bound : ℤ))
    (has : t.Has n) (least : p ↔ n = -bound) (type : w.type = t)
    (wrapped : w.whole? = some ((-n).bmod (2 * bound))) :
    ExactOrOverflow t (-n) what target (if p then .error (.value (.outOfRange what target)) else .ok w) := by
  have inside := (DataType.has_iff integral).1 has
  rw [← ite_not]
  refine exactOrOverflow_ite ?_ fun other => ⟨type, ?_⟩
  · rw [DataType.has_iff integral, least]
    omega
  · rw [least] at other
    rw [wrapped, Int.bmod_eq_of_le (by omega) (by omega)]

end ExactOrOverflow

theorem exactOrOverflow_negated (whole : v.whole? = some n) :
    ExactOrOverflow v.type (-n) ("-" ++ v.text) v.typeName v.negated := by
  have has := (isNumber_of_whole whole).has
  cases v with
  | smallint k =>
    cases whole
    refine exactOrOverflow_negation 0x8000 rfl has ?_ rfl (congrArg some k.toInt_neg)
    rw [← Int16.toInt_inj, Int16.toInt_minValue]
    rfl
  | integer k =>
    cases whole
    refine exactOrOverflow_negation 0x80000000 rfl has ?_ rfl (congrArg some k.toInt_neg)
    rw [← Int32.toInt_inj, Int32.toInt_minValue]
    rfl
  | bigint k =>
    cases whole
    refine exactOrOverflow_negation 0x8000000000000000 rfl has ?_ rfl (congrArg some k.toInt_neg)
    rw [← Int64.toInt_inj, Int64.toInt_minValue]
    rfl
  | _ => cases whole

/-- What is computed is given in the type that goes by the operands. -/
theorem exactOrOverflow_computed {what target : String} (a b : Value) (n : ℤ) :
    ExactOrOverflow (wholeType a b) n what target (orElseThrow (.value (.outOfRange what target))
      (if a.isBigint || b.isBigint then ofBigint? n else ofInteger? n)) := by
  have thrown {p : Prop} [Decidable p] (w : Value) (x : EngineError) :
      orElseThrow x (if p then some w else none) = if p then .ok w else .error x := by
    split <;> rfl
  by_cases big : a.type = .bigint ∨ b.type = .bigint
  · have given : (a.isBigint || b.isBigint) = true := by
      rwa [Bool.or_eq_true, isBigint_iff, isBigint_iff]
    rw [wholeType, if_pos big, if_pos given, ofBigint?, thrown]
    refine exactOrOverflow_ite (DataType.has_iff rfl).symm fun inside => ⟨rfl, ?_⟩
    exact congrArg some (Int64.toInt_ofInt_of_le inside.1 inside.2)
  · have given : ¬ (a.isBigint || b.isBigint) = true := by
      rwa [Bool.or_eq_true, isBigint_iff, isBigint_iff]
    rw [wholeType, if_neg big, if_neg given, ofInteger?, thrown]
    refine exactOrOverflow_ite (DataType.has_iff rfl).symm fun inside => ⟨rfl, ?_⟩
    exact congrArg some (Int32.toInt_ofInt_of_le inside.1 inside.2)

theorem arithmetic?_of_onWhole {op : BinaryOp} {f : ℤ → ℤ → ℤ} (defined : op.onWhole? = some f) :
    op.arithmetic? Int.add Int.sub Int.mul = some f := by
  cases op <;> cases defined <;> rfl

theorem exactOrOverflow_arithmetic {op : BinaryOp} {f : ℤ → ℤ → ℤ} (defined : op.onWhole? = some f)
    (left : a.whole? = some m) (right : b.whole? = some n) :
    ExactOrOverflow (wholeType a b) (f m n) (a.text ++ " " ++ op.symbol ++ " " ++ b.text) "numeric result"
      (arithmetic op a b) := by
  obtain ⟨presentA, integralA, k, readA, rfl⟩ := toInt64?_of_whole left
  obtain ⟨presentB, integralB, l, readB, rfl⟩ := toInt64?_of_whole right
  have computed : arithmetic op a b = orElseThrow (arithmeticOverflow op a b)
      (if a.isBigint || b.isBigint then ofBigint? (f k.toInt l.toInt) else ofInteger? (f k.toInt l.toInt)) := by
    simp only [arithmetic, presentA, presentB, integralA, integralB, Bool.or_self, Bool.false_eq_true, if_false,
      Bool.and_self, if_true, wholeArithmetic, arithmetic?_of_onWhole defined, readA, readB]
    rfl
  rw [computed]
  exact exactOrOverflow_computed a b _

theorem abs_le_of_narrow (whole : v.whole? = some n) (narrow : v.type ≠ .bigint) : |n| ≤ 2 ^ 31 := by
  rw [abs_le]
  cases v with
  | smallint k =>
    cases whole
    have least := k.le_toInt
    have below := k.toInt_lt
    omega
  | integer k =>
    cases whole
    exact ⟨k.le_toInt, k.toInt_lt.le⟩
  | bigint k => exact absurd rfl narrow
  | _ => cases whole

/-- What is computed from operands that are not `BIGINT` has sixty-four bits at most. -/
theorem has_bigint_of_narrow {op : BinaryOp} {f : ℤ → ℤ → ℤ} (defined : op.onWhole? = some f)
    (left : a.whole? = some m) (right : b.whole? = some n) (narrow : wholeType a b = .integer) :
    DataType.bigint.Has (f m n) := by
  have neither : ¬ (a.type = .bigint ∨ b.type = .bigint) := by
    intro either
    rw [wholeType, if_pos either] at narrow
    cases narrow
  rw [not_or] at neither
  have first := abs_le_of_narrow left neither.1
  have second := abs_le_of_narrow right neither.2
  have short : |f m n| ≤ 2 ^ 62 := by
    cases op with
    | plus =>
      cases defined
      change |m + n| ≤ 2 ^ 62
      have sum := abs_add_le m n
      omega
    | minus =>
      cases defined
      change |m - n| ≤ 2 ^ 62
      have difference := abs_sub m n
      omega
    | times =>
      cases defined
      calc |m * n| = |m| * |n| := abs_mul m n
        _ ≤ 2 ^ 31 * 2 ^ 31 := mul_le_mul first second (abs_nonneg n) (by norm_num)
        _ = 2 ^ 62 := by norm_num
    | _ => cases defined
  have inside := abs_le.1 short
  rw [DataType.has_iff rfl]
  omega

theorem wholeType_comm (a b : Value) : wholeType a b = wholeType b a := by
  simp only [wholeType, or_comm]

theorem wholeType_congr (a : Value) (same : b.type = c.type) : wholeType a b = wholeType a c := by
  rw [wholeType, wholeType, same]

/-- Arithmetic on whole numbers is exact, in a type that goes by those of the operands, or it overflows; so is
negation, in the type of its operand. Operands that are not `BIGINT` cannot overflow sixty-four bits on the way. Sums
and products commute, and a difference is the sum with the negated number where there is one. -/
theorem whole_arithmetic_exact (left : a.whole? = some m) (right : b.whole? = some n) :
    (∀ op f, op.onWhole? = some f →
      ExactOrOverflow (wholeType a b) (f m n) (a.text ++ " " ++ op.symbol ++ " " ++ b.text) "numeric result"
          (arithmetic op a b) ∧
        (wholeType a b = .integer → DataType.bigint.Has (f m n))) ∧
      ExactOrOverflow a.type (-m) ("-" ++ a.text) a.typeName a.negated ∧
      (∀ op, op = .plus ∨ op = .times →
        (∀ v, arithmetic op a b = .ok v ↔ arithmetic op b a = .ok v) ∧
          (Overflows (arithmetic op a b) ↔ Overflows (arithmetic op b a))) ∧
      ∀ c, b.negated = .ok c → ∀ v, arithmetic .minus a b = .ok v ↔ arithmetic .plus a c = .ok v := by
  refine ⟨fun op f defined => ?_, exactOrOverflow_negated left, fun op commutes => ?_, fun c negated v => ?_⟩
  · exact ⟨exactOrOverflow_arithmetic defined left right, has_bigint_of_narrow defined left right⟩
  · obtain ⟨f, defined, symmetric⟩ : ∃ f, op.onWhole? = some f ∧ f m n = f n m := by
      rcases commutes with rfl | rfl
      · exact ⟨_, rfl, Int.add_comm m n⟩
      · exact ⟨_, rfl, Int.mul_comm m n⟩
    have forward := exactOrOverflow_arithmetic defined left right
    have backward := exactOrOverflow_arithmetic defined right left
    rw [wholeType_comm b a, ← symmetric] at backward
    exact ⟨fun v => forward.ok_iff.trans backward.ok_iff.symm,
      forward.overflows_iff.trans backward.overflows_iff.symm⟩
  · have number : c.IsNumber b.type (-n) := (exactOrOverflow_negated right).ok_iff.1 negated
    have difference : ExactOrOverflow (wholeType a b) (m - n) _ _ (arithmetic .minus a b) :=
      exactOrOverflow_arithmetic rfl left right
    have sum : ExactOrOverflow (wholeType a c) (m + -n) _ _ (arithmetic .plus a c) :=
      exactOrOverflow_arithmetic rfl left number.whole
    rw [wholeType_congr a number.type, ← sub_eq_add_neg] at sum
    exact difference.ok_iff.trans sum.ok_iff.symm

/-- The least `INTEGER` has no negation, but as a `BIGINT` it can be taken minus one times, in either order. -/
theorem whole_arithmetic_exact_least :
    let least := integer Int32.minValue
    let minusOne := bigint (-1)
    arithmetic .times least minusOne = .ok (bigint 2147483648) ∧
      arithmetic .times minusOne least = .ok (bigint 2147483648) ∧
      least.negated = .error (.value (.outOfRange "--2147483648" "INTEGER")) ∧
      arithmetic .minus least (integer 1) =
        .error (.value (.outOfRange "-2147483648 - 1" "numeric result")) := by
  intro least minusOne
  obtain ⟨results, negation, commute, _⟩ := whole_arithmetic_exact (a := least) (b := minusOne) rfl rfl
  obtain ⟨narrow, _⟩ := whole_arithmetic_exact (a := least) (b := integer 1) rfl rfl
  have product : arithmetic .times least minusOne = .ok (bigint 2147483648) :=
    (results .times _ rfl).1.ok_iff.2 ⟨rfl, rfl⟩
  have text : least.text = "-2147483648" := by decide +kernel
  have textOne : (integer 1).text = "1" := by decide +kernel
  refine ⟨product, ((commute .times (.inr rfl)).1 _).1 product, ?_, ?_⟩
  · rw [negation.overflow (by rw [DataType.has_iff rfl]; decide), text]
    rfl
  · rw [(narrow .minus _ rfl).1.overflow (by rw [DataType.has_iff rfl]; decide), text, textOne]
    rfl

end Value

end SqlEngine
