import SqlEngine.Proofs.BinaryRounding
import SqlEngine.Proofs.DecimalScale
import SqlEngine.Proofs.Outcomes
import SqlEngine.Value.Arithmetic

/-!
# Values of a type

A value has a type if conversion to the type leaves it as it is. Whatever conversion gives has the
type it was converted to, a value that is not null has its own type, and negation keeps types.
-/

namespace SqlEngine

namespace Value

/-- Floats are compared by bits with all NaNs taken for one, and decimals by number. -/
def agrees : Value → Value → Prop
  | real x, real y => x = y ∨ (x.isNaN = true ∧ y.isNaN = true)
  | double x, double y => x = y ∨ (x.isNaN = true ∧ y.isNaN = true)
  | decimal d, decimal e => d.compare e = .eq
  | v, w => v = w

/-- Conversion to the type leaves the value as it is. Null has every type. -/
def HasType (v : Value) (t : DataType) : Prop := ∃ w, v.convert t = .ok w ∧ v.agrees w

/-- The values of a type besides null. -/
inductive OfType : DataType → Value → Prop
  | boolean (b) : OfType .boolean (.boolean b)
  | smallint (n) : OfType .smallint (.smallint n)
  | integer (n) : OfType .integer (.integer n)
  | bigint (n) : OfType .bigint (.bigint n)
  | decimal {precision scale d e}
      (fits : (Value.decimal d).fitDecimal (.decimal precision scale) precision scale d = .ok e)
      (same : d.compare e = .eq) : OfType (.decimal precision scale) (.decimal d)
  | real (x) : OfType .real (.real x)
  | double (x) : OfType .double (.double x)
  | char (s) : OfType (.char s.length) (.char s)
  | varchar {maxLength s} (short : ∀ n, maxLength = some n → s.length ≤ n) :
      OfType (.varchar maxLength) (.varchar s)
  | clob (s) : OfType .clob (.clob s)
  | varbinary (b) : OfType .varbinary (.varbinary b)
  | blob (b) : OfType .blob (.blob b)
  | date (d) : OfType .date (.date d)
  | time (t) : OfType .time (.time t)
  | timestamp (t) : OfType .timestamp (.timestamp t)
  | array (items) : OfType .array (.array items)
  | xml (s) : OfType .xml (.xml s)
  | resultSet (columns rows) : OfType .resultSet (.resultSet columns rows)
  | object (b) : OfType .object (.object b)

theorem eq_null_of_isNull {v : Value} (h : v.isNull = true) : v = .null := by
  cases v <;> first | rfl | cases h

theorem convert_of_present {v : Value} (h : v.isNull = false) (t : DataType) :
    v.convert t = v.convertPresent t := by
  rw [convert, if_neg (by simp [h])]

theorem hasType_null (t : DataType) : null.HasType t := ⟨null, rfl, rfl⟩

theorem isNull_of_ofType {t : DataType} {v : Value} (h : OfType t v) : v.isNull = false := by
  cases h <;> rfl

/-- A decimal at the scale of its type, if that has one. -/
def atScale (scale : Option Nat) (d : Decimal) : Decimal :=
  match scale with
  | some s => d.rescale s
  | none => d

theorem fitDecimal_eq_ok {v : Value} {t : DataType} {precision scale : Option Nat} {d e : Decimal} :
    v.fitDecimal t precision scale d = .ok e ↔
      e = atScale scale d ∧ ∀ p, precision = some p → Text.digitCount e.mantissa ≤ p := by
  simp only [fitDecimal]
  change (match precision with
    | some p => if p < Text.digitCount (atScale scale d).mantissa then _ else _
    | none => _) = Except.ok e ↔ _
  cases precision with
  | none =>
    constructor
    · intro h
      cases h
      exact ⟨rfl, fun p hp => nomatch hp⟩
    · rintro ⟨rfl, _⟩
      rfl
  | some p =>
    by_cases wide : p < Text.digitCount (atScale scale d).mantissa
    · simp only [if_pos wide]
      constructor
      · intro h
        cases h
      · rintro ⟨rfl, short⟩
        exact absurd wide (Nat.not_lt.2 (short p rfl))
    · simp only [if_neg wide]
      constructor
      · intro h
        cases h
        refine ⟨rfl, fun q hq => ?_⟩
        cases hq
        exact Nat.not_lt.1 wide
      · rintro ⟨rfl, _⟩
        rfl

theorem atScale_atScale (scale : Option Nat) (d : Decimal) :
    atScale scale (atScale scale d) = atScale scale d := by
  cases scale with
  | none => rfl
  | some s => exact d.rescale_rescale s

theorem opposite_atScale {a b : Decimal} (h : a.Opposite b) (scale : Option Nat) :
    (atScale scale a).Opposite (atScale scale b) := by
  cases scale with
  | none => exact h
  | some s => exact h.rescale s

/-- A decimal that fits its type fits it again as it is. -/
theorem fitDecimal_again {v v' : Value} {t t' : DataType} {precision scale : Option Nat}
    {d e : Decimal} (h : v.fitDecimal t precision scale d = .ok e) :
    v'.fitDecimal t' precision scale e = .ok e := by
  obtain ⟨rfl, short⟩ := fitDecimal_eq_ok.1 h
  exact fitDecimal_eq_ok.2 ⟨(atScale_atScale scale d).symm, short⟩

theorem fitDecimal_opposite {v v' : Value} {t t' : DataType} {precision scale : Option Nat}
    {a b x : Decimal} (opposite : a.Opposite b) (h : v.fitDecimal t precision scale a = .ok x) :
    ∃ y, v'.fitDecimal t' precision scale b = .ok y ∧ x.Opposite y := by
  obtain ⟨rfl, short⟩ := fitDecimal_eq_ok.1 h
  have scaled := opposite_atScale opposite scale
  refine ⟨atScale scale b, fitDecimal_eq_ok.2 ⟨rfl, fun p hp => ?_⟩, scaled⟩
  rw [scaled.mantissa]
  exact short p hp

theorem fitChar_fixed (t : DataType) (s : String) : fitChar t s.length s = .ok s := by
  have length : s.toList.length = s.length := rfl
  simp only [fitChar]
  simp only [length, Nat.le_refl, if_true, Text.padRight, Nat.sub_self, List.replicate_zero,
    List.append_nil, String.ofList_toList]

theorem length_fitChar {t : DataType} {length : Nat} {s r : String}
    (h : fitChar t length s = .ok r) : r.length = length := by
  have padded (cs : List Char) (short : cs.length ≤ length) :
      (String.ofList (Text.padRight ' ' length cs)).length = length := by
    rw [String.length_ofList, Text.length_padRight, Nat.max_eq_left short]
  unfold fitChar at h
  simp only [] at h
  split at h
  · next short =>
    cases h
    exact padded _ short
  · split at h
    · cases h
    · next short =>
      cases h
      exact padded _ (Nat.not_lt.1 short)

theorem fitVarchar_eq_ok {t : DataType} {maxLength : Option Nat} {s r : String} :
    fitVarchar t maxLength s = .ok r ↔ r = s ∧ ∀ n, maxLength = some n → s.length ≤ n := by
  simp only [fitVarchar]
  cases maxLength with
  | none =>
    constructor
    · intro h
      cases h
      exact ⟨rfl, fun n hn => nomatch hn⟩
    · rintro ⟨rfl, _⟩
      rfl
  | some n =>
    by_cases long : n < s.length
    · simp only [if_pos long]
      constructor
      · intro h
        cases h
      · rintro ⟨_, short⟩
        exact absurd long (Nat.not_lt.2 (short n rfl))
    · simp only [if_neg long]
      constructor
      · intro h
        cases h
        refine ⟨rfl, fun m hm => ?_⟩
        cases hm
        exact Nat.not_lt.1 long
      · rintro ⟨rfl, _⟩
        rfl

theorem ofType_decimal_of_fit {v : Value} {t : DataType} {precision scale : Option Nat}
    {d e : Decimal} (h : v.fitDecimal t precision scale d = .ok e) :
    OfType (.decimal precision scale) (.decimal e) :=
  .decimal (fitDecimal_again h) e.compare_self

theorem convertPresent_smallint {v : Value} {n : Int16} (read : v.toWhole .smallint = .ok n.toInt64) :
    v.convertPresent .smallint = .ok (smallint n) := by
  have lower := n.le_toInt
  have upper := n.toInt_lt
  have same : n.toInt64.toInt = n.toInt := n.toInt_toInt64
  refine bind_eq_ok.2 ⟨n.toInt64, read, ?_⟩
  simp only [same]
  rw [if_pos (by omega), Int16.ofInt_toInt]

theorem convertPresent_integer {v : Value} {n : Int32} (read : v.toWhole .integer = .ok n.toInt64) :
    v.convertPresent .integer = .ok (integer n) := by
  have lower := n.le_toInt
  have upper := n.toInt_lt
  have same : n.toInt64.toInt = n.toInt := n.toInt_toInt64
  refine bind_eq_ok.2 ⟨n.toInt64, read, ?_⟩
  simp only [same]
  rw [if_pos (by omega), Int32.ofInt_toInt]

theorem agrees_real (x : Binary32) : (real x).agrees (real ((x.convert .double).convert .single)) := by
  cases h : x.isNaN with
  | false => exact .inl (Binary.convert_double_single h).symm
  | true => exact .inr ⟨h, Binary.isNaN_convert_single (Binary.isNaN_convert_double h)⟩

/-- A value that belongs to a type is left alone by conversion to it. -/
theorem hasType_of_ofType {t : DataType} {v : Value} (h : OfType t v) : v.HasType t := by
  rw [HasType, convert_of_present (isNull_of_ofType h)]
  cases h with
  | smallint n => exact ⟨_, convertPresent_smallint rfl, rfl⟩
  | integer n => exact ⟨_, convertPresent_integer rfl, rfl⟩
  | decimal fits same => exact ⟨_, bind_eq_ok.2 ⟨_, rfl, map_eq_ok.2 ⟨_, fits, rfl⟩⟩, same⟩
  | real x => exact ⟨_, rfl, agrees_real x⟩
  | char s => exact ⟨_, bind_eq_ok.2 ⟨s, rfl, map_eq_ok.2 ⟨s, fitChar_fixed _ s, rfl⟩⟩, rfl⟩
  | varchar short =>
    exact ⟨_, bind_eq_ok.2 ⟨_, rfl, map_eq_ok.2 ⟨_, fitVarchar_eq_ok.2 ⟨rfl, short⟩, rfl⟩⟩, rfl⟩
  | double x => exact ⟨_, rfl, .inl rfl⟩
  | _ => exact ⟨_, rfl, rfl⟩

/-- What conversion gives belongs to the type. -/
theorem ofType_of_convertPresent {t : DataType} {v w : Value} (h : v.convertPresent t = .ok w) :
    OfType t w := by
  cases t with
  | boolean =>
    obtain ⟨b, _, rfl⟩ := map_eq_ok.1 h
    exact .boolean b
  | smallint =>
    obtain ⟨n, _, rest⟩ := bind_eq_ok.1 h
    simp only [] at rest
    split at rest
    · cases rest
      exact .smallint _
    · cases rest
  | integer =>
    obtain ⟨n, _, rest⟩ := bind_eq_ok.1 h
    simp only [] at rest
    split at rest
    · cases rest
      exact .integer _
    · cases rest
  | bigint =>
    obtain ⟨n, _, rfl⟩ := map_eq_ok.1 h
    exact .bigint n
  | decimal precision scale =>
    obtain ⟨d, _, rest⟩ := bind_eq_ok.1 h
    obtain ⟨e, fits, rfl⟩ := map_eq_ok.1 rest
    exact ofType_decimal_of_fit fits
  | real =>
    obtain ⟨x, _, rfl⟩ := map_eq_ok.1 h
    exact .real _
  | double =>
    obtain ⟨x, _, rfl⟩ := map_eq_ok.1 h
    exact .double x
  | char length =>
    obtain ⟨s, _, rest⟩ := bind_eq_ok.1 h
    obtain ⟨r, fits, rfl⟩ := map_eq_ok.1 rest
    obtain rfl := length_fitChar fits
    exact .char r
  | varchar maxLength =>
    obtain ⟨s, _, rest⟩ := bind_eq_ok.1 h
    obtain ⟨r, fits, rfl⟩ := map_eq_ok.1 rest
    obtain ⟨rfl, short⟩ := fitVarchar_eq_ok.1 fits
    exact .varchar short
  | clob =>
    obtain ⟨s, _, rfl⟩ := map_eq_ok.1 h
    exact .clob s
  | varbinary =>
    obtain ⟨b, _, rfl⟩ := map_eq_ok.1 h
    exact .varbinary b
  | blob =>
    obtain ⟨b, _, rfl⟩ := map_eq_ok.1 h
    exact .blob b
  | date =>
    obtain ⟨d, _, rfl⟩ := map_eq_ok.1 h
    exact .date d
  | time =>
    obtain ⟨s, _, rfl⟩ := map_eq_ok.1 h
    exact .time s
  | timestamp =>
    obtain ⟨s, _, rfl⟩ := map_eq_ok.1 h
    exact .timestamp s
  | array =>
    cases v <;> cases h <;> exact .array _
  | xml =>
    simp only [convertPresent, readText] at h
    cases text : v.string? with
    | none => simp [text] at h
    | some s =>
      simp only [text] at h
      cases h
      exact .xml s
  | resultSet =>
    cases v <;> cases h <;> exact .resultSet _ _
  | object =>
    cases v <;> cases h
    exact .object _
  | null => cases h

/-- A value that conversion leaves as it is belongs to the type, or is null. -/
theorem ofType_of_hasType {t : DataType} {v : Value} (h : v.HasType t) : v = .null ∨ OfType t v := by
  obtain ⟨w, converted, same⟩ := h
  cases present : v.isNull with
  | true => exact .inl (eq_null_of_isNull present)
  | false =>
    rw [convert_of_present present] at converted
    have ofType := ofType_of_convertPresent converted
    refine .inr ?_
    cases v with
    | real x =>
      cases w <;> first | cases ofType; exact .real x | cases same
    | double x =>
      cases w <;> first | cases ofType; exact .double x | cases same
    | decimal d =>
      cases w with
      | decimal e =>
        cases ofType with
        | decimal _ _ =>
          obtain ⟨d', exact, rest⟩ := bind_eq_ok.1 converted
          obtain ⟨e', fits, equal⟩ := map_eq_ok.1 rest
          cases exact
          cases equal
          exact .decimal fits same
      | _ => cases same
    | _ => cases same; exact ofType

theorem hasType_convert {t : DataType} {v w : Value} (h : v.convert t = .ok w) : w.HasType t := by
  cases present : v.isNull with
  | true =>
    rw [convert, if_pos present] at h
    cases h
    exact hasType_null t
  | false =>
    rw [convert_of_present present] at h
    exact hasType_of_ofType (ofType_of_convertPresent h)

/-- A value has its own type. -/
theorem ofType_type {v : Value} (h : v.isNull = false) : OfType v.type v := by
  cases v with
  | null => cases h
  | decimal d =>
    refine .decimal (fitDecimal_eq_ok.2 ⟨d.rescale_scale.symm, fun p hp => nomatch hp⟩) ?_
    exact d.compare_self
  | char s => exact .char s
  | varchar s => exact .varchar fun n hn => nomatch hn
  | _ => constructor

/-- Negation keeps types. -/
theorem hasType_negated {t : DataType} {v w : Value} (h : v.HasType t) (ok : v.negated = .ok w) :
    w.HasType t := by
  rcases ofType_of_hasType h with rfl | ofType
  · cases ok
    exact hasType_null t
  · refine hasType_of_ofType ?_
    cases ofType with
    | smallint n =>
      unfold negated at ok
      simp only [] at ok
      split at ok <;> cases ok
      exact .smallint _
    | integer n =>
      unfold negated at ok
      simp only [] at ok
      split at ok <;> cases ok
      exact .integer _
    | bigint n =>
      unfold negated at ok
      simp only [] at ok
      split at ok <;> cases ok
      exact .bigint _
    | decimal fits same =>
      cases ok
      obtain ⟨y, again, opposite⟩ := fitDecimal_opposite (.neg _) fits
      exact .decimal again ((Decimal.Opposite.neg _).compare_eq opposite same)
    | real x =>
      cases ok
      exact .real x.neg
    | double x =>
      cases ok
      exact .double x.neg
    | _ => cases ok

end Value

end SqlEngine
