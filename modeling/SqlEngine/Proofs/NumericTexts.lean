import Mathlib.Data.List.TakeWhile
import SqlEngine.Proofs.ComparisonOperators
import SqlEngine.Proofs.RoundedNumbers

/-!
# Text compared with exact numbers

For a comparison with an exact number, text is read as a number of the other one's type: it is rounded to a whole
number, or to as many places behind the point as the other decimal has. So the comparison is that of the two
numbers, but a number in the text that rounds to the other one counts as equal to it.
-/

namespace SqlEngine

namespace Text

variable {cs : List Char} {acc n : Nat}

theorem le_readDigits? (h : readDigits? acc cs = some n) : acc ≤ n := by
  induction cs generalizing acc with
  | nil =>
    cases h
    exact Nat.le_refl _
  | cons c r ih =>
    obtain ⟨digit, _, rest⟩ := Option.bind_eq_some_iff.1 h
    have later := ih rest
    omega

theorem digits_of_readDigits? (h : readDigits? acc cs = some n) : ∀ c ∈ cs, ∃ k, digitValue? c = some k := by
  induction cs generalizing acc with
  | nil => exact fun c hc => nomatch hc
  | cons c r ih =>
    obtain ⟨digit, value, rest⟩ := Option.bind_eq_some_iff.1 h
    intro d hd
    rcases List.mem_cons.1 hd with rfl | later
    · exact ⟨digit, value⟩
    · exact ih rest d later

theorem readNat?_eq_some (h : readNat? cs = some n) : cs ≠ [] ∧ readDigits? 0 cs = some n := by
  cases cs with
  | nil => cases h
  | cons c r => exact ⟨List.cons_ne_nil c r, h⟩

/-- A signed number in text is digits behind an optional sign. -/
theorem readSigned?_eq_some {z : Int} (h : readSigned? cs = some z) :
    ∃ negative body k, readNat? body = some k ∧ z = (if negative then -(k : Int) else k) ∧
      (negative = true ∧ cs = '-' :: body ∨ negative = false ∧ (cs = '+' :: body ∨ cs = body)) := by
  unfold readSigned? at h
  split at h
  · next r =>
    obtain ⟨z', cast, rfl⟩ := Option.map_eq_some_iff.1 h
    obtain ⟨k, read, value⟩ := Option.bind_eq_some_iff.1 cast
    cases value
    exact ⟨true, r, k, read, rfl, .inl ⟨rfl, rfl⟩⟩
  · next r =>
    obtain ⟨z', cast, rfl⟩ := Option.map_eq_some_iff.1 h
    obtain ⟨k, read, value⟩ := Option.bind_eq_some_iff.1 cast
    cases value
    exact ⟨false, r, k, read, rfl, .inr ⟨rfl, .inl rfl⟩⟩
  · obtain ⟨z', cast, rfl⟩ := Option.map_eq_some_iff.1 h
    obtain ⟨k, read, value⟩ := Option.bind_eq_some_iff.1 cast
    cases value
    exact ⟨false, cs, k, read, rfl, .inr ⟨rfl, .inr rfl⟩⟩

end Text

namespace Decimal

open Text (digitValue? readDigits? readNat? readSigned? readSignedWithin?)

variable {cs : List Char} {n : Nat}

/-- The reading that has come to the number `n` over so many further digits. -/
def Reading.after (s : Reading) (n count : Nat) : Reading where
  mantissa := n
  scale := if s.point then s.scale + count else s.scale
  point := s.point
  started := s.started || count != 0

/-- Digits are read one by one if a decimal can hold the number they come to and has the places for them. -/
theorem Reading.finish_append {s : Reading} {rest : List Char} (read : readDigits? s.mantissa cs = some n)
    (fits : n < 0x1000000000000000000000000) (places : s.point = true → s.scale + cs.length ≤ 28) :
    s.finish (cs ++ rest) = (s.after n cs.length).finish rest := by
  induction cs generalizing s with
  | nil =>
    cases read
    have same : s.after s.mantissa 0 = s := by simp [after]
    rw [List.nil_append, List.length_nil, same]
  | cons c r ih =>
    obtain ⟨digit, value, further⟩ := Option.bind_eq_some_iff.1 read
    -- the number grows with each digit, so none of its beginnings is too large
    have room := Text.le_readDigits? further
    have free : (s.point && s.scale == 28) = false := by
      cases point : s.point with
      | false => rfl
      | true =>
        have few := places point
        rw [List.length_cons] at few
        exact beq_false_of_ne (by omega)
    have pushed : (s.push digit).after n r.length = s.after n (r.length + 1) := by
      cases point : s.point with
      | false => simp [after, push, point]
      | true =>
        simp [after, push, point]
        omega
    have later : (s.push digit).finish (r ++ rest) = ((s.push digit).after n r.length).finish rest := by
      apply ih further
      intro point
      have few := places point
      have one : (s.push digit).scale = s.scale + 1 := if_pos point
      rw [List.length_cons] at few
      omega
    simp only [List.cons_append, finish, free, value, Bool.false_eq_true, if_false]
    rw [if_pos (by omega), later, pushed, List.length_cons]

/-- Reading digits ends with the number they denote if a decimal can hold it. -/
theorem Reading.finish_digits {s : Reading} (read : readDigits? s.mantissa cs = some n)
    (fits : n < 0x1000000000000000000000000) (point : s.point = false) (begun : s.started = true ∨ cs ≠ []) :
    s.finish cs = some (n, s.scale) := by
  have read : s.finish (cs ++ []) = (s.after n cs.length).finish [] :=
    finish_append read fits fun behind => absurd behind (by rw [point]; decide)
  have started : (s.started || cs.length != 0) = true := by
    rcases begun with begun | some
    · rw [begun, Bool.true_or]
    · simp [some]
  rw [List.append_nil] at read
  simp [read, finish, after, point, started]

theorem digitValue?_of_exponentMark {c : Char} (h : isExponentMark c = true) : digitValue? c = none := by
  rcases Bool.or_eq_true_iff.1 h with mark | mark
  · rw [eq_of_beq mark]
    decide
  · rw [eq_of_beq mark]
    decide

theorem ofChars?_plain (plain : ∀ c ∈ cs, isExponentMark c = false) : ofChars? cs = ofPlainChars? cs := by
  have none : cs.dropWhile (!isExponentMark ·) = [] := by
    apply List.dropWhile_eq_nil_iff.2
    intro c hc
    rw [plain c hc]
    rfl
  rw [ofChars?, none]

/-- What is left of a reading without an exponent once the sign has been taken off. -/
def ofUnsigned? (negative : Bool) (cs : List Char) : Option Decimal :=
  (Reading.start.finish cs).bind fun (m, scale) => ofParts? (negative && m != 0) m scale

theorem ofUnsigned?_digits (h : readNat? cs = some n) (fits : n < 0x1000000000000000000000000) (negative : Bool) :
    ∃ d, ofUnsigned? negative cs = some d ∧ d.scale = 0 ∧ d.unscaled = if negative then -(n : Int) else n := by
  obtain ⟨nonempty, read⟩ := Text.readNat?_eq_some h
  have finished : Reading.start.finish cs = some (n, 0) :=
    Reading.finish_digits (s := .start) read fits rfl (.inr nonempty)
  refine ⟨⟨negative && n != 0, n, 0, fits, by decide⟩, ?_, rfl, ?_⟩
  · rw [ofUnsigned?, finished]
    exact dif_pos ⟨fits, by decide⟩
  · by_cases zero : n = 0 <;> cases negative <;> simp [unscaled, zero]

theorem ofPlainChars?_unsigned (unsigned : ∀ c, cs.head? = some c → c ≠ '-' ∧ c ≠ '+') :
    ofPlainChars? cs = ofUnsigned? false cs := by
  unfold ofPlainChars?
  split
  next negative body split =>
  split at split
  · exact absurd rfl (unsigned '-' rfl).1
  · exact absurd rfl (unsigned '+' rfl).2
  · cases split
    rfl

/-- Digits are read as they are, since none of them is a sign. -/
theorem ofPlainChars?_digits (h : readNat? cs = some n) : ofPlainChars? cs = ofUnsigned? false cs := by
  apply ofPlainChars?_unsigned
  intro c first
  obtain ⟨k, value⟩ := Text.digits_of_readDigits? (Text.readNat?_eq_some h).2 c (List.mem_of_mem_head? first)
  constructor
  · rintro rfl
    cases value
  · rintro rfl
    cases value

/-- A whole number in text is a decimal without places behind the point. -/
theorem ofChars?_of_readSigned? {z : Int} (h : readSigned? cs = some z)
    (fits : z.natAbs < 0x1000000000000000000000000) :
    ∃ d, ofChars? cs = some d ∧ d.scale = 0 ∧ d.unscaled = z := by
  obtain ⟨negative, body, k, read, rfl, signs⟩ := Text.readSigned?_eq_some h
  have size : k < 0x1000000000000000000000000 := by
    split at fits
    · rwa [Int.natAbs_neg, Int.natAbs_natCast] at fits
    · rwa [Int.natAbs_natCast] at fits
  have plain : ∀ c ∈ body, isExponentMark c = false := by
    intro c hc
    obtain ⟨digit, value⟩ := Text.digits_of_readDigits? (Text.readNat?_eq_some read).2 c hc
    apply Bool.eq_false_iff.2
    intro mark
    rw [digitValue?_of_exponentMark mark] at value
    cases value
  have unsigned : ofChars? cs = ofUnsigned? negative body := by
    rcases signs with ⟨rfl, rfl⟩ | ⟨rfl, rfl | rfl⟩
    · exact ofChars?_plain (List.forall_mem_cons.2 ⟨by decide, plain⟩)
    · exact ofChars?_plain (List.forall_mem_cons.2 ⟨by decide, plain⟩)
    · exact (ofChars?_plain plain).trans (ofPlainChars?_digits read)
  rw [unsigned]
  exact ofUnsigned?_digits read size negative

/-- A text denotes a decimal that it is read as, and one of the value of a whole number that it is read as. -/
def DenotedBy (d : Decimal) (s : String) : Prop :=
  ofChars? (Text.trim s.toList) = some d ∨
    ∃ n, readSignedWithin? 0x8000000000000000 (Text.trim s.toList) = some n ∧ d.units = n * Nat.pow 10 28

theorem readSignedWithin?_eq_some {n : Int} (h : readSignedWithin? 0x8000000000000000 cs = some n) :
    readSigned? cs = some n ∧ -0x8000000000000000 ≤ n ∧ n < 0x8000000000000000 := by
  obtain ⟨read, within⟩ := Option.filter_eq_some_iff.1 h
  obtain ⟨least, below⟩ := Bool.and_eq_true_iff.1 within
  exact ⟨read, of_decide_eq_true least, of_decide_eq_true below⟩

/-- The two ways to read a text do not differ. -/
theorem DenotedBy.read {d : Decimal} {s : String} (h : d.DenotedBy s) :
    ∃ e, ofChars? (Text.trim s.toList) = some e ∧ e.units = d.units := by
  rcases h with read | ⟨n, read, value⟩
  · exact ⟨d, read, rfl⟩
  · obtain ⟨signed, _, _⟩ := readSignedWithin?_eq_some read
    obtain ⟨e, plain, scale, whole⟩ := ofChars?_of_readSigned? signed (by omega)
    exact ⟨e, plain, (units_of_whole scale whole).trans value.symm⟩

/-- One decimal rounds to the other at the places that the other has. -/
def RoundsTo (d y : Decimal) : Prop := RoundsAway (Nat.pow 10 (28 - y.scale)) d.units y.units

end Decimal

namespace Value

open Decimal

variable {v w x : Value} {s : String} {d y : Decimal} {t : DataType}

/-- Text that becomes a whole number is rounded to it. -/
theorem roundsAway_wholeOfText {n : Int64} (read : ofChars? (Text.trim s.toList) = some d)
    (h : wholeOfText t s = .ok n) : RoundsAway (Nat.pow 10 28) d.units (Decimal.ofInt64 n).units := by
  have rounded := d.roundsAway_roundAway 0
  simp only [wholeOfText, read] at h
  split at h
  · next n whole =>
    cases h
    obtain ⟨signed, least, below⟩ := readSignedWithin?_eq_some whole
    obtain ⟨e, plain, scale, value⟩ := ofChars?_of_readSigned? signed (by omega)
    cases read.symm.trans plain
    rw [units_ofInt64, Int64.toInt_ofInt_of_le least below, units_of_whole scale value]
    exact RoundsAway.self (pow_pos_ten 28) (Int.dvd_mul_left _ _)
  · simp only [wholeOfDecimal] at h
    split at h
    · next whole =>
      cases h
      have scale : (d.roundAway 0).scale = 0 := Nat.le_zero.1 (d.scale_roundAway_le 0)
      rw [units_ofInt64, ← units_of_whole scale (toInt64?_eq_some scale whole)]
      exact rounded
    · cases h

theorem isNull_of_isCharacter (text : v.isCharacter = true) : v.isNull = false := by
  cases v with
  | null => cases text
  | _ => rfl

theorem toWhole_text (text : v.isCharacter = true) (content : v.string? = some s) :
    v.toWhole t = wholeOfText t s := by
  cases v with
  | char _ | varchar _ | clob _ =>
    cases content
    rfl
  | _ => cases text

theorem toExact_text (text : v.isCharacter = true) (content : v.string? = some s) :
    v.toExact t = orMalformed .decimal s (ofChars? (Text.trim s.toList)) := by
  cases v with
  | char _ | varchar _ | clob _ =>
    cases content
    rfl
  | _ => cases text

/-- A conversion to one of the whole types gives the whole number that was found. -/
theorem toWhole_of_convertPresent (integral : t ∈ [DataType.smallint, .integer, .bigint])
    (h : v.convertPresent t = .ok w) : ∃ n, v.toWhole t = .ok n ∧ w.toDecimal? = some (.ofInt64 n) := by
  cases t with
  | smallint =>
    obtain ⟨n, whole, fits⟩ := bind_eq_ok.1 h
    simp only [] at fits
    split at fits
    · next inside =>
      cases fits
      have same : (Int16.ofInt n.toInt).toInt64 = n := by
        apply Int64.toInt_inj.1
        rw [Int16.toInt_toInt64, Int16.toInt_ofInt_of_le inside.1 inside.2]
      exact ⟨n, whole, congrArg (some ∘ Decimal.ofInt64) same⟩
    · cases fits
  | integer =>
    obtain ⟨n, whole, fits⟩ := bind_eq_ok.1 h
    simp only [] at fits
    split at fits
    · next inside =>
      cases fits
      have same : (Int32.ofInt n.toInt).toInt64 = n := by
        apply Int64.toInt_inj.1
        rw [Int32.toInt_toInt64, Int32.toInt_ofInt_of_le inside.1 inside.2]
      exact ⟨n, whole, congrArg (some ∘ Decimal.ofInt64) same⟩
    · cases fits
  | bigint =>
    obtain ⟨n, whole, rfl⟩ := map_eq_ok.1 h
    exact ⟨n, whole, rfl⟩
  | _ => simp at integral

/-- Text that is brought to the type of an exact number is rounded to the places that this one has. -/
theorem roundsAway_convert (text : v.isCharacter = true) (content : v.string? = some s)
    (read : ofChars? (Text.trim s.toList) = some d) (exact : x.toDecimal? = some y)
    (h : v.convert x.type = .ok w) :
    ∃ e, w.toDecimal? = some e ∧ RoundsAway (Nat.pow 10 (28 - y.scale)) d.units e.units := by
  rw [convert_of_present (isNull_of_isCharacter text)] at h
  have whole {n : Int64} (y : Decimal) (scale : y.scale = 0) (number : v.toWhole x.type = .ok n) :
      RoundsAway (Nat.pow 10 (28 - y.scale)) d.units (Decimal.ofInt64 n).units := by
    rw [toWhole_text text content] at number
    rw [scale]
    exact roundsAway_wholeOfText read number
  cases x with
  | smallint _ | integer _ | bigint _ =>
    cases exact
    obtain ⟨k, number, value⟩ := toWhole_of_convertPresent (by simp [type]) h
    exact ⟨_, value, whole _ rfl number⟩
  | decimal y =>
    cases exact
    obtain ⟨e, number, fits⟩ := bind_eq_ok.1 h
    obtain ⟨f, scaled, rfl⟩ := map_eq_ok.1 fits
    rw [toExact_text text content, read] at number
    cases number
    obtain ⟨rfl, _⟩ := fitDecimal_eq_ok.1 scaled
    refine ⟨_, rfl, ?_⟩
    simp only [atScale, rescale, units_appendZeros]
    exact d.roundsAway_roundAway y.scale
  | _ => cases exact

section comparison

variable (c : Collation) {op : BinaryOp} {r : Value}

/-- Text that denotes a number compares with an exact number as the two numbers do by their values, with one
exception: a number that rounds to the other one at its places behind the point, half away from zero, counts as
equal to it. So it is these numbers that are equal to it, and no others. -/
theorem compareBy_numericText (text : v.isCharacter = true) (content : v.string? = some s)
    (denoted : d.DenotedBy s) (exact : x.toDecimal? = some y) (h : compareBy c.compare op v x = .ok r) :
    ∃ answer, r = .boolean answer ∧
      (¬ d.RoundsTo y → op.accepts? (compare d.units y.units) = some answer) ∧
      (d.RoundsTo y → op.accepts? .eq = some answer) ∧
      (op = .equal → (answer = true ↔ d.RoundsTo y)) := by
  obtain ⟨d', read, same⟩ := denoted.read
  have isSome : x.toDecimal?.isSome = true := by rw [exact]; rfl
  have hx : x.isNull = false := by
    cases x with
    | null => cases exact
    | _ => rfl
  obtain ⟨o, answer, ordered, accepts, rfl⟩ := order_of_compareBy (isNull_of_isCharacter text) hx h
  simp only [orderBy, text, isCharacter_of_exact isSome] at ordered
  obtain ⟨w, converted, order⟩ := bind_eq_ok.1 ordered
  obtain ⟨e, number, rounded⟩ := roundsAway_convert text content read exact (mapError_eq_ok.1 converted)
  cases order
  rw [c.compare_decimals number exact, compare_eq_units] at accepts
  rw [same] at rounded
  -- the text was rounded to the other number, or to a number on the same side of that
  have reached (reaches : d.RoundsTo y) : compare e.units y.units = .eq :=
    Int.compare_eq_eq.2 (rounded.unique (pow_pos_ten _) reaches)
  have passed (misses : ¬ d.RoundsTo y) : compare e.units y.units = compare d.units y.units := by
    apply rounded.compare_multiple (dvd_units (Nat.le_refl _))
    intro equal
    rw [equal] at rounded
    exact misses rounded
  refine ⟨answer, rfl, fun misses => ?_, fun reaches => ?_, ?_⟩
  · rw [← passed misses]
    exact accepts
  · rw [← reached reaches]
    exact accepts
  · rintro rfl
    have equals : (compare e.units y.units == .eq) = answer := Option.some.inj accepts
    rw [← equals, beq_iff_eq]
    constructor
    · intro equal
      rw [Int.compare_eq_eq.1 equal] at rounded
      exact rounded
    · exact reached

end comparison

/-- A text with white space around it is less than a greater number. -/
theorem compareBy_numericText_nine :
    let nine := Decimal.ofInt 9 (by decide)
    let ten := Decimal.ofInt64 10
    compareBy (Collation.compare {}) .less (.varchar " 9\t") (.bigint 10) = .ok (.boolean true) ∧
      ¬ nine.RoundsTo ten ∧ BinaryOp.less.accepts? (compare nine.units ten.units) = some true := by
  intro nine ten
  have less : compareBy (Collation.compare {}) .less (.varchar " 9\t") (.bigint 10) = .ok (.boolean true) := by
    with_unfolding_all rfl
  have denoted : nine.DenotedBy " 9\t" := .inl (by with_unfolding_all rfl)
  have apart : ¬ nine.RoundsTo ten := fun h => absurd h.near (by decide)
  obtain ⟨answer, decided, byValue, _⟩ := compareBy_numericText {} rfl rfl denoted rfl less
  cases decided
  exact ⟨less, apart, byValue apart⟩

/-- Not all comparisons of text with exact numbers are those of the numbers: two and a half in text is equal to
three. -/
theorem compareBy_numericText_rounds :
    ¬ ∀ (op : BinaryOp) (v x r : Value) (s : String) (d y : Decimal), v.isCharacter = true → v.string? = some s →
      d.DenotedBy s → x.toDecimal? = some y → compareBy (Collation.compare {}) op v x = .ok r →
      (op.accepts? (compare d.units y.units)).map .boolean = some r := by
  intro byValue
  let half : Decimal := ⟨false, 25, 1, by decide, by decide⟩
  have denoted : half.DenotedBy "2.5" := .inl (by with_unfolding_all rfl)
  have equal : compareBy (Collation.compare {}) .equal (.varchar "2.5") (.integer 3) = .ok (.boolean true) := by
    with_unfolding_all rfl
  have wrong := byValue .equal (.varchar "2.5") (.integer 3) _ "2.5" half _ rfl rfl denoted rfl equal
  have less : compare half.units (Decimal.ofInt64 3).units = .lt := by decide
  rw [show (3 : Int32).toInt64 = 3 by decide, less] at wrong
  cases wrong

end Value

end SqlEngine
