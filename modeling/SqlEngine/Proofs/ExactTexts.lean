import SqlEngine.Proofs.NumericTexts
import SqlEngine.Proofs.TimeTexts

/-!
# Values that text keeps

Truth values, exact numbers, texts and bytes are read back from their text, with the length that a `char` has and the
scale that a decimal has. The sign of a zero is all that gets lost on the way.
-/

namespace SqlEngine

namespace Text

theorem readSigned?_intDigits (n : Int) : readSigned? (intDigits n) = some n := by
  unfold intDigits
  split
  · next negative =>
    have number : readSigned? ('-' :: natDigits n.natAbs) = some (-(n.natAbs : Int)) := by
      rw [readSigned?, readNat?_natDigits]
      rfl
    rw [number]
    exact congrArg some (by omega)
  · next positive =>
    have number := readSigned?_padLeft 0 n.natAbs
    rw [padLeft, Nat.zero_sub, List.replicate_zero, List.nil_append] at number
    rw [number]
    exact congrArg some (by omega)

theorem isTemporal_intDigits (n : Int) : ∀ c ∈ intDigits n, IsTemporal c := by
  have digits := (digits_natDigits n.natAbs).isTemporal
  unfold intDigits
  split
  · exact List.forall_mem_cons.2 ⟨by decide, digits⟩
  · exact digits

theorem isBlank_encodeHex (bytes : List UInt8) : ∀ c ∈ encodeHex bytes, isBlank c = false := by
  have all : ∀ n : Fin 16, isBlank (hexDigit n.val) = false := by decide
  have digit {n : Nat} (small : n < 16) : isBlank (hexDigit n) = false := all ⟨n, small⟩
  intro c hc
  obtain ⟨b, _, inByte⟩ := List.mem_flatMap.1 hc
  have below := b.toNat_lt
  rcases List.mem_pair.1 inByte with rfl | rfl
  · exact digit (by omega)
  · exact digit (Nat.mod_lt _ (by decide))

/-- Bytes are read back from their text. -/
theorem decodeHex?_hexText (bytes : List UInt8) : decodeHex? (trim (hexText bytes).toList) = some bytes := by
  have trimmed : trim (encodeHex bytes) = encodeHex bytes :=
    trim_of_ends (fun c first => isBlank_encodeHex bytes c (List.mem_of_head? first))
      fun c last => isBlank_encodeHex bytes c (List.mem_of_getLast? last)
  rw [hexText, String.toList_ofList, trimmed, decodeHex?_encodeHex]

end Text

namespace Decimal

open Text (readDigits?)

/-- The digits in front of the point come to a number, and those behind it go on to the mantissa. -/
theorem finish_body (d : Decimal) : Reading.start.finish d.body = some (d.mantissa, d.scale) := by
  have all : readDigits? 0 d.digits = some d.mantissa := (Text.readNat?_eq_some (Text.readNat?_padLeft ..)).2
  have fits := d.mantissa_lt
  have few := d.scale_le
  have length := d.length_fraction
  by_cases flat : d.scale = 0
  · have nothing : d.fraction = [] := List.length_eq_zero_iff.1 (length.trans flat)
    have body : d.body = d.digits := by
      rw [← d.whole_append_fraction, nothing, List.append_nil, Decimal.body, if_pos flat]
    have some : d.digits ≠ [] := List.ne_nil_of_length_pos (Nat.zero_lt_of_lt d.scale_lt_length)
    have read := Reading.finish_digits (s := .start) all fits rfl (.inr some)
    rw [body, read, flat]
    rfl
  · have body : d.body = d.whole ++ '.' :: d.fraction := if_neg flat
    rw [← d.whole_append_fraction, Text.readDigits?_append] at all
    obtain ⟨n, front, behind⟩ := Option.bind_eq_some_iff.1 all
    have less := Text.le_readDigits? behind
    let s : Reading := ⟨n, 0, true, d.whole.length != 0⟩
    -- up to the point, over it, and on to the end
    have start : Reading.start.finish (d.whole ++ '.' :: d.fraction) =
        (Reading.start.after n d.whole.length).finish ('.' :: d.fraction) :=
      Reading.finish_append front (by omega) nofun
    have point : (Reading.start.after n d.whole.length).finish ('.' :: d.fraction) = s.finish d.fraction := by
      rw [Reading.finish]
      rfl
    have ends : s.finish (d.fraction ++ []) = (s.after d.mantissa d.fraction.length).finish [] := by
      refine Reading.finish_append behind fits fun _ => ?_
      change 0 + d.fraction.length ≤ 28
      omega
    rw [List.append_nil] at ends
    rw [body, start, point, ends]
    simp [Reading.finish, Reading.after, s, length, flat]

theorem isExponentMark_chars (d : Decimal) : ∀ c ∈ d.chars, isExponentMark c = false := by
  intro c hc
  apply Bool.eq_false_iff.2
  intro mark
  have numeral := d.isNumeral_of_chars c hc
  rcases Bool.or_eq_true_iff.1 mark with mark | mark
  · rw [eq_of_beq mark] at numeral
    exact Text.not_isNumeral (by decide) (by decide) (by decide) numeral
  · rw [eq_of_beq mark] at numeral
    exact Text.not_isNumeral (by decide) (by decide) (by decide) numeral

/-- A decimal is read off its text, and a zero without its sign. -/
theorem ofChars?_chars (d : Decimal) : ofChars? d.chars = some d.unsignedZero := by
  have parts (negative : Bool) (sign : d.negative = negative) : ofUnsigned? negative d.body = some d.unsignedZero := by
    rw [ofUnsigned?, d.finish_body, ← sign]
    exact dif_pos ⟨d.mantissa_lt, d.scale_le⟩
  rw [ofChars?_plain d.isExponentMark_chars]
  have written := d.chars_eq
  cases sign : d.negative with
  | true =>
    rw [sign, if_pos rfl] at written
    rw [written]
    exact parts true sign
  | false =>
    rw [sign, if_neg Bool.false_ne_true] at written
    have unsigned : ∀ c, d.body.head? = some c → c ≠ '-' ∧ c ≠ '+' := by
      intro c first
      obtain ⟨c', r, split, minus⟩ := d.body_eq_cons
      rw [split] at first
      cases first
      have numeral := d.isNumeral_of_chars c (by rw [written, split]; exact List.mem_cons_self)
      refine ⟨minus, ?_⟩
      rintro rfl
      exact Text.not_isNumeral (by decide) (by decide) (by decide) numeral
    rw [written, ofPlainChars?_unsigned unsigned]
    exact parts false sign

end Decimal

namespace Value

variable {v : Value}

/-- The values of which the text tells everything: truth values, exact numbers, texts and bytes. -/
def isExactScalar : Value → Bool
  | boolean _ | smallint _ | integer _ | bigint _ | decimal _ => true
  | char _ | varchar _ | clob _ | xml _ | varbinary _ | blob _ => true
  | _ => false

/-- The same value, but for the sign of a zero. -/
inductive SameButSignOfZero : Value → Value → Prop
  | same (v : Value) : SameButSignOfZero v v
  | zeros {d e : Decimal} (zero : d.mantissa = 0 ∧ e.mantissa = 0) (scale : d.scale = e.scale) :
      SameButSignOfZero (decimal d) (decimal e)

/-- Taking the sign off a zero leaves all else as it is. -/
theorem SameButSignOfZero.unsignedZero (d : Decimal) : SameButSignOfZero (decimal d) (decimal d.unsignedZero) := by
  by_cases zero : d.mantissa = 0
  · exact .zeros ⟨zero, zero⟩ rfl
  · have kept : (d.mantissa != 0) = true := bne_iff_ne.2 zero
    have same : d.unsignedZero = d := by simp only [Decimal.unsignedZero, kept, Bool.and_true]
    rw [same]
    exact .same _

/-- A whole number is read off its text. -/
theorem toWhole_intText (target : DataType) (n : Int64) :
    (varchar (Text.intText n.toInt)).toWhole target = .ok n := by
  have lower := n.le_toInt
  have upper := n.toInt_lt
  have trimmed : Text.trim (Text.intDigits n.toInt) = Text.intDigits n.toInt :=
    Text.trim_of_isTemporal (Text.isTemporal_intDigits n.toInt)
  have read : Text.readSignedWithin? 0x8000000000000000 (Text.intDigits n.toInt) = some n.toInt := by
    rw [Text.readSignedWithin?, Text.readSigned?_intDigits, Option.filter_some, if_pos]
    rw [Bool.and_eq_true, decide_eq_true_eq, decide_eq_true_eq]
    omega
  rw [toWhole_text rfl rfl]
  simp only [wholeOfText, Text.intText, String.toList_ofList, trimmed, read, Int64.ofInt_toInt]

/-- A decimal of any scale is read off its text. -/
theorem toExact_decimalText (target : DataType) (d : Decimal) :
    (varchar d.text).toExact target = .ok d.unsignedZero := by
  have trimmed : Text.trim d.chars = d.chars :=
    Text.trim_of_isTemporal fun c hc => .inr (d.isNumeral_of_chars c hc)
  rw [toExact_text rfl rfl, Decimal.text, String.toList_ofList, trimmed, Decimal.ofChars?_chars]
  rfl

theorem toBytes_hexText (target : DataType) (b : List UInt8) : (varchar (Text.hexText b)).toBytes target = .ok b := by
  change orMalformed .binary (Text.hexText b) (Text.decodeHex? (Text.trim (Text.hexText b).toList)) = .ok b
  rw [Text.decodeHex?_hexText]
  rfl

/-- A value of which text tells everything comes back from its text, but for the sign of a zero. -/
theorem text_reads_back (exact : v.isExactScalar = true) :
    v.convert .anyVarchar = .ok (varchar v.text) ∧
      ∃ w, (varchar v.text).convert v.type = .ok w ∧ SameButSignOfZero v w := by
  cases v with
  | boolean b => cases b <;> exact ⟨rfl, _, rfl, .same _⟩
  | smallint n =>
    have read : (varchar (smallint n).text).toWhole .smallint = .ok n.toInt64 := by
      rw [text, ← n.toInt_toInt64, toWhole_intText]
    exact ⟨rfl, _, convertPresent_smallint read, .same _⟩
  | integer n =>
    have read : (varchar (integer n).text).toWhole .integer = .ok n.toInt64 := by
      rw [text, ← n.toInt_toInt64, toWhole_intText]
    exact ⟨rfl, _, convertPresent_integer read, .same _⟩
  | bigint n =>
    have read : (varchar (bigint n).text).toWhole .bigint = .ok n := by rw [text, toWhole_intText]
    exact ⟨rfl, _, map_eq_ok.2 ⟨n, read, rfl⟩, .same _⟩
  | decimal d =>
    have read := toExact_decimalText (.decimal none (some d.scale)) d
    -- the scale is that of the number itself, so nothing is rounded or appended
    have fits : d.unsignedZero = atScale (some d.scale) d.unsignedZero := d.unsignedZero.rescale_scale.symm
    have kept : (varchar d.text).fitDecimal (.decimal none (some d.scale)) none (some d.scale) d.unsignedZero =
        .ok d.unsignedZero := fitDecimal_eq_ok.2 ⟨fits, nofun⟩
    exact ⟨rfl, _, bind_eq_ok.2 ⟨_, read, map_eq_ok.2 ⟨_, kept, rfl⟩⟩, .unsignedZero d⟩
  | char s => exact ⟨rfl, _, map_eq_ok.2 ⟨s, fitChar_fixed _ s, rfl⟩, .same _⟩
  | varchar s | clob s | xml s => exact ⟨rfl, _, rfl, .same _⟩
  | varbinary b | blob b => exact ⟨rfl, _, map_eq_ok.2 ⟨b, toBytes_hexText _ b, rfl⟩, .same _⟩
  | _ => cases exact

theorem text_reads_back_least :
    (bigint Int64.minValue).convert .anyVarchar = .ok (varchar "-9223372036854775808") ∧
      ∃ w, (varchar "-9223372036854775808").convert .bigint = .ok w ∧ SameButSignOfZero (bigint Int64.minValue) w := by
  have written : (bigint Int64.minValue).text = "-9223372036854775808" := by decide +kernel
  rw [← written]
  exact text_reads_back rfl

end Value

end SqlEngine
