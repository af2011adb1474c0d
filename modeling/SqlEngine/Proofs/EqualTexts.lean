import SqlEngine.Proofs.AlikeValues

/-!
# Equal values of one text

Equality takes decimals by their value, whatever their scale, and both floating-point zeros are equal. Their
texts show the scale and the sign, so that equal values which have the same text are alike.
-/

namespace SqlEngine

namespace Text

/-- The characters that finite numbers are written with. -/
def IsNumeral (c : Char) : Prop := c = '-' ∨ c = '.' ∨ ∃ n < 10, c = digitChar n

theorem digitChar_ne {c : Char} (apart : ∀ m : Fin 10, digitChar m.val ≠ c) {n : Nat} (small : n < 10) :
    digitChar n ≠ c :=
  apart ⟨n, small⟩

theorem not_isNumeral {c : Char} (sign : c ≠ '-') (point : c ≠ '.')
    (apart : ∀ m : Fin 10, digitChar m.val ≠ c) : ¬ IsNumeral c := by
  rintro (minus | dot | ⟨n, small, rfl⟩)
  · exact sign minus
  · exact point dot
  · exact digitChar_ne apart small rfl

/-- Decimal digits and nothing else. -/
def Digits (cs : List Char) : Prop := ∀ c ∈ cs, ∃ m < 10, c = digitChar m

theorem digits_natDigits (n : Nat) : Digits (natDigits n) := by
  fun_induction natDigits n with
  | case1 n small =>
    intro c hc
    exact ⟨n, small, List.mem_singleton.1 hc⟩
  | case2 n _ ih =>
    intro c hc
    rcases List.mem_append.1 hc with hc | hc
    · exact ih c hc
    · exact ⟨n % 10, Nat.mod_lt n (by decide), List.mem_singleton.1 hc⟩

theorem digits_padLeft (width n : Nat) : Digits (padLeft '0' width (natDigits n)) := by
  intro c hc
  rcases List.mem_append.1 hc with zero | digit
  · exact ⟨0, by decide, (List.mem_replicate.1 zero).2⟩
  · exact digits_natDigits n c digit

theorem Digits.not_mem {c : Char} {cs : List Char} (h : Digits cs) (apart : ∀ m : Fin 10, digitChar m.val ≠ c) :
    c ∉ cs := by
  intro mem
  obtain ⟨m, small, same⟩ := h c mem
  exact digitChar_ne apart small same.symm

/-- Zeros in front do not change the number. -/
theorem readNat?_padLeft (width n : Nat) : readNat? (padLeft '0' width (natDigits n)) = some n := by
  have whole : readDigits? 0 (padLeft '0' width (natDigits n)) = some n := by
    rw [padLeft, readDigits?_append, readDigits?_zeros, Nat.zero_mul]
    exact readDigits?_natDigits n
  cases digits : padLeft '0' width (natDigits n) with
  | nil => exact absurd (List.append_eq_nil_iff.1 digits).2 (natDigits_ne_nil n)
  | cons c r =>
    rw [digits] at whole
    exact whole

/-- What stands in front of the first character of another kind is determined. -/
theorem front_unique {p : Char → Prop} {xs ys as bs : List Char} (hx : ∀ c ∈ xs, p c) (hy : ∀ c ∈ ys, p c)
    (ha : ∀ c, as.head? = some c → ¬ p c) (hb : ∀ c, bs.head? = some c → ¬ p c)
    (same : xs ++ as = ys ++ bs) : xs = ys ∧ as = bs := by
  induction xs generalizing ys with
  | nil =>
    cases ys with
    | nil => exact ⟨rfl, same⟩
    | cons y s =>
      rw [List.nil_append] at same
      exact absurd (hy y List.mem_cons_self) (ha y (by rw [same]; rfl))
  | cons x r ih =>
    cases ys with
    | nil =>
      rw [List.nil_append] at same
      exact absurd (hx x List.mem_cons_self) (hb x (by rw [← same]; rfl))
    | cons y s =>
      obtain ⟨rfl, rest⟩ := List.cons_eq_cons.1 same
      obtain ⟨rfl, tails⟩ := ih (fun c hc => hx c (List.mem_cons_of_mem x hc))
        (fun c hc => hy c (List.mem_cons_of_mem x hc)) rest
      exact ⟨rfl, tails⟩

end Text

namespace Decimal

/-- All digits, with as many zeros in front as the point needs. -/
def digits (d : Decimal) : List Char := Text.padLeft '0' (d.scale + 1) (Text.natDigits d.mantissa)

def whole (d : Decimal) : List Char := d.digits.take (d.digits.length - d.scale)

def fraction (d : Decimal) : List Char := d.digits.drop (d.digits.length - d.scale)

/-- The text without its sign. -/
def body (d : Decimal) : List Char := if d.scale = 0 then d.whole else d.whole ++ '.' :: d.fraction

theorem chars_eq (d : Decimal) : d.chars = if d.negative then '-' :: d.body else d.body := rfl

theorem digit_of_digits (d : Decimal) : Text.Digits d.digits := Text.digits_padLeft _ _

theorem scale_lt_length (d : Decimal) : d.scale < d.digits.length := by
  rw [digits, Text.length_padLeft]
  omega

theorem whole_append_fraction (d : Decimal) : d.whole ++ d.fraction = d.digits :=
  List.take_append_drop ..

theorem length_fraction (d : Decimal) : d.fraction.length = d.scale := by
  have shorter := d.scale_lt_length
  rw [fraction, List.length_drop]
  omega

theorem point_not_mem_whole (d : Decimal) : '.' ∉ d.whole := by
  intro mem
  exact d.digit_of_digits.not_mem (by decide) (List.mem_of_mem_take mem)

/-- The text starts with a digit behind its sign. -/
theorem body_eq_cons (d : Decimal) : ∃ c r, d.body = c :: r ∧ c ≠ '-' := by
  have first : ∃ c r, d.whole = c :: r ∧ c ≠ '-' := by
    cases split : d.whole with
    | nil =>
      have none := congrArg List.length split
      have shorter := d.scale_lt_length
      rw [whole, List.length_take, List.length_nil] at none
      omega
    | cons c r =>
      have mem : c ∈ d.whole := split ▸ List.mem_cons_self
      obtain ⟨n, small, rfl⟩ := d.digit_of_digits c (List.mem_of_mem_take mem)
      exact ⟨_, r, rfl, Text.digitChar_ne (by decide) small⟩
  obtain ⟨c, r, split, notSign⟩ := first
  unfold body
  split
  · exact ⟨c, r, split, notSign⟩
  · exact ⟨c, r ++ '.' :: d.fraction, by rw [split, List.cons_append], notSign⟩

theorem ofParts?_self (d : Decimal) : ofParts? d.negative d.mantissa d.scale = some d :=
  dif_pos ⟨d.mantissa_lt, d.scale_le⟩

/-- The parts are read off the text without its sign. -/
theorem read_body (d : Decimal) :
    (match Text.splitOnce? '.' d.body with
      | none => do ofParts? d.negative (← Text.readNat? d.body) 0
      | some (whole, fraction) => do
        ofParts? d.negative (← Text.readNat? (whole ++ fraction)) fraction.length) = some d := by
  have number : Text.readNat? d.digits = some d.mantissa := Text.readNat?_padLeft ..
  by_cases flat : d.scale = 0
  · have all : d.body = d.whole := if_pos flat
    have wholeDigits : d.whole = d.digits := by
      have none : d.fraction = [] := List.length_eq_zero_iff.1 (d.length_fraction.trans flat)
      rw [← d.whole_append_fraction, none, List.append_nil]
    rw [all, Text.splitOnce?_eq_none_iff.2 d.point_not_mem_whole, wholeDigits, number]
    have parts := d.ofParts?_self
    rw [flat] at parts
    exact parts
  · have all : d.body = d.whole ++ '.' :: d.fraction := if_neg flat
    have cut : Text.splitOnce? '.' d.body = some (d.whole, d.fraction) :=
      Text.splitOnce?_eq_some_iff.2 ⟨all, d.point_not_mem_whole⟩
    rw [cut]
    simp only [whole_append_fraction, number, length_fraction]
    exact d.ofParts?_self

/-- What is written is read back, scale and sign included. -/
theorem ofExactText?_text (d : Decimal) : ofExactText? d.text = some d := by
  have read := d.read_body
  have chars := d.chars_eq
  unfold ofExactText? text
  rw [String.toList_ofList, chars]
  cases sign : d.negative with
  | true =>
    rw [sign] at read
    exact read
  | false =>
    obtain ⟨c, r, split, notSign⟩ := d.body_eq_cons
    rw [sign, split] at read
    have unsigned : ∀ r', c :: r = '-' :: r' → False := fun r' same => notSign (List.cons_eq_cons.1 same).1
    simp only [Bool.false_eq_true, if_false, split]
    exact read

theorem chars_injective {d e : Decimal} (same : d.chars = e.chars) : d = e := by
  have texts : d.text = e.text := congrArg String.ofList same
  have both := congrArg ofExactText? texts
  rw [ofExactText?_text, ofExactText?_text] at both
  exact Option.some.inj both

theorem isNumeral_of_chars (d : Decimal) : ∀ c ∈ d.chars, Text.IsNumeral c := by
  have inBody : ∀ c ∈ d.body, Text.IsNumeral c := by
    intro c hc
    unfold body at hc
    split at hc
    · exact .inr (.inr (d.digit_of_digits c (List.mem_of_mem_take hc)))
    · rcases List.mem_append.1 hc with digit | behind
      · exact .inr (.inr (d.digit_of_digits c (List.mem_of_mem_take digit)))
      · rcases List.mem_cons.1 behind with point | digit
        · exact .inr (.inl point)
        · exact .inr (.inr (d.digit_of_digits c (List.mem_of_mem_drop digit)))
  intro c hc
  rw [chars_eq] at hc
  split at hc
  · rcases List.mem_cons.1 hc with sign | rest
    · exact .inl sign
    · exact inBody c rest
  · exact inBody c hc

end Decimal

namespace Binary

variable {F : BinaryFormat} {x y : Binary F}

/-- Equal numbers are one, but for the sign of zero. -/
theorem eq_or_zeros (same : x.eq y = true) :
    x = y ∨ x.magnitude = 0 ∧ y.magnitude = 0 ∧ x.negative = !y.negative := by
  have ranks : x.rank = y.rank := by
    simp only [eq, Bool.and_eq_true, beq_iff_eq] at same
    exact same.2
  obtain ⟨s, m, _⟩ := x
  obtain ⟨t, n, _⟩ := y
  cases s <;> cases t <;> simp [rank] at ranks ⊢ <;> omega

/-- The zeros are told apart by their sign. -/
theorem chars_zero (positive : 0 < F.infinity) (zero : x.magnitude = 0) :
    x.chars = if x.negative then ['-', '0'] else ['0'] := by
  have digit : Text.natDigits 0 = ['0'] := by
    rw [Text.natDigits]
    rfl
  have number : x.isNaN = false := by
    rw [isNaN, zero]
    exact decide_eq_false (by omega)
  have finite : x.isInfinite = false := by
    rw [isInfinite, zero]
    exact beq_false_of_ne (by omega)
  have short : x.shortest .up = ⟨0, 0⟩ := by
    rw [shortest, isZero, zero]
    rfl
  simp [chars, number, finite, short, Digits.positional, digit]

/-- Equal numbers of which the same text comes first are one, and the same text follows. -/
theorem eq_of_chars_append (positive : 0 < F.infinity) {s t : List Char} (same : x.eq y = true)
    (texts : x.chars ++ s = y.chars ++ t) : x = y ∧ s = t := by
  rcases eq_or_zeros same with rfl | ⟨zero, zero', signs⟩
  · exact ⟨rfl, List.append_cancel_left texts⟩
  · rw [chars_zero positive zero, chars_zero positive zero', signs] at texts
    cases negative : y.negative <;> simp [negative] at texts

end Binary

namespace Value

/-- Two values that equality takes for one: they are one, or of a kind where equality is looser. -/
inductive SameCases : Value → Value → Prop
  | one (v : Value) : SameCases v v
  | decimals {x y : Decimal} (same : x.sameValue y = true) : SameCases (decimal x) (decimal y)
  | reals {x y : Binary32} (same : x.eq y = true) : SameCases (real x) (real y)
  | doubles {x y : Binary64} (same : x.eq y = true) : SameCases (double x) (double y)
  | arrays {xs ys : List Value} (same : sameItems xs ys = true) : SameCases (array xs) (array ys)
  | resultSets {c d : List ResultColumn} {xs ys : List (List Value)} (rows : xs.length = ys.length) :
      SameCases (resultSet c xs) (resultSet d ys)

theorem length_eq_of_sameRows : ∀ {xs ys : List (List Value)}, sameRows xs ys = true → xs.length = ys.length
  | [], [], _ => rfl
  | _ :: _, _ :: _, same => congrArg (· + 1) (length_eq_of_sameRows (Bool.and_eq_true_iff.1 same).2)
  | [], _ :: _, same | _ :: _, [], same => nomatch same

theorem sameCases {v w : Value} (same : v.same w = true) : SameCases v w := by
  cases v with
  | decimal x =>
    cases w with
    | decimal y => exact .decimals same
    | _ => cases same
  | real x =>
    cases w with
    | real y => exact .reals same
    | _ => cases same
  | double x =>
    cases w with
    | double y => exact .doubles same
    | _ => cases same
  | array xs =>
    cases w with
    | array ys => exact .arrays same
    | _ => cases same
  | resultSet c xs =>
    cases w with
    | resultSet d ys => exact .resultSets (length_eq_of_sameRows (Bool.and_eq_true_iff.1 same).2)
    | _ => cases same
  | _ => cases w <;> first | cases same; done | cases eq_of_beq same; exact .one _ | exact .one _

/-- What follows an item in the text of an array, up to the bracket. -/
def restText (vs : List Value) : List Char := vs.flatMap fun v => ',' :: ' ' :: v.text.toList

theorem intercalate_texts (v : Value) (r : List Value) :
    (String.intercalate ", " (texts (v :: r))).toList = v.text.toList ++ restText r := by
  induction r generalizing v with
  | nil => simp [texts, restText]
  | cons w s ih =>
    have tail := ih w
    simp only [texts] at tail ⊢
    rw [String.intercalate_cons_cons, String.toList_append, tail]
    simp [restText]

/-- What cannot go on a number. -/
def Closed (s : List Char) : Prop := ∀ c, s.head? = some c → ¬ Text.IsNumeral c

theorem closed_rest (vs : List Value) (s : List Char) : Closed (restText vs ++ ']' :: s) := by
  intro c head
  cases vs with
  | nil =>
    cases head
    exact Text.not_isNumeral (by decide) (by decide) (by decide)
  | cons v r =>
    cases head
    exact Text.not_isNumeral (by decide) (by decide) (by decide)

/-- Whatever comes behind it that cannot go on a number, the text of the value shows where it ends, and it
tells the value from all equal ones that are not alike. -/
def Readable (v : Value) : Prop :=
  ∀ {w : Value} {s t : List Char}, v.same w = true → Closed s → Closed t →
    v.text.toList ++ s = w.text.toList ++ t → v.Alike w ∧ s = t

def ReadableItems (vs : List Value) : Prop :=
  ∀ {ws : List Value} {s t : List Char}, sameItems vs ws = true →
    restText vs ++ ']' :: s = restText ws ++ ']' :: t → AlikeItems vs ws ∧ s = t

theorem readable_of_not_array {v : Value} (notArray : ∀ xs, v ≠ array xs) : Readable v := by
  intro w s t same hs ht texts
  cases sameCases same with
  | one => exact ⟨.refl _, List.append_cancel_left texts⟩
  | arrays => exact absurd rfl (notArray _)
  | @resultSets c d xs ys rows =>
    have like : (resultSet c xs).Alike (resultSet d ys) := rows
    rw [like.text] at texts
    exact ⟨like, List.append_cancel_left texts⟩
  | @decimals x y same =>
    simp only [text, Decimal.text, String.toList_ofList] at texts
    obtain ⟨chars, ends⟩ := Text.front_unique x.isNumeral_of_chars y.isNumeral_of_chars hs ht texts
    obtain rfl := Decimal.chars_injective chars
    exact ⟨.refl _, ends⟩
  | reals same =>
    simp only [text, Binary.text, String.toList_ofList] at texts
    obtain ⟨rfl, ends⟩ := Binary.eq_of_chars_append (by decide) same texts
    exact ⟨.refl _, ends⟩
  | doubles same =>
    simp only [text, Binary.text, String.toList_ofList] at texts
    obtain ⟨rfl, ends⟩ := Binary.eq_of_chars_append (by decide) same texts
    exact ⟨.refl _, ends⟩

theorem readableItems_nil : ReadableItems [] := by
  intro ws s t same texts
  cases ws with
  | nil => exact ⟨trivial, (List.cons_eq_cons.1 texts).2⟩
  | cons => cases same

theorem ReadableItems.cons {v : Value} {r : List Value} (first : Readable v) (rest : ReadableItems r) :
    ReadableItems (v :: r) := by
  intro ws s t same texts
  cases ws with
  | nil => cases same
  | cons w q =>
    obtain ⟨one, others⟩ := Bool.and_eq_true_iff.1 same
    simp only [restText, List.flatMap_cons, List.cons_append, List.append_assoc, List.cons.injEq,
      true_and] at texts
    obtain ⟨like, tails⟩ := first one (closed_rest r s) (closed_rest q t) texts
    obtain ⟨likes, ends⟩ := rest others tails
    exact ⟨⟨like, likes⟩, ends⟩

/-- The bracket in front of the first item stands for the comma in front of the other ones. -/
theorem readable_array {xs : List Value} (items : ReadableItems xs) : Readable (array xs) := by
  intro w s t same _ _ texts
  have inside (zs : List Value) : (array zs).text.toList =
      '[' :: (String.intercalate ", " (Value.texts zs)).toList ++ [']'] := by
    rw [text, String.toList_append, String.toList_append]
    rfl
  cases sameCases same with
  | one => exact ⟨.refl _, List.append_cancel_left texts⟩
  | @arrays _ ys same =>
    rw [inside, inside] at texts
    have commas : restText xs ++ ']' :: s = restText ys ++ ']' :: t := by
      cases xs with
      | nil =>
        cases ys with
        | nil => exact congrArg (List.cons ']') (List.append_cancel_left texts)
        | cons => cases same
      | cons x r =>
        cases ys with
        | nil => cases same
        | cons y q =>
          rw [intercalate_texts, intercalate_texts] at texts
          simp only [List.cons_append, List.append_assoc, List.nil_append, List.cons.injEq, true_and] at texts
          simp only [restText, List.flatMap_cons, List.cons_append, List.append_assoc]
          exact congrArg (fun cs => ',' :: ' ' :: cs) texts
    exact items same commas

mutual

theorem readable : ∀ v : Value, Readable v
  | array xs => readable_array (readableItems xs)
  | null | boolean _ | smallint _ | integer _ | bigint _ | decimal _ | real _ | double _ | char _ | varchar _
  | clob _ | varbinary _ | blob _ | date _ | time _ | timestamp _ | xml _ | resultSet _ _ | object _ => by
    refine readable_of_not_array ?_
    intro xs same
    cases same

theorem readableItems : ∀ vs : List Value, ReadableItems vs
  | [] => readableItems_nil
  | v :: r => ReadableItems.cons (readable v) (readableItems r)

end

/-- Equal values with the same text are alike. -/
theorem alike_of_text {v w : Value} (same : v.same w = true) (texts : v.text = w.text) : v.Alike w := by
  have closed : Closed [] := fun c head => nomatch head
  exact (readable v same closed closed (by rw [texts])).1

end Value

end SqlEngine
