import Mathlib.Data.Nat.Digits.Defs
import SqlEngine.Proofs.DateTexts
import SqlEngine.Proofs.NumericTexts

/-!
# The grammar of dates and times

Numbers in dates and times are read like any unsigned number, so that a plus sign may stand before their digits. What
is accepted is the grammar of digits extended by these signs, but for the dates of the least year.
-/

namespace SqlEngine

namespace Text

variable {c : Char} {cs : List Char} {n d : Nat} {plus : Bool}

/-- Decimal digits and the number that they denote, the last digit counting least. -/
def Denotes (cs : List Char) (n : Nat) : Prop :=
  ∃ ds : List Nat, (∀ d ∈ ds, d < 10) ∧ cs = ds.map digitChar ∧ n = Nat.ofDigits 10 ds.reverse

/-- A run of digits, and with `plus` also one behind a plus sign. -/
inductive Unsigned (plus : Bool) : List Char → Nat → Prop where
  | bare {cs : List Char} {n : Nat} : cs ≠ [] → Denotes cs n → Unsigned plus cs n
  | signed {cs : List Char} {n : Nat} : plus = true → cs ≠ [] → Denotes cs n → Unsigned plus ('+' :: cs) n

theorem digitValue?_eq_some_iff : digitValue? c = some d ↔ d < 10 ∧ c = digitChar d := by
  constructor
  · intro value
    unfold digitValue? at value
    split at value
    · next digit =>
      obtain ⟨low, high⟩ := Bool.and_eq_true_iff.1 digit
      have least : 48 ≤ c.toNat := of_decide_eq_true low
      have most : c.toNat ≤ 57 := of_decide_eq_true high
      cases value
      refine ⟨by omega, ?_⟩
      rw [digitChar, Nat.add_sub_cancel' least, Char.ofNat_toNat]
    · cases value
  · rintro ⟨small, rfl⟩
    exact digitValue?_digitChar small

theorem readDigits?_map (acc : Nat) {ds : List Nat} (digits : ∀ d ∈ ds, d < 10) :
    readDigits? acc (ds.map digitChar) = some (acc * 10 ^ ds.length + Nat.ofDigits 10 ds.reverse) := by
  induction ds generalizing acc with
  | nil => simp [readDigits?]
  | cons d r ih =>
    have first := digitValue?_digitChar (digits d List.mem_cons_self)
    have rest := ih (10 * acc + d) fun e later => digits e (List.mem_cons_of_mem d later)
    simp only [List.map_cons, readDigits?, first, bind, Option.bind, rest, List.length_cons, List.reverse_cons,
      Nat.ofDigits_append, Nat.ofDigits_singleton, List.length_reverse, Option.some.injEq]
    ring

theorem readDigits?_eq_some_iff : readDigits? 0 cs = some n ↔ Denotes cs n := by
  constructor
  · intro read
    have digits : ∃ ds : List Nat, (∀ d ∈ ds, d < 10) ∧ cs = ds.map digitChar := by
      have each := digits_of_readDigits? read
      clear read
      induction cs with
      | nil => exact ⟨[], nofun, rfl⟩
      | cons c r ih =>
        obtain ⟨ds, small, rfl⟩ := ih fun c later => each c (List.mem_cons_of_mem _ later)
        obtain ⟨d, value⟩ := each c List.mem_cons_self
        obtain ⟨least, rfl⟩ := digitValue?_eq_some_iff.1 value
        exact ⟨d :: ds, List.forall_mem_cons.2 ⟨least, small⟩, rfl⟩
    obtain ⟨ds, small, rfl⟩ := digits
    rw [readDigits?_map 0 small, Nat.zero_mul, Nat.zero_add] at read
    cases read
    exact ⟨ds, small, rfl, rfl⟩
  · rintro ⟨ds, small, rfl, rfl⟩
    rw [readDigits?_map 0 small, Nat.zero_mul, Nat.zero_add]

theorem readNat?_of_ne_nil (some : cs ≠ []) : readNat? cs = readDigits? 0 cs := by
  cases cs with
  | nil => exact absurd rfl some
  | cons c r => rfl

theorem readNat?_eq_some_iff : readNat? cs = some n ↔ cs ≠ [] ∧ Denotes cs n := by
  rw [← readDigits?_eq_some_iff]
  cases cs with
  | nil => exact iff_of_false nofun fun h => h.1 rfl
  | cons c r => exact ⟨fun read => ⟨List.cons_ne_nil c r, read⟩, And.right⟩

theorem Denotes.digits (h : Denotes cs n) : Digits cs := by
  obtain ⟨ds, small, rfl, _⟩ := h
  intro c hc
  obtain ⟨d, listed, rfl⟩ := List.mem_map.1 hc
  exact ⟨d, small d listed, rfl⟩

theorem Denotes.not_plus (h : Denotes cs n) : '+' ∉ cs := h.digits.not_mem (by decide)

theorem readUnsigned?_eq_some_iff : readUnsigned? cs = some n ↔ Unsigned true cs n := by
  constructor
  · intro read
    unfold readUnsigned? at read
    split at read
    · obtain ⟨some, digits⟩ := readNat?_eq_some_iff.1 read
      exact .signed rfl some digits
    · obtain ⟨some, digits⟩ := readNat?_eq_some_iff.1 read
      exact .bare some digits
  · rintro (⟨some, digits⟩ | ⟨_, some, digits⟩)
    · unfold readUnsigned?
      split
      · exact absurd List.mem_cons_self digits.not_plus
      · exact readNat?_eq_some_iff.2 ⟨some, digits⟩
    · exact readNat?_eq_some_iff.2 ⟨some, digits⟩

theorem readUnsignedBelow?_eq_some_iff {bound : Nat} :
    readUnsignedBelow? bound cs = some n ↔ Unsigned true cs n ∧ n < bound := by
  rw [readUnsignedBelow?, Option.filter_eq_some_iff, readUnsigned?_eq_some_iff, decide_eq_true_iff]

/-- An unsigned number has only digits and signs. -/
theorem Unsigned.not_mem (h : Unsigned plus cs n) (apart : ∀ m : Fin 10, digitChar m.val ≠ c) (sign : c ≠ '+') :
    c ∉ cs := by
  rcases h with ⟨_, digits⟩ | ⟨_, _, digits⟩
  · exact digits.digits.not_mem apart
  · rw [List.mem_cons, not_or]
    exact ⟨sign, digits.digits.not_mem apart⟩

theorem Unsigned.ne_nil (h : Unsigned plus cs n) : cs ≠ [] := by
  rcases h with ⟨some, _⟩ | ⟨_, _, _⟩
  · exact some
  · exact List.cons_ne_nil _ _

theorem unsigned_bare_iff : Unsigned false cs n ↔ Unsigned true cs n ∧ '+' ∉ cs := by
  constructor
  · rintro (⟨some, digits⟩ | ⟨sign, _, _⟩)
    · exact ⟨.bare some digits, digits.not_plus⟩
    · cases sign
  · rintro ⟨⟨some, digits⟩ | ⟨_, _, _⟩, absent⟩
    · exact .bare some digits
    · exact absurd List.mem_cons_self absent

theorem readSigned?_eq_some_iff {z : Int} (unsigned : '-' ∉ cs) :
    readSigned? cs = some z ↔ ∃ n : Nat, Unsigned true cs n ∧ z = n := by
  constructor
  · intro read
    obtain ⟨negative, body, n, number, rfl, ⟨rfl, rfl⟩ | ⟨rfl, rfl | rfl⟩⟩ := readSigned?_eq_some read
    · exact absurd List.mem_cons_self unsigned
    · obtain ⟨some, digits⟩ := readNat?_eq_some_iff.1 number
      exact ⟨n, .signed rfl some digits, rfl⟩
    · obtain ⟨some, digits⟩ := readNat?_eq_some_iff.1 number
      exact ⟨n, .bare some digits, rfl⟩
  · rintro ⟨n, ⟨some, digits⟩ | ⟨_, some, digits⟩, rfl⟩
    · unfold readSigned?
      split
      · exact absurd List.mem_cons_self unsigned
      · exact absurd List.mem_cons_self digits.not_plus
      · rw [readNat?_eq_some_iff.2 ⟨some, digits⟩]
        rfl
    · rw [readSigned?, readNat?_eq_some_iff.2 ⟨some, digits⟩]
      rfl

theorem readSignedWithin?_eq_some_iff {bound : Nat} {z : Int} (unsigned : '-' ∉ cs) :
    readSignedWithin? bound cs = some z ↔ ∃ n : Nat, Unsigned true cs n ∧ n < bound ∧ z = n := by
  rw [readSignedWithin?, Option.filter_eq_some_iff, readSigned?_eq_some_iff unsigned]
  constructor
  · rintro ⟨⟨n, number, rfl⟩, inside⟩
    exact ⟨n, number, by simp at inside; omega, rfl⟩
  · rintro ⟨n, number, inside, rfl⟩
    exact ⟨⟨n, number, rfl⟩, by simp; omega⟩

/-- Filling up with zeros to some width. -/
theorem readDigits?_padded {k : Nat} :
    readDigits? 0 (cs ++ List.replicate k '0') = some n ↔ ∃ m, Denotes cs m ∧ n = m * 10 ^ k := by
  rw [readDigits?_append, Option.bind_eq_some_iff]
  constructor
  · rintro ⟨m, digits, zeros⟩
    rw [readDigits?_zeros] at zeros
    exact ⟨m, readDigits?_eq_some_iff.1 digits, (Option.some.inj zeros).symm⟩
  · rintro ⟨m, digits, rfl⟩
    exact ⟨m, readDigits?_eq_some_iff.2 digits, readDigits?_zeros m k⟩

end Text

namespace TimeOfDay

open Text (Denotes Unsigned)

variable {cs : List Char} {hour minute second n : Nat} {plus : Bool} {t : TimeOfDay}

/-- Two or three numbers between colons. -/
inductive Clock (plus : Bool) : List Char → Nat → Nat → Nat → Prop where
  | minutes {h m : List Char} {hour minute : Nat} :
    Unsigned plus h hour → Unsigned plus m minute → Clock plus (h ++ ':' :: m) hour minute 0
  | seconds {h m s : List Char} {hour minute second : Nat} :
    Unsigned plus h hour → Unsigned plus m minute → Unsigned plus s second →
      Clock plus (h ++ ':' :: (m ++ ':' :: s)) hour minute second

/-- One to nine digits count as nanoseconds with zeros behind them; a plus sign takes the place of a digit. -/
inductive Fraction (plus : Bool) : List Char → Nat → Prop where
  | bare {cs : List Char} {n : Nat} :
    cs ≠ [] → cs.length ≤ 9 → Denotes cs n → Fraction plus cs (n * 10 ^ (9 - cs.length))
  | signed {cs : List Char} {n : Nat} :
    plus = true → cs.length ≤ 8 → Denotes cs n → Fraction plus ('+' :: cs) (n * 10 ^ (8 - cs.length))

/-- `H:M` or `H:M:S`, with a fraction or without one. -/
inductive Literal (plus : Bool) : List Char → TimeOfDay → Prop where
  | whole {cs : List Char} {t : TimeOfDay} :
    Clock plus cs t.hour t.minute t.second → t.nanosecond = 0 → Literal plus cs t
  | fraction {cs fs : List Char} {t : TimeOfDay} :
    Clock plus cs t.hour t.minute t.second → Fraction plus fs t.nanosecond → Literal plus (cs ++ '.' :: fs) t

theorem readClock?_eq_some_iff : readClock? cs = some (hour, minute, second) ↔
    Clock true cs hour minute second ∧ hour < 256 ∧ minute < 256 ∧ second < 256 := by
  constructor
  · intro read
    unfold readClock? at read
    rcases Text.splitAll_cases ':' cs with ⟨_, parts⟩ | ⟨h, rest, rfl, _, parts⟩
    · rw [parts] at read
      cases read
    rcases Text.splitAll_cases ':' rest with ⟨_, parts'⟩ | ⟨m, rest, rfl, _, parts'⟩
    · simp only [parts, parts', Option.bind_eq_bind, Option.bind_eq_some_iff] at read
      obtain ⟨_, readHour, _, readMinute, same⟩ := read
      cases same
      obtain ⟨hours, small⟩ := Text.readUnsignedBelow?_eq_some_iff.1 readHour
      obtain ⟨minutes, small'⟩ := Text.readUnsignedBelow?_eq_some_iff.1 readMinute
      exact ⟨.minutes hours minutes, small, small', by decide⟩
    rcases Text.splitAll_cases ':' rest with ⟨_, parts''⟩ | ⟨s, rest, rfl, _, parts''⟩
    · simp only [parts, parts', parts'', Option.bind_eq_bind, Option.bind_eq_some_iff] at read
      obtain ⟨_, readHour, _, readMinute, _, readSecond, same⟩ := read
      cases same
      obtain ⟨hours, small⟩ := Text.readUnsignedBelow?_eq_some_iff.1 readHour
      obtain ⟨minutes, small'⟩ := Text.readUnsignedBelow?_eq_some_iff.1 readMinute
      obtain ⟨seconds, small''⟩ := Text.readUnsignedBelow?_eq_some_iff.1 readSecond
      exact ⟨.seconds hours minutes seconds, small, small', small''⟩
    · rcases Text.splitAll_cases ':' rest with ⟨_, more⟩ | ⟨_, _, _, _, more⟩
      · simp [parts, parts', parts'', more] at read
      · simp [parts, parts', parts'', more] at read
  · rintro ⟨clock, hours, minutes, seconds⟩
    have read {cs : List Char} {n : Nat} (number : Unsigned true cs n) (small : n < 256) :
        Text.readUnsignedBelow? 256 cs = some n := Text.readUnsignedBelow?_eq_some_iff.2 ⟨number, small⟩
    have colon {cs : List Char} {n : Nat} (number : Unsigned true cs n) : ':' ∉ cs :=
      number.not_mem (by decide) (by decide)
    rcases clock with ⟨h, m⟩ | ⟨h, m, s⟩
    · rw [readClock?, Text.splitAll_append _ (colon h), Text.splitAll_of_not_mem (colon m)]
      simp only [read h hours, read m minutes]
      rfl
    · rw [readClock?, Text.splitAll_append _ (colon h), Text.splitAll_append _ (colon m),
        Text.splitAll_of_not_mem (colon s)]
      simp only [read h hours, read m minutes, read s seconds]
      rfl

theorem Clock.not_mem {c : Char} (h : Clock plus cs hour minute second)
    (apart : ∀ m : Fin 10, Text.digitChar m.val ≠ c) (sign : c ≠ '+') (colon : c ≠ ':') : c ∉ cs := by
  rcases h with ⟨h, m⟩ | ⟨h, m, s⟩
  · simp [h.not_mem apart sign, m.not_mem apart sign, colon]
  · simp [h.not_mem apart sign, m.not_mem apart sign, s.not_mem apart sign, colon]

theorem readFraction?_of_ne_nil (some : cs ≠ []) :
    readFraction? cs = if cs.length ≤ 9 then Text.readUnsigned? (Text.padRight '0' 9 cs) else none := by
  have accepted : (cs = [] || 9 < cs.length) = true ↔ ¬ cs.length ≤ 9 := by
    rw [Bool.or_eq_true, decide_eq_true_iff, decide_eq_true_iff, Nat.not_le]
    exact or_iff_right some
  by_cases short : cs.length ≤ 9
  · rw [readFraction?, if_neg fun wrong => accepted.1 wrong short, if_pos short]
  · rw [readFraction?, if_pos (accepted.2 short), if_neg short]

/-- The plus sign is one of the characters that are filled up to nine. -/
theorem readFraction?_plus (r : List Char) : readFraction? ('+' :: r) =
    if r.length ≤ 8 then Text.readDigits? 0 (r ++ List.replicate (8 - r.length) '0') else none := by
  have length : r.length + 1 ≤ 9 ↔ r.length ≤ 8 := Nat.succ_le_succ_iff
  rw [readFraction?_of_ne_nil (List.cons_ne_nil _ r), List.length_cons]
  by_cases short : r.length ≤ 8
  · have width : 9 - (r.length + 1) = 8 - r.length := Nat.add_sub_add_right 8 1 r.length
    have filled : (r ++ List.replicate (8 - r.length) '0').length = 8 := by
      rw [List.length_append, List.length_replicate, Nat.add_sub_cancel' short]
    have some : r ++ List.replicate (8 - r.length) '0' ≠ [] := by
      intro none
      rw [none] at filled
      cases filled
    rw [if_pos (length.2 short), if_pos short, Text.padRight, List.length_cons, width, List.cons_append]
    exact Text.readNat?_of_ne_nil some
  · rw [if_neg fun fits => short (length.1 fits), if_neg short]

theorem readFraction?_bare (some : cs ≠ []) (bare : ∀ r, cs ≠ '+' :: r) : readFraction? cs =
    if cs.length ≤ 9 then Text.readDigits? 0 (cs ++ List.replicate (9 - cs.length) '0') else none := by
  obtain ⟨c, r, rfl⟩ := List.exists_cons_of_ne_nil some
  have unsigned : Text.readUnsigned? (Text.padRight '0' 9 (c :: r)) =
      Text.readNat? (Text.padRight '0' 9 (c :: r)) := by
    rw [Text.padRight, List.cons_append, Text.readUnsigned?]
    intro _ same
    exact bare r (by rw [(List.cons_eq_cons.1 same).1])
  rw [readFraction?_of_ne_nil some, unsigned]
  rfl

theorem readFraction?_eq_some_iff : readFraction? cs = some n ↔ Fraction true cs n := by
  constructor
  · intro read
    by_cases none : cs = []
    · rw [none] at read
      cases read
    by_cases sign : ∃ r, cs = '+' :: r
    · obtain ⟨r, rfl⟩ := sign
      rw [readFraction?_plus] at read
      split at read
      · next short =>
        obtain ⟨m, digits, rfl⟩ := Text.readDigits?_padded.1 read
        exact .signed rfl short digits
      · cases read
    · rw [readFraction?_bare none fun r same => sign ⟨r, same⟩] at read
      split at read
      · next short =>
        obtain ⟨m, digits, rfl⟩ := Text.readDigits?_padded.1 read
        exact .bare none short digits
      · cases read
  · rintro (⟨some, short, digits⟩ | ⟨_, short, digits⟩)
    · have bare : ∀ r, cs ≠ '+' :: r := by
        rintro r rfl
        exact digits.not_plus List.mem_cons_self
      rw [readFraction?_bare some bare, if_pos short]
      exact Text.readDigits?_padded.2 ⟨_, digits, rfl⟩
    · rw [readFraction?_plus, if_pos short]
      exact Text.readDigits?_padded.2 ⟨_, digits, rfl⟩

theorem ofChars?_eq_some_iff : ofChars? cs = some t ↔ Literal true (Text.trim cs) t := by
  have hours := t.hour_lt
  have minutes := t.minute_lt
  have seconds := t.second_lt
  unfold ofChars?
  generalize Text.trim cs = cs
  constructor
  · intro read
    cases split : Text.splitOnce? '.' cs with
    | none =>
      simp only [split, Option.bind_eq_bind, Option.bind_some, Option.bind_eq_some_iff] at read
      obtain ⟨⟨h, m, s⟩, clock, made⟩ := read
      obtain ⟨rfl, rfl, rfl, zero⟩ := ofParts?_eq_some_iff.1 made
      exact .whole (readClock?_eq_some_iff.1 clock).1 zero
    | some parts =>
      obtain ⟨clock, fraction⟩ := parts
      obtain ⟨rfl, _⟩ := Text.splitOnce?_eq_some_iff.1 split
      simp only [split, Option.bind_eq_bind, Option.bind_eq_some_iff, Option.map_eq_some_iff] at read
      obtain ⟨_, ⟨n, nanoseconds, rfl⟩, ⟨h, m, s⟩, clock, made⟩ := read
      obtain ⟨rfl, rfl, rfl, rfl⟩ := ofParts?_eq_some_iff.1 made
      exact .fraction (readClock?_eq_some_iff.1 clock).1 (readFraction?_eq_some_iff.1 nanoseconds)
  · rintro (⟨clock, zero⟩ | ⟨clock, fraction⟩)
    · have point : '.' ∉ cs := clock.not_mem (by decide) (by decide) (by decide)
      have read := readClock?_eq_some_iff.2 ⟨clock, by omega, by omega, by omega⟩
      have made := ofParts?_eq_some_iff.2 ⟨rfl, rfl, rfl, zero⟩
      simp only [Text.splitOnce?_eq_none_iff.2 point, read, Option.bind_eq_bind, Option.bind_some]
      exact made
    · have point := clock.not_mem (c := '.') (by decide) (by decide) (by decide)
      have read := readClock?_eq_some_iff.2 ⟨clock, by omega, by omega, by omega⟩
      have made : ofParts? _ _ _ _ = some t := ofParts?_eq_some_iff.2 ⟨rfl, rfl, rfl, rfl⟩
      simp only [Text.splitOnce?_eq_some_iff.2 ⟨rfl, point⟩, readFraction?_eq_some_iff.2 fraction, read,
        Option.bind_eq_bind, Option.bind_some, Option.map_some]
      exact made

theorem ofText_eq_ok_iff {s : String} : ofText s = .ok t ↔ Literal true (Text.trim s.toList) t := by
  rw [← ofChars?_eq_some_iff, ofText]
  cases ofChars? s.toList with
  | none => simp only [reduceCtorEq]
  | some _ => rw [Except.ok.injEq, Option.some.injEq]

theorem clock_bare_iff :
    Clock false cs hour minute second ↔ Clock true cs hour minute second ∧ '+' ∉ cs := by
  constructor
  · rintro (⟨h, m⟩ | ⟨h, m, s⟩)
    · obtain ⟨h, noSign⟩ := Text.unsigned_bare_iff.1 h
      obtain ⟨m, noSign'⟩ := Text.unsigned_bare_iff.1 m
      exact ⟨.minutes h m, by simp [noSign, noSign']⟩
    · obtain ⟨h, noSign⟩ := Text.unsigned_bare_iff.1 h
      obtain ⟨m, noSign'⟩ := Text.unsigned_bare_iff.1 m
      obtain ⟨s, noSign''⟩ := Text.unsigned_bare_iff.1 s
      exact ⟨.seconds h m s, by simp [noSign, noSign', noSign'']⟩
  · rintro ⟨⟨h, m⟩ | ⟨h, m, s⟩, noSign⟩
    · simp only [List.mem_append, List.mem_cons, not_or] at noSign
      exact .minutes (Text.unsigned_bare_iff.2 ⟨h, noSign.1⟩) (Text.unsigned_bare_iff.2 ⟨m, noSign.2.2⟩)
    · simp only [List.mem_append, List.mem_cons, not_or] at noSign
      exact .seconds (Text.unsigned_bare_iff.2 ⟨h, noSign.1⟩) (Text.unsigned_bare_iff.2 ⟨m, noSign.2.2.1⟩)
        (Text.unsigned_bare_iff.2 ⟨s, noSign.2.2.2.2⟩)

theorem fraction_bare_iff : Fraction false cs n ↔ Fraction true cs n ∧ '+' ∉ cs := by
  constructor
  · rintro (⟨some, short, digits⟩ | ⟨sign, _, _⟩)
    · exact ⟨.bare some short digits, digits.not_plus⟩
    · cases sign
  · rintro ⟨⟨some, short, digits⟩ | ⟨_, _, _⟩, noSign⟩
    · exact .bare some short digits
    · exact absurd List.mem_cons_self noSign

theorem literal_bare_iff : Literal false cs t ↔ Literal true cs t ∧ '+' ∉ cs := by
  constructor
  · rintro (⟨clock, zero⟩ | ⟨clock, fraction⟩)
    · obtain ⟨clock, noSign⟩ := clock_bare_iff.1 clock
      exact ⟨.whole clock zero, noSign⟩
    · obtain ⟨clock, noSign⟩ := clock_bare_iff.1 clock
      obtain ⟨fraction, noSign'⟩ := fraction_bare_iff.1 fraction
      exact ⟨.fraction clock fraction, by simp [noSign, noSign']⟩
  · rintro ⟨⟨clock, zero⟩ | ⟨clock, fraction⟩, noSign⟩
    · exact .whole (clock_bare_iff.2 ⟨clock, noSign⟩) zero
    · simp only [List.mem_append, List.mem_cons, not_or] at noSign
      exact .fraction (clock_bare_iff.2 ⟨clock, noSign.1⟩) (fraction_bare_iff.2 ⟨fraction, noSign.2.2⟩)

/-- The text is read as a time exactly if it is one with digits alone, and as the time that they denote. -/
def ReadsGrammar (s : String) : Prop := ∀ t, ofText s = .ok t ↔ Literal false (Text.trim s.toList) t

theorem readsGrammar_iff (s : String) :
    ReadsGrammar s ↔ ¬ ∃ t, Literal true (Text.trim s.toList) t ∧ '+' ∈ Text.trim s.toList := by
  constructor
  · rintro reads ⟨t, literal, sign⟩
    have bare := (reads t).1 (ofText_eq_ok_iff.2 literal)
    exact (literal_bare_iff.1 bare).2 sign
  · intro unsigned t
    rw [ofText_eq_ok_iff, literal_bare_iff]
    exact ⟨fun literal => ⟨literal, fun sign => unsigned ⟨t, literal, sign⟩⟩, And.left⟩

end TimeOfDay

namespace Date

open Text (Unsigned)

variable {cs : List Char} {year month day : Nat} {negative plus : Bool} {d : Date}

/-- Three numbers between dashes. -/
inductive Parts (plus : Bool) : List Char → Nat → Nat → Nat → Prop where
  | mk {y m d : List Char} {year month day : Nat} :
    Unsigned plus y year → Unsigned plus m month → Unsigned plus d day →
      Parts plus (y ++ '-' :: (m ++ '-' :: d)) year month day

/-- `Y-M-D`, with a minus sign for the years before the first one or without it. -/
inductive Literal (plus : Bool) : List Char → Date → Prop where
  | unsigned {cs : List Char} {year : Nat} {d : Date} :
    Parts plus cs year d.month d.day → d.year = year → Literal plus cs d
  | signed {cs : List Char} {year : Nat} {d : Date} :
    Parts plus cs year d.month d.day → d.year = -year → Literal plus ('-' :: cs) d

theorem readBody?_eq_some_iff : readBody? negative cs = some d ↔
    ∃ year : Nat, Parts true cs year d.month d.day ∧ year < 0x80000000 ∧
      d.year = if negative then -(year : Int) else year := by
  constructor
  · intro read
    simp only [readBody?, Option.bind_eq_bind, Option.bind_eq_some_iff] at read
    obtain ⟨⟨y, rest⟩, first, ⟨m, e⟩, second, _, readYear, _, readMonth, _, readDay, made⟩ := read
    obtain ⟨rfl, dash⟩ := Text.splitOnce?_eq_some_iff.1 first
    obtain ⟨rfl, _⟩ := Text.splitOnce?_eq_some_iff.1 second
    obtain ⟨year, years, small, rfl⟩ := (Text.readSignedWithin?_eq_some_iff dash).1 readYear
    obtain ⟨same, rfl, rfl⟩ := ofParts?_eq_some_iff.1 made
    have months := (Text.readUnsignedBelow?_eq_some_iff.1 readMonth).1
    have days := (Text.readUnsignedBelow?_eq_some_iff.1 readDay).1
    exact ⟨year, .mk years months days, small, same⟩
  · rintro ⟨year, parts, small, same⟩
    have made : ofParts? d.year d.month d.day = some d := d.ofParts?_self
    have monthSmall : d.month < 256 := by have := d.calendar.month_le; omega
    have daySmall : d.day < 256 := by
      have := d.calendar.day_le
      have := daysInMonth_le d.year d.month
      omega
    rw [same] at made
    generalize d.month = month at parts monthSmall made
    generalize d.day = day at parts daySmall made
    obtain ⟨years, months, days⟩ := parts
    have dash {cs : List Char} {n : Nat} (number : Unsigned true cs n) : '-' ∉ cs :=
      number.not_mem (by decide) (by decide)
    have readYear := (Text.readSignedWithin?_eq_some_iff (dash years)).2 ⟨year, years, small, rfl⟩
    have readMonth := Text.readUnsignedBelow?_eq_some_iff.2 ⟨months, monthSmall⟩
    have readDay := Text.readUnsignedBelow?_eq_some_iff.2 ⟨days, daySmall⟩
    simp only [readBody?, Text.splitOnce?_eq_some_iff.2 ⟨rfl, dash years⟩,
      Text.splitOnce?_eq_some_iff.2 ⟨rfl, dash months⟩, readYear, readMonth, readDay, Option.bind_eq_bind,
      Option.bind_some]
    exact made

/-- A dash in front is the sign, since the year has a digit before its own dash. -/
theorem Parts.ne_cons_dash (parts : Parts plus cs year month day) (r : List Char) : cs ≠ '-' :: r := by
  obtain ⟨years, _, _⟩ := parts
  obtain ⟨c, y, rfl⟩ := List.exists_cons_of_ne_nil years.ne_nil
  intro same
  have dash := years.not_mem (c := '-') (by decide) (by decide)
  rw [(List.cons_eq_cons.1 same).1] at dash
  exact dash List.mem_cons_self

theorem ofChars?_eq_some_iff :
    ofChars? cs = some d ↔ Literal true (Text.trim cs) d ∧ d.year ≠ -0x80000000 := by
  have bound := d.year_bound
  by_cases signed : ∃ r, Text.trim cs = '-' :: r
  · obtain ⟨r, trimmed⟩ := signed
    rw [ofChars?_signed trimmed, readBody?_eq_some_iff, trimmed]
    constructor
    · rintro ⟨year, parts, small, same⟩
      rw [if_pos rfl] at same
      exact ⟨.signed parts same, by omega⟩
    · rintro ⟨literal, notLeast⟩
      rcases literal with ⟨parts, _⟩ | ⟨parts, same⟩
      · exact absurd rfl (parts.ne_cons_dash r)
      · exact ⟨_, parts, by omega, same⟩
  · have unsigned : ∀ r, Text.trim cs ≠ '-' :: r := fun r trimmed => signed ⟨r, trimmed⟩
    rw [ofChars?_unsigned unsigned, readBody?_eq_some_iff]
    constructor
    · rintro ⟨year, parts, small, same⟩
      rw [if_neg Bool.false_ne_true] at same
      exact ⟨.unsigned parts same, by omega⟩
    · rintro ⟨literal, notLeast⟩
      generalize Text.trim cs = cs at literal unsigned
      rcases literal with ⟨parts, same⟩ | ⟨parts, _⟩
      · exact ⟨_, parts, by omega, same⟩
      · exact absurd rfl (unsigned _)

theorem ofText_eq_ok_iff {s : String} :
    ofText s = .ok d ↔ Literal true (Text.trim s.toList) d ∧ d.year ≠ -0x80000000 := by
  rw [← ofChars?_eq_some_iff, ofText]
  cases ofChars? s.toList with
  | none => simp only [reduceCtorEq]
  | some _ => rw [Except.ok.injEq, Option.some.injEq]

theorem parts_bare_iff : Parts false cs year month day ↔ Parts true cs year month day ∧ '+' ∉ cs := by
  constructor
  · rintro ⟨y, m, d⟩
    obtain ⟨y, noSign⟩ := Text.unsigned_bare_iff.1 y
    obtain ⟨m, noSign'⟩ := Text.unsigned_bare_iff.1 m
    obtain ⟨d, noSign''⟩ := Text.unsigned_bare_iff.1 d
    exact ⟨.mk y m d, by simp [noSign, noSign', noSign'']⟩
  · rintro ⟨⟨y, m, d⟩, noSign⟩
    simp only [List.mem_append, List.mem_cons, not_or] at noSign
    exact .mk (Text.unsigned_bare_iff.2 ⟨y, noSign.1⟩) (Text.unsigned_bare_iff.2 ⟨m, noSign.2.2.1⟩)
      (Text.unsigned_bare_iff.2 ⟨d, noSign.2.2.2.2⟩)

theorem literal_bare_iff : Literal false cs d ↔ Literal true cs d ∧ '+' ∉ cs := by
  constructor
  · rintro (⟨parts, same⟩ | ⟨parts, same⟩)
    · obtain ⟨parts, noSign⟩ := parts_bare_iff.1 parts
      exact ⟨.unsigned parts same, noSign⟩
    · obtain ⟨parts, noSign⟩ := parts_bare_iff.1 parts
      exact ⟨.signed parts same, by simp [noSign]⟩
  · rintro ⟨⟨parts, same⟩ | ⟨parts, same⟩, noSign⟩
    · exact .unsigned (parts_bare_iff.2 ⟨parts, noSign⟩) same
    · simp only [List.mem_cons, not_or] at noSign
      exact .signed (parts_bare_iff.2 ⟨parts, noSign.2⟩) same

/-- The text is read as a date exactly if it is one with digits alone, and as the date that they denote. -/
def ReadsGrammar (s : String) : Prop := ∀ d, ofText s = .ok d ↔ Literal false (Text.trim s.toList) d

theorem readsGrammar_iff (s : String) : ReadsGrammar s ↔
    ¬ ∃ d, Literal true (Text.trim s.toList) d ∧ ('+' ∈ Text.trim s.toList ↔ d.year ≠ -0x80000000) := by
  constructor
  · rintro reads ⟨d, literal, wrong⟩
    have read := reads d
    rw [ofText_eq_ok_iff, literal_bare_iff] at read
    by_cases sign : '+' ∈ Text.trim s.toList
    · exact (read.1 ⟨literal, wrong.1 sign⟩).2 sign
    · exact sign (wrong.2 (read.2 ⟨literal, sign⟩).2)
  · intro right d
    rw [ofText_eq_ok_iff, literal_bare_iff]
    refine and_congr_right fun literal => ?_
    constructor
    · intro notLeast sign
      exact right ⟨d, literal, fun _ => notLeast, fun _ => sign⟩
    · intro unsigned least
      exact right ⟨d, literal, fun sign => absurd sign unsigned, fun notLeast => absurd least notLeast⟩

end Date

/-- What is read as a time and as a date. A time is read by the grammar of digits unless it is accepted with a plus
sign; a date, unless it has a plus sign in a year that is read, or none in the least year. -/
theorem temporal_texts_read_iff (s : String) :
    (∀ t, TimeOfDay.ofText s = .ok t ↔ TimeOfDay.Literal true (Text.trim s.toList) t) ∧
      (∀ d, Date.ofText s = .ok d ↔ Date.Literal true (Text.trim s.toList) d ∧ d.year ≠ -0x80000000) ∧
      (TimeOfDay.ReadsGrammar s ↔
        ¬ ∃ t, TimeOfDay.Literal true (Text.trim s.toList) t ∧ '+' ∈ Text.trim s.toList) ∧
      (Date.ReadsGrammar s ↔
        ¬ ∃ d, Date.Literal true (Text.trim s.toList) d ∧ ('+' ∈ Text.trim s.toList ↔ d.year ≠ -0x80000000)) :=
  ⟨fun _ => TimeOfDay.ofText_eq_ok_iff, fun _ => Date.ofText_eq_ok_iff, TimeOfDay.readsGrammar_iff s,
    Date.readsGrammar_iff s⟩

/-- An hour with a plus sign is read, although the grammar of digits does not have it. -/
theorem plus_sign_read : ¬ ∀ s, TimeOfDay.ReadsGrammar s ∧ Date.ReadsGrammar s := by
  intro all
  let t : TimeOfDay := ⟨8, 15, 0, 0, by decide, by decide, by decide, by decide⟩
  have read : TimeOfDay.ofText "+8:15" = .ok t := by decide +kernel
  have bare := ((all "+8:15").1 t).1 read
  exact (TimeOfDay.literal_bare_iff.1 bare).2 (by decide +kernel)

end SqlEngine
