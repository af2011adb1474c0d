import SqlEngine.Proofs.TimeTexts

/-!
# Texts of dates and timestamps

The year is written with its sign and is read without it: the number behind the sign is read first, and turned
around afterwards. So the least year, whose number is one past the largest, is the only one that is not read back
from its text. A timestamp is read where its date is, whichever of its spellings is taken.
-/

namespace SqlEngine

namespace Date

variable {d : Date} {year : Int} {month day : Nat}

/-- The text without the sign of the year, which has at least so many digits. -/
def body (width : Nat) (d : Date) : List Char :=
  Text.padLeft '0' width (Text.natDigits d.year.natAbs) ++ '-' :: (twoDigits d.month ++ '-' :: twoDigits d.day)

theorem chars_eq (d : Date) : d.chars = if d.year < 0 then '-' :: d.body 3 else d.body 4 := by
  unfold chars charsOfParts yearChars body
  split <;> simp only [List.append_assoc, List.cons_append]

/-- Reading what stands behind the sign of the year. -/
def readBody? (negative : Bool) (cs : List Char) : Option Date := do
  let (year, rest) ← Text.splitOnce? '-' cs
  let (month, day) ← Text.splitOnce? '-' rest
  let y ← Text.readSignedWithin? 0x80000000 year
  let m ← Text.readUnsignedBelow? 256 month
  let d ← Text.readUnsignedBelow? 256 day
  ofParts? (if negative then -y else y) m d

theorem ofParts?_self (d : Date) : ofParts? d.year d.month d.day = some d := by
  rw [ofParts?, dif_pos d.year_bound, dif_pos d.calendar]

theorem ofParts?_eq_some_iff : ofParts? year month day = some d ↔ d.year = year ∧ d.month = month ∧ d.day = day := by
  constructor
  · intro made
    obtain ⟨_, same⟩ := Option.dite_none_right_eq_some.1 made
    obtain ⟨_, same⟩ := Option.dite_none_right_eq_some.1 same
    cases same
    exact ⟨rfl, rfl, rfl⟩
  · rintro ⟨rfl, rfl, rfl⟩
    exact d.ofParts?_self

theorem dash_not_mem_digits (width n : Nat) : '-' ∉ Text.padLeft '0' width (Text.natDigits n) :=
  (Text.digits_padLeft width n).not_mem (by decide)

/-- The number of the year is read if it is in range without its sign. -/
theorem readBody?_body (negative : Bool) (width : Nat) (d : Date) : readBody? negative (d.body width) =
    if d.year.natAbs < 0x80000000 then
      ofParts? (if negative then -(d.year.natAbs : Int) else d.year.natAbs) d.month d.day
    else none := by
  have months : d.month < 256 := by have := d.calendar.month_le; omega
  have days : d.day < 256 := by
    have := d.calendar.day_le
    have := daysInMonth_le d.year d.month
    omega
  have first : Text.splitOnce? '-' (d.body width) = some (Text.padLeft '0' width (Text.natDigits d.year.natAbs),
      twoDigits d.month ++ '-' :: twoDigits d.day) :=
    Text.splitOnce?_eq_some_iff.2 ⟨rfl, dash_not_mem_digits width _⟩
  have second : Text.splitOnce? '-' (twoDigits d.month ++ '-' :: twoDigits d.day) =
      some (twoDigits d.month, twoDigits d.day) :=
    Text.splitOnce?_eq_some_iff.2 ⟨rfl, dash_not_mem_digits 2 _⟩
  have readMonth : Text.readUnsignedBelow? 256 (twoDigits d.month) = some d.month :=
    Text.readUnsignedBelow?_padLeft 2 months
  have readDay : Text.readUnsignedBelow? 256 (twoDigits d.day) = some d.day := Text.readUnsignedBelow?_padLeft 2 days
  have readYear := Text.readSignedWithin?_padLeft 0x80000000 width d.year.natAbs
  by_cases inside : d.year.natAbs < 0x80000000
  · rw [if_pos inside] at readYear ⊢
    simp only [readBody?, first, second, readMonth, readDay, readYear, bind, Option.bind]
  · rw [if_neg inside] at readYear ⊢
    simp only [readBody?, first, second, readYear, bind, Option.bind]

theorem isTemporal_chars (d : Date) : ∀ c ∈ d.chars, Text.IsTemporal c := by
  have dash : Text.IsTemporal '-' := .inr (.inl rfl)
  have digits (width n : Nat) : ∀ c ∈ Text.padLeft '0' width (Text.natDigits n), Text.IsTemporal c :=
    (Text.digits_padLeft width n).isTemporal
  have inBody (width : Nat) : ∀ c ∈ d.body width, Text.IsTemporal c := by
    intro c hc
    simp only [body, List.mem_append, List.mem_cons] at hc
    rcases hc with hc | rfl | hc | rfl | hc
    · exact digits width _ c hc
    · exact dash
    · exact digits 2 _ c hc
    · exact dash
    · exact digits 2 _ c hc
  intro c hc
  rw [chars_eq] at hc
  split at hc
  · rcases List.mem_cons.1 hc with rfl | hc
    · exact dash
    · exact inBody 3 c hc
  · exact inBody 4 c hc

theorem ofChars?_signed {cs r : List Char} (trimmed : Text.trim cs = '-' :: r) : ofChars? cs = readBody? true r := by
  unfold ofChars?
  rw [trimmed]
  rfl

theorem ofChars?_unsigned {cs : List Char} (first : ∀ r, Text.trim cs ≠ '-' :: r) :
    ofChars? cs = readBody? false (Text.trim cs) := by
  unfold ofChars?
  split
  next negative body split =>
  split at split
  · next r trimmed => exact absurd trimmed (first r)
  · cases split
    rfl

/-- The year starts with a digit where it has no sign. -/
theorem body_ne_cons_dash (width : Nat) (d : Date) (r : List Char) : d.body width ≠ '-' :: r := by
  intro same
  have digits := dash_not_mem_digits width d.year.natAbs
  cases split : Text.padLeft '0' width (Text.natDigits d.year.natAbs) with
  | nil => exact Text.natDigits_ne_nil _ (List.append_eq_nil_iff.1 split).2
  | cons c s =>
    rw [body, split] at same
    rw [split, (List.cons_eq_cons.1 same).1] at digits
    exact digits List.mem_cons_self

theorem chars_ne_nil (d : Date) : d.chars ≠ [] := by
  rw [chars_eq, body, body]
  split <;> simp

/-- A date is read off its text, but for the least year. -/
theorem ofChars?_chars (d : Date) : ofChars? d.chars = if d.year = -0x80000000 then none else some d := by
  have trimmed : Text.trim d.chars = d.chars := Text.trim_of_isTemporal d.isTemporal_chars
  have self := d.ofParts?_self
  have bound := d.year_bound
  by_cases before : d.year < 0
  · have written : d.chars = '-' :: d.body 3 := by rw [chars_eq, if_pos before]
    have signed : -(d.year.natAbs : Int) = d.year := by omega
    rw [ofChars?_signed (trimmed.trans written), readBody?_body, if_pos rfl, signed, self]
    by_cases least : d.year = -0x80000000
    · rw [if_pos least, if_neg (by omega)]
    · rw [if_neg least, if_pos (by omega)]
  · have written : d.chars = d.body 4 := by rw [chars_eq, if_neg before]
    have unsigned : (d.year.natAbs : Int) = d.year := by omega
    rw [ofChars?_unsigned (by rw [trimmed, written]; exact d.body_ne_cons_dash 4), trimmed, written, readBody?_body,
      if_neg Bool.false_ne_true, unsigned, self, if_pos (by omega), if_neg (by omega)]

end Date

namespace Timestamp

variable {t : Timestamp} {separator : Char} {zone : List Char}

/-- A timestamp with any separator and any zone. -/
def spelled (separator : Char) (zone : List Char) (t : Timestamp) : List Char :=
  t.date.chars ++ separator :: t.time.chars ++ zone

theorem spelled_space (t : Timestamp) : t.spelled ' ' [] = t.chars := List.append_nil _

theorem spelled_zone (separator : Char) (zone : List Char) (t : Timestamp) :
    t.spelled separator zone = t.spelled separator [] ++ zone := by
  rw [spelled, spelled, List.append_nil]

/-- Without a zone the text ends in the fraction of the time, or in its second. -/
theorem last_spelled (separator : Char) (t : Timestamp) :
    ∃ c, (t.spelled separator []).getLast? = some c ∧ Text.IsTemporal c := by
  have last := List.getLast?_eq_some_getLast t.time.chars_ne_nil
  refine ⟨_, ?_, t.time.isTemporal_chars _ (List.mem_of_getLast? last)⟩
  rw [spelled, List.append_nil, List.getLast?_append_of_ne_nil _ (List.cons_ne_nil _ _), List.getLast?_cons, last]
  rfl

theorem trim_spelled (t : Timestamp) (hz : zone ∈ [[], ['Z']]) :
    Text.trim (t.spelled separator zone) = t.spelled separator zone := by
  apply Text.trim_of_ends
  · intro c first
    rw [spelled, List.append_assoc, List.head?_append_of_ne_nil _ t.date.chars_ne_nil] at first
    exact Text.isBlank_of_isTemporal (t.date.isTemporal_chars c (List.mem_of_head? first))
  · intro c last
    rcases List.mem_pair.1 hz with rfl | rfl
    · obtain ⟨d, ends, temporal⟩ := t.last_spelled separator
      cases last.symm.trans ends
      exact Text.isBlank_of_isTemporal temporal
    · rw [spelled_zone, List.getLast?_concat] at last
      cases last
      decide

/-- The zone goes, and nothing else is taken for one. -/
theorem dropZone_spelled (t : Timestamp) (hz : zone ∈ [[], ['Z']]) :
    dropZone (t.spelled separator zone) = t.spelled separator [] := by
  rcases List.mem_pair.1 hz with rfl | rfl
  · obtain ⟨c, ends, temporal⟩ := t.last_spelled separator
    have upper : c ≠ 'Z' := by
      rintro rfl
      exact absurd temporal (by decide)
    have lower : c ≠ 'z' := by
      rintro rfl
      exact absurd temporal (by decide)
    simp [dropZone, ends, upper, lower]
  · have ends : (t.spelled separator ['Z']).getLast? = some 'Z' := by rw [spelled_zone, List.getLast?_concat]
    rw [dropZone, ends]
    simp only [decide_true, Bool.true_or, if_true]
    rw [spelled_zone, List.dropLast_concat]

/-- The separator is found, since neither a date nor a time is written with it. -/
theorem split_spelled (t : Timestamp) (hs : separator ∈ [' ', 'T']) :
    (Text.splitOnce? 'T' (t.spelled separator [])).or (Text.splitOnce? ' ' (t.spelled separator [])) =
      some (t.date.chars, t.time.chars) := by
  have dateT : 'T' ∉ t.date.chars := fun mem => absurd (t.date.isTemporal_chars _ mem) (by decide)
  have dateSpace : ' ' ∉ t.date.chars := fun mem => absurd (t.date.isTemporal_chars _ mem) (by decide)
  have timeT : 'T' ∉ t.time.chars := fun mem => absurd (t.time.isTemporal_chars _ mem) (by decide)
  rw [spelled, List.append_nil]
  rcases List.mem_pair.1 hs with rfl | rfl
  · have none : Text.splitOnce? 'T' (t.date.chars ++ ' ' :: t.time.chars) = none :=
      Text.splitOnce?_eq_none_iff.2 (by simp [dateT, timeT])
    rw [none, Option.none_or]
    exact Text.splitOnce?_eq_some_iff.2 ⟨rfl, dateSpace⟩
  · rw [Text.splitOnce?_eq_some_iff.2 ⟨rfl, dateT⟩, Option.some_or]

/-- A timestamp is read off each of its spellings, but for those of the least year. -/
theorem ofChars?_spelled (t : Timestamp) (hs : separator ∈ [' ', 'T']) (hz : zone ∈ [[], ['Z']]) :
    ofChars? (t.spelled separator zone) = if t.date.year = -0x80000000 then none else some t := by
  have time : TimeOfDay.ofChars? ([] ++ t.time.chars ++ []) = some t.time := t.time.ofChars?_chars nofun nofun
  rw [List.nil_append, List.append_nil] at time
  simp only [ofChars?, trim_spelled t hz, dropZone_spelled t hz, split_spelled t hs, t.date.ofChars?_chars, time]
  split <;> rfl

theorem ofText_spelled (t : Timestamp) (hs : separator ∈ [' ', 'T']) (hz : zone ∈ [[], ['Z']]) :
    ofText (String.ofList (t.spelled separator zone)) = if t.date.year = -0x80000000 then
      .error (.malformed .timestamp (String.ofList (t.spelled separator zone))) else .ok t := by
  rw [ofText, String.toList_ofList, t.ofChars?_spelled hs hz]
  by_cases least : t.date.year = -0x80000000
  · simp only [if_pos least]
  · simp only [if_neg least]

end Timestamp

namespace Date

variable {d : Date} {t : TimeOfDay} {year : Int} {month day : Nat}

theorem ofParts_eq_ok :
    ofParts year month day = .ok d ↔ d.year = year ∧ d.month = month ∧ d.day = day := by
  rw [← ofParts?_eq_some_iff, ofParts]
  cases ofParts? year month day with
  | none => simp only [reduceCtorEq]
  | some _ => rw [Except.ok.injEq, Option.some.injEq]

/-- A date is read back from its text, and a timestamp on that day from each of its spellings: its text, with `T` for
the space, and each of them with `Z` behind it. -/
structure ReadsBack (d : Date) (t : TimeOfDay) : Prop where
  date : ofText d.text = .ok d
  timestamp : Timestamp.ofText (Timestamp.mk d t).text = .ok ⟨d, t⟩
  spelled : ∀ separator ∈ [' ', 'T'], ∀ zone ∈ [[], ['Z']],
    Timestamp.ofText (String.ofList (Timestamp.spelled separator zone ⟨d, t⟩)) = .ok ⟨d, t⟩

theorem ofText_text (d : Date) :
    ofText d.text = if d.year = -0x80000000 then .error (.malformed .date d.text) else .ok d := by
  rw [ofText, text, String.toList_ofList, d.ofChars?_chars]
  by_cases least : d.year = -0x80000000
  · simp only [if_pos least]
  · simp only [if_neg least]

theorem readsBack_iff (d : Date) (t : TimeOfDay) : d.ReadsBack t ↔ d.year ≠ -0x80000000 := by
  constructor
  · rintro ⟨date, _, _⟩ least
    rw [ofText_text, if_pos least] at date
    cases date
  · intro later
    have spelled : ∀ separator ∈ [' ', 'T'], ∀ zone ∈ [[], ['Z']],
        Timestamp.ofText (String.ofList (Timestamp.spelled separator zone ⟨d, t⟩)) = .ok ⟨d, t⟩ := by
      intro separator hs zone hz
      rw [Timestamp.ofText_spelled _ hs hz, if_neg later]
    refine ⟨by rw [ofText_text, if_neg later], ?_, spelled⟩
    rw [Timestamp.text, ← Timestamp.spelled_space]
    exact spelled ' ' List.mem_cons_self [] List.mem_cons_self

/-- There is a date for each day that the calendar has in a year of thirty-two bits. It is read back from its text, and
so is each timestamp on that day, exactly if the year is not the least one. All texts of that year are malformed. -/
theorem accepted_day_reads_back_iff (year : Int) (month day : Nat) (t : TimeOfDay) :
    ((∃ d, ofParts year month day = .ok d) ↔
        (-0x80000000 ≤ year ∧ year < 0x80000000) ∧ IsCalendarDay year month day) ∧
      ∀ d, ofParts year month day = .ok d →
        (d.year = year ∧ d.month = month ∧ d.day = day) ∧
        (d.ReadsBack t ↔ year ≠ -0x80000000) ∧
        (year = -0x80000000 → ofText d.text = .error (.malformed .date d.text) ∧
          ∀ separator ∈ [' ', 'T'], ∀ zone ∈ [[], ['Z']],
            Timestamp.ofText (String.ofList (Timestamp.spelled separator zone ⟨d, t⟩)) =
              .error (.malformed .timestamp (String.ofList (Timestamp.spelled separator zone ⟨d, t⟩)))) := by
  refine ⟨⟨?_, ?_⟩, fun d made => ⟨ofParts_eq_ok.1 made, ?_, ?_⟩⟩
  · rintro ⟨d, made⟩
    obtain ⟨rfl, rfl, rfl⟩ := ofParts_eq_ok.1 made
    exact ⟨d.year_bound, d.calendar⟩
  · rintro ⟨bound, calendar⟩
    exact ⟨⟨year, month, day, bound, calendar⟩, ofParts_eq_ok.2 ⟨rfl, rfl, rfl⟩⟩
  · obtain ⟨rfl, _, _⟩ := ofParts_eq_ok.1 made
    exact d.readsBack_iff t
  · intro least
    obtain ⟨rfl, _, _⟩ := ofParts_eq_ok.1 made
    refine ⟨by rw [ofText_text, if_pos least], ?_⟩
    intro separator hs zone hz
    rw [Timestamp.ofText_spelled _ hs hz, if_pos least]

/-- A leap day long ago is read back, and new year of the least year is not. -/
theorem accepted_day_reads_back_iff_leap :
    let t : TimeOfDay := ⟨23, 59, 59, 500000000, by decide, by decide, by decide, by decide⟩
    (∃ d, ofParts (-400) 2 29 = .ok d ∧ d.text = "-400-02-29" ∧
        Timestamp.ofText "-400-02-29T23:59:59.5Z" = .ok ⟨d, t⟩) ∧
      ∃ d, ofParts (-0x80000000) 1 1 = .ok d ∧ ofText d.text = .error (.malformed .date d.text) := by
  intro t
  let leap : Date := ⟨-400, 2, 29, by decide, by decide⟩
  let least : Date := ⟨-0x80000000, 1, 1, by decide, by decide⟩
  have made : ofParts (-400) 2 29 = .ok leap := ofParts_eq_ok.2 ⟨rfl, rfl, rfl⟩
  have spelling : String.ofList (Timestamp.spelled 'T' ['Z'] ⟨leap, t⟩) = "-400-02-29T23:59:59.5Z" := by decide +kernel
  have read := ((accepted_day_reads_back_iff (-400) 2 29 t).2 leap made).2.1.2 (by decide)
  have iso := read.spelled 'T' (by decide) ['Z'] (by decide)
  rw [spelling] at iso
  have made' : ofParts (-0x80000000) 1 1 = .ok least := ofParts_eq_ok.2 ⟨rfl, rfl, rfl⟩
  have malformed := ((accepted_day_reads_back_iff (-0x80000000) 1 1 t).2 least made').2.2 rfl
  exact ⟨⟨leap, made, by decide +kernel, iso⟩, least, made', malformed.1⟩

/-- Not all accepted dates are read back from their texts: those of the least year are not. -/
theorem least_year_not_read_back :
    ¬ ∀ (year : Int) (month day : Nat) (t : TimeOfDay) (d : Date), ofParts year month day = .ok d → d.ReadsBack t := by
  intro all
  let least : Date := ⟨-0x80000000, 1, 1, by decide, by decide⟩
  have made : ofParts (-0x80000000) 1 1 = .ok least := ofParts_eq_ok.2 ⟨rfl, rfl, rfl⟩
  exact (least.readsBack_iff .midnight).1 (all _ _ _ .midnight least made) rfl

end Date

end SqlEngine
