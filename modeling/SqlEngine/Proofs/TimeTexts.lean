import SqlEngine.Proofs.EqualTexts

/-!
# Texts of times

The text of a time leaves out the zeros at the end of the fraction, and reading fills them in again. So a time is
read back from its text, and no other time has that text.
-/

namespace SqlEngine

namespace Text

variable {c : Char} {cs : List Char} {n : Nat}

/-- The characters that dates and times are written with. -/
def IsTemporal (c : Char) : Prop := c = ':' ∨ IsNumeral c

instance (c : Char) : Decidable (IsTemporal c) :=
  inferInstanceAs (Decidable (c = ':' ∨ c = '-' ∨ c = '.' ∨ ∃ n < 10, c = digitChar n))

theorem Digits.isTemporal (h : Digits cs) : ∀ c ∈ cs, IsTemporal c := fun c hc => .inr (.inr (.inr (h c hc)))

theorem isBlank_of_isTemporal (h : IsTemporal c) : isBlank c = false := by
  have all : ∀ m : Fin 10, isBlank (digitChar m.val) = false := by decide
  rcases h with rfl | rfl | rfl | ⟨m, small, rfl⟩
  · decide
  · decide
  · decide
  · exact all ⟨m, small⟩

theorem trim_of_isTemporal (h : ∀ c ∈ cs, IsTemporal c) : trim cs = cs :=
  trim_of_ends (fun c first => isBlank_of_isTemporal (h c (List.mem_of_head? first)))
    fun c last => isBlank_of_isTemporal (h c (List.mem_of_getLast? last))

/-- A sign is no digit, so digits are read as a number without one. -/
theorem readUnsigned?_padLeft (width n : Nat) : readUnsigned? (padLeft '0' width (natDigits n)) = some n := by
  have unsigned : '+' ∉ padLeft '0' width (natDigits n) := (digits_padLeft width n).not_mem (by decide)
  rw [← readNat?_padLeft width n]
  generalize padLeft '0' width (natDigits n) = cs at unsigned
  unfold readUnsigned?
  split
  · exact absurd List.mem_cons_self unsigned
  · rfl

theorem readUnsignedBelow?_padLeft {bound : Nat} (width : Nat) (below : n < bound) :
    readUnsignedBelow? bound (padLeft '0' width (natDigits n)) = some n := by
  rw [readUnsignedBelow?, readUnsigned?_padLeft, Option.filter_some, if_pos (decide_eq_true below)]

theorem readSigned?_padLeft (width n : Nat) : readSigned? (padLeft '0' width (natDigits n)) = some (n : Int) := by
  have minus : '-' ∉ padLeft '0' width (natDigits n) := (digits_padLeft width n).not_mem (by decide)
  have plus : '+' ∉ padLeft '0' width (natDigits n) := (digits_padLeft width n).not_mem (by decide)
  have number := readNat?_padLeft width n
  generalize padLeft '0' width (natDigits n) = cs at minus plus number
  unfold readSigned?
  split
  · exact absurd List.mem_cons_self minus
  · exact absurd List.mem_cons_self plus
  · rw [number]
    rfl

/-- Digits are within the bound when their number is below it. -/
theorem readSignedWithin?_padLeft (bound width n : Nat) :
    readSignedWithin? bound (padLeft '0' width (natDigits n)) = if n < bound then some (n : Int) else none := by
  rw [readSignedWithin?, readSigned?_padLeft, Option.filter_some]
  by_cases below : n < bound
  · rw [if_pos below, if_pos (by simp; omega)]
  · rw [if_neg below, if_neg (by simp; omega)]

theorem dropTail_cons_of_neg {p : Char → Bool} (h : p c = false) : dropTail p (c :: cs) = c :: dropTail p cs := by
  rw [dropTail]
  cases dropTail p cs with
  | nil => rw [h, if_neg Bool.false_ne_true]
  | cons => rfl

/-- What was dropped at the end is filled up again. -/
theorem padRight_dropTail (c : Char) (cs : List Char) : padRight c cs.length (dropTail (· == c) cs) = cs := by
  induction cs with
  | nil => rfl
  | cons d r ih =>
    rw [dropTail, List.length_cons]
    cases tail : dropTail (· == c) r with
    | nil =>
      rw [tail, padRight, List.nil_append, List.length_nil, Nat.sub_zero] at ih
      by_cases same : d = c
      · rw [same, beq_self_eq_true, if_pos rfl, padRight, List.nil_append, List.length_nil, Nat.sub_zero,
          List.replicate_succ, ih]
      · rw [beq_eq_false_iff_ne.2 same, if_neg Bool.false_ne_true, padRight, List.length_singleton,
          Nat.add_sub_cancel, ih, List.singleton_append]
    | cons a s =>
      rw [tail] at ih
      change d :: (a :: s ++ List.replicate (r.length + 1 - ((a :: s).length + 1)) c) = d :: r
      rw [Nat.add_sub_add_right]
      exact congrArg (d :: ·) ih

end Text

namespace TimeOfDay

variable {t u : TimeOfDay} {n hour minute second : Nat}

/-- A number with at least two digits. -/
def two (n : Nat) : List Char := Text.padLeft '0' 2 (Text.natDigits n)

/-- The nine digits of a fraction. -/
def nine (n : Nat) : List Char := Text.padLeft '0' 9 (Text.natDigits n)

/-- The digits of a fraction without the zeros at the end. -/
def fraction (n : Nat) : List Char := Text.dropTail (· == '0') (nine n)

theorem clockChars_eq (hour minute second : Nat) :
    clockChars hour minute second = two hour ++ ':' :: (two minute ++ ':' :: two second) := by
  simp only [clockChars, List.append_assoc, List.cons_append]
  rfl

theorem chars_eq (t : TimeOfDay) : t.chars = clockChars t.hour t.minute t.second ++
    if t.nanosecond = 0 then [] else '.' :: fraction t.nanosecond := by
  rw [chars, fractionChars, Text.dropTail_cons_of_neg (by decide)]
  rfl

theorem length_nine (small : n < 1000000000) : (nine n).length = 9 := by
  have most : (Text.natDigits n).length ≤ 9 := (Text.length_natDigits_le_iff (by decide)).2 small
  rw [nine, Text.length_padLeft]
  omega

theorem padRight_fraction (small : n < 1000000000) : Text.padRight '0' 9 (fraction n) = nine n := by
  have filled := Text.padRight_dropTail '0' (nine n)
  rwa [length_nine small] at filled

theorem length_fraction_le (small : n < 1000000000) : (fraction n).length ≤ 9 := by
  have length := congrArg List.length (padRight_fraction small)
  rw [Text.length_padRight, length_nine small] at length
  omega

/-- A fraction of zeros alone is zero. -/
theorem fraction_ne_nil (some : n ≠ 0) (small : n < 1000000000) : fraction n ≠ [] := by
  intro none
  have read := Text.readUnsigned?_padLeft 9 n
  change Text.readUnsigned? (nine n) = _ at read
  rw [← padRight_fraction small, none] at read
  have zero : Text.readUnsigned? (Text.padRight '0' 9 []) = Option.some 0 := by decide
  rw [zero] at read
  cases read
  exact some rfl

theorem readFraction?_fraction (some : n ≠ 0) (small : n < 1000000000) : readFraction? (fraction n) = n := by
  have short := length_fraction_le small
  rw [readFraction?, if_neg (by simp [fraction_ne_nil some small, short]), padRight_fraction small]
  exact Text.readUnsigned?_padLeft 9 n

theorem not_mem_two {c : Char} (apart : ∀ m : Fin 10, Text.digitChar m.val ≠ c) (n : Nat) : c ∉ two n :=
  (Text.digits_padLeft 2 n).not_mem apart

theorem point_not_mem_clockChars (hour minute second : Nat) : '.' ∉ clockChars hour minute second := by
  have digits (n : Nat) : '.' ∉ two n := not_mem_two (by decide) n
  rw [clockChars_eq]
  simp [digits]

theorem readClock?_clockChars (hours : hour < 256) (minutes : minute < 256) (seconds : second < 256) :
    readClock? (clockChars hour minute second) = some (hour, minute, second) := by
  have colon (n : Nat) : ':' ∉ two n := not_mem_two (by decide) n
  have read {n : Nat} (below : n < 256) : Text.readUnsignedBelow? 256 (two n) = some n :=
    Text.readUnsignedBelow?_padLeft 2 below
  rw [readClock?, clockChars_eq, Text.splitAll_append _ (colon hour), Text.splitAll_append _ (colon minute),
    Text.splitAll_of_not_mem (colon second)]
  simp only [read hours, read minutes, read seconds]
  rfl

theorem chars_ne_nil (t : TimeOfDay) : t.chars ≠ [] := by
  rw [chars_eq, clockChars_eq]
  simp

theorem isTemporal_chars (t : TimeOfDay) : ∀ c ∈ t.chars, Text.IsTemporal c := by
  have clock (n : Nat) : ∀ c ∈ two n, Text.IsTemporal c := (Text.digits_padLeft 2 n).isTemporal
  have digits : ∀ c ∈ fraction t.nanosecond, Text.IsTemporal c := by
    intro c hc
    apply (Text.digits_padLeft 9 t.nanosecond).isTemporal
    change c ∈ nine t.nanosecond
    rw [← padRight_fraction t.nanosecond_lt]
    exact List.mem_append_left _ hc
  intro c hc
  rw [chars_eq, clockChars_eq] at hc
  simp only [List.mem_append, List.mem_cons] at hc
  rcases hc with (hc | rfl | hc | rfl | hc) | hc
  · exact clock t.hour c hc
  · exact .inl rfl
  · exact clock t.minute c hc
  · exact .inl rfl
  · exact clock t.second c hc
  · split at hc
    · cases hc
    · rcases List.mem_cons.1 hc with rfl | hc
      · exact .inr (.inr (.inl rfl))
      · exact digits c hc

theorem isBlank_chars (t : TimeOfDay) : ∀ c ∈ t.chars, Text.isBlank c = false :=
  fun c hc => Text.isBlank_of_isTemporal (t.isTemporal_chars c hc)

theorem ofParts?_self (t : TimeOfDay) : ofParts? t.hour t.minute t.second t.nanosecond = some t :=
  dif_pos ⟨t.hour_lt, t.minute_lt, t.second_lt, t.nanosecond_lt⟩

theorem ofParts?_eq_some_iff : ofParts? hour minute second n = some t ↔
    t.hour = hour ∧ t.minute = minute ∧ t.second = second ∧ t.nanosecond = n := by
  constructor
  · intro made
    obtain ⟨_, same⟩ := Option.dite_none_right_eq_some.1 made
    cases same
    exact ⟨rfl, rfl, rfl, rfl⟩
  · rintro ⟨rfl, rfl, rfl, rfl⟩
    exact t.ofParts?_self

/-- A time is read off its text. -/
theorem ofChars?_chars (t : TimeOfDay) {before after : List Char} (hb : ∀ c ∈ before, Text.isBlank c = true)
    (ha : ∀ c ∈ after, Text.isBlank c = true) : ofChars? (before ++ t.chars ++ after) = some t := by
  have trimmed : Text.trim (before ++ t.chars ++ after) = t.chars :=
    Text.trim_append hb ha (fun c first => t.isBlank_chars c (List.mem_of_head? first))
      fun c last => t.isBlank_chars c (List.mem_of_getLast? last)
  have hours := t.hour_lt
  have minutes := t.minute_lt
  have seconds := t.second_lt
  have clock := readClock?_clockChars (by omega : t.hour < 256) (by omega : t.minute < 256) (by omega : t.second < 256)
  have noPoint := point_not_mem_clockChars t.hour t.minute t.second
  rw [ofChars?, trimmed]
  by_cases zero : t.nanosecond = 0
  · have whole : t.chars = clockChars t.hour t.minute t.second := by rw [chars_eq, if_pos zero, List.append_nil]
    have self := t.ofParts?_self
    rw [zero] at self
    simp only [whole, Text.splitOnce?_eq_none_iff.2 noPoint]
    simp [clock, self]
  · have split : Text.splitOnce? '.' t.chars = some (clockChars t.hour t.minute t.second, fraction t.nanosecond) := by
      rw [Text.splitOnce?_eq_some_iff, chars_eq, if_neg zero]
      exact ⟨rfl, noPoint⟩
    simp only [split, readFraction?_fraction zero t.nanosecond_lt]
    simp [clock, t.ofParts?_self]

theorem ofText_surrounded (t : TimeOfDay) {before after : List Char} (hb : ∀ c ∈ before, Text.isBlank c = true)
    (ha : ∀ c ∈ after, Text.isBlank c = true) :
    ofText (String.ofList (before ++ t.text.toList ++ after)) = .ok t := by
  rw [ofText, String.toList_ofList, text, String.toList_ofList, t.ofChars?_chars hb ha]

theorem ofText_text (t : TimeOfDay) : ofText t.text = .ok t := by
  have alone : ofText (String.ofList ([] ++ t.text.toList ++ [])) = .ok t := t.ofText_surrounded nofun nofun
  rwa [List.nil_append, List.append_nil, String.ofList_toList] at alone

theorem ofParts_eq_ok {nanosecond : Nat} : ofParts hour minute second nanosecond = .ok t ↔
    t.hour = hour ∧ t.minute = minute ∧ t.second = second ∧ t.nanosecond = nanosecond := by
  rw [← ofParts?_eq_some_iff, ofParts]
  cases ofParts? hour minute second nanosecond with
  | none => simp only [reduceCtorEq]
  | some _ => rw [Except.ok.injEq, Option.some.injEq]

/-- There is a time for parts in range and for no others. It is read back from its text, also with white space around
that, and no other time has the text. -/
theorem accepted_reads_back (hour minute second nanosecond : Nat) :
    ((∃ t, ofParts hour minute second nanosecond = .ok t) ↔
        hour < 24 ∧ minute < 60 ∧ second < 60 ∧ nanosecond < 1000000000) ∧
      ∀ t, ofParts hour minute second nanosecond = .ok t →
        (t.hour = hour ∧ t.minute = minute ∧ t.second = second ∧ t.nanosecond = nanosecond) ∧
        ofText t.text = .ok t ∧
        (∀ before after : List Char, (∀ c ∈ before, Text.isBlank c = true) → (∀ c ∈ after, Text.isBlank c = true) →
          ofText (String.ofList (before ++ t.text.toList ++ after)) = .ok t) ∧
        ∀ u : TimeOfDay, u.text = t.text → u = t := by
  refine ⟨⟨?_, ?_⟩, fun t made => ⟨ofParts_eq_ok.1 made, t.ofText_text, fun _ _ => t.ofText_surrounded, ?_⟩⟩
  · rintro ⟨t, made⟩
    obtain ⟨rfl, rfl, rfl, rfl⟩ := ofParts_eq_ok.1 made
    exact ⟨t.hour_lt, t.minute_lt, t.second_lt, t.nanosecond_lt⟩
  · rintro ⟨hours, minutes, seconds, nanoseconds⟩
    exact ⟨⟨hour, minute, second, nanosecond, hours, minutes, seconds, nanoseconds⟩,
      ofParts_eq_ok.2 ⟨rfl, rfl, rfl, rfl⟩⟩
  · intro u same
    have read := t.ofText_text
    rw [← same, u.ofText_text] at read
    exact Except.ok.inj read

/-- Half past two with a tab and a line break around it. -/
theorem accepted_reads_back_afternoon :
    ∃ t, ofParts 14 30 5 120000000 = .ok t ∧ t.text = "14:30:05.12" ∧ ofText "\t14:30:05.12\n" = .ok t := by
  let t : TimeOfDay := ⟨14, 30, 5, 120000000, by decide, by decide, by decide, by decide⟩
  have made : ofParts 14 30 5 120000000 = .ok t := ofParts_eq_ok.2 ⟨rfl, rfl, rfl, rfl⟩
  have written : t.text = "14:30:05.12" := by decide +kernel
  obtain ⟨_, _, surrounded, _⟩ := (accepted_reads_back 14 30 5 120000000).2 t made
  have tab : ∀ c ∈ ['\t'], Text.isBlank c = true := List.forall_mem_singleton.2 (by decide)
  have lineBreak : ∀ c ∈ ['\n'], Text.isBlank c = true := List.forall_mem_singleton.2 (by decide)
  have read := surrounded ['\t'] ['\n'] tab lineBreak
  rw [written] at read
  exact ⟨t, made, written, read⟩

end TimeOfDay

end SqlEngine
