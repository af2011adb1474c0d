import SqlEngine.Proofs.RefinedOrder
import SqlEngine.Proofs.TimeTexts

/-!
# Texts of a fixed length

Conversion to so many characters changes nothing but the spaces at the end of a text: it fills the text up with
them, or takes as many off as it must. A text that is too long without them is refused, so a text is told apart from
another one by what both are converted to unless the two differ in the spaces at their ends alone.
-/

namespace SqlEngine

namespace Text

variable {cs kept : List Char} {n : Nat}

theorem length_dropTail_le (c : Char) (cs : List Char) : (dropTail (· == c) cs).length ≤ cs.length := by
  have filled := congrArg List.length (padRight_dropTail c cs)
  rw [length_padRight] at filled
  omega

theorem dropTail_append_replicate (c : Char) (k : Nat) (cs : List Char) :
    dropTail (· == c) (cs ++ List.replicate k c) = dropTail (· == c) cs :=
  dropTail_append cs fun _ hd => beq_iff_eq.2 (List.eq_of_mem_replicate hd)

theorem dropTail_padRight (c : Char) (n : Nat) (cs : List Char) :
    dropTail (· == c) (padRight c n cs) = dropTail (· == c) cs :=
  dropTail_append_replicate c _ cs

theorem dropTail_dropTail (c : Char) (cs : List Char) :
    dropTail (· == c) (dropTail (· == c) cs) = dropTail (· == c) cs := by
  rw [← dropTail_padRight c cs.length (dropTail (· == c) cs), padRight_dropTail]

/-- Filling up in two steps is filling up. -/
theorem padRight_padRight {c : Char} {m n : Nat} (wider : m ≤ n) (cs : List Char) :
    padRight c n (padRight c m cs) = padRight c n cs := by
  rw [padRight, length_padRight, padRight, padRight, List.append_assoc, List.replicate_append_replicate]
  congr 2
  omega

/-- It does not matter whether what is filled in was there before. -/
theorem padRight_of_dropTail {c : Char} (short : cs.length ≤ n) :
    padRight c n (dropTail (· == c) cs) = padRight c n cs := by
  rw [← padRight_padRight short, padRight_dropTail]

/-- What is left of a text when its last spaces are taken off. -/
def unspaced (s : String) : List Char := dropTail (· == ' ') s.toList

/-- Only spaces stand behind what is left, and no further one is left at its end. -/
theorem unspaced_eq_iff {s : String} :
    unspaced s = kept ↔ (∃ k, s.toList = kept ++ List.replicate k ' ') ∧ kept.getLast? ≠ some ' ' := by
  constructor
  · rintro rfl
    refine ⟨⟨_, (padRight_dropTail ' ' s.toList).symm⟩, ?_⟩
    intro space
    obtain ⟨front, whole⟩ := List.getLast?_eq_some_iff.1 space
    -- a space at the end could be taken off as well
    have further : unspaced s = dropTail (· == ' ') front := by
      have again := dropTail_dropTail ' ' s.toList
      change dropTail (· == ' ') (unspaced s) = unspaced s at again
      rw [← again, whole, dropTail_append front (List.forall_mem_singleton.2 rfl)]
    have shorter := length_dropTail_le ' ' front
    rw [← further, whole, List.length_append, List.length_singleton] at shorter
    omega
  · rintro ⟨⟨k, split⟩, last⟩
    rw [unspaced, split, dropTail_append_replicate]
    rcases List.eq_nil_or_concat' kept with rfl | ⟨front, c, rfl⟩
    · rfl
    · rw [List.getLast?_concat] at last
      exact dropTail_concat front (beq_eq_false_iff_ne.2 fun space => last (congrArg some space))

end Text

namespace Value

open Text (unspaced)

variable {v : Value} {s s' : String}

/-- The text brought to `n` characters. -/
def fixed (n : Nat) (s : String) : String := String.ofList (Text.padRight ' ' n (unspaced s))

theorem unspaced_fixed (n : Nat) (s : String) : unspaced (fixed n s) = unspaced s := by
  rw [unspaced, fixed, String.toList_ofList, Text.dropTail_padRight]
  exact Text.dropTail_dropTail ' ' s.toList

/-- Whether spaces are added or taken off, the text comes to what is left of it, filled up. -/
theorem fitChar_eq (target : DataType) (n : Nat) (s : String) : fitChar target n s =
    if (unspaced s).length ≤ n then .ok (fixed n s) else .error (.tooLong s target.text) := by
  have fewer := Text.length_dropTail_le ' ' s.toList
  change (unspaced s).length ≤ s.toList.length at fewer
  simp only [fitChar]
  by_cases short : s.toList.length ≤ n
  · rw [if_pos short, if_pos (Nat.le_trans fewer short), fixed, unspaced, Text.padRight_of_dropTail short]
  · rw [if_neg short]
    by_cases fits : (unspaced s).length ≤ n
    · rw [if_pos fits]
      exact if_neg (Nat.not_lt.2 fits)
    · rw [if_neg fits]
      exact if_pos (Nat.not_le.1 fits)

theorem convert_char (text : v.string? = some s) (n : Nat) : v.convert (.char n) =
    if (unspaced s).length ≤ n then .ok (char (fixed n s)) else .error (.tooLong s (DataType.char n).text) := by
  have fitted : v.convert (.char n) = (fitChar (.char n) n s).map char := by
    cases v <;> cases text <;> rfl
  rw [fitted, fitChar_eq]
  split <;> rfl

theorem compare_of_unspaced (c : Collation) (same : unspaced s = unspaced s') :
    c.compare (char s) (char s') = .eq := by
  have left : Collation.textKey? (char s) = some (unspaced s) := rfl
  have right : Collation.textKey? (char s') = some (unspaced s) := congrArg some same.symm
  rw [c.compare_texts left right, ← c.compare_texts left left]
  exact c.compare_self (char s)

theorem partialCompare?_of_unspaced (same : unspaced s = unspaced s') :
    (char s).partialCompare? (char s') = some .eq := by
  have left := Text.dropTail_isBlank_space s.toList
  have right := Text.dropTail_isBlank_space s'.toList
  change Text.dropTail Text.isBlank (unspaced s) = _ at left
  change Text.dropTail Text.isBlank (unspaced s') = _ at right
  change some (Text.compareChars _ _) = _
  rw [← left, ← right, same]
  exact congrArg some (Text.compareChars_eq_iff.2 rfl)

/-- A text becomes a text of `n` characters exactly if it has no more without the spaces at its end. Only these
change, so the result compares equal to the text, and tells it apart from any text that differs in more. -/
theorem convert_char_iff_unspaced (text : v.string? = some s) (n : Nat) :
    ((∃ k, s.toList = unspaced s ++ List.replicate k ' ') ∧ (unspaced s).getLast? ≠ some ' ') ∧
      ((∃ w, v.convert (.char n) = .ok w) ↔ (unspaced s).length ≤ n) ∧
      (n < (unspaced s).length → v.convert (.char n) = .error (.tooLong s (DataType.char n).text)) ∧
      ∀ w, v.convert (.char n) = .ok w →
        (∃ r, w = char r ∧ r.length = n ∧ unspaced r = unspaced s) ∧
        (∀ c : Collation, c.compare w (char s) = .eq) ∧ w.partialCompare? (char s) = some .eq ∧
        ∀ (v' : Value) s' w', v'.string? = some s' → v'.convert (.char n) = .ok w' →
          (w = w' ↔ unspaced s = unspaced s') := by
  have ends := Text.unspaced_eq_iff.1 (rfl : unspaced s = unspaced s)
  have result := convert_char text n
  have kept := unspaced_fixed n s
  by_cases fits : (unspaced s).length ≤ n
  · rw [if_pos fits] at result
    rw [result]
    refine ⟨ends, iff_of_true ⟨_, rfl⟩ fits, fun long => absurd fits (Nat.not_le.2 long), ?_⟩
    rintro w ⟨⟩
    have length : (fixed n s).length = n := by
      rw [fixed, String.length_ofList, Text.length_padRight, Nat.max_eq_left fits]
    refine ⟨⟨_, rfl, length, kept⟩, fun c => compare_of_unspaced c kept, partialCompare?_of_unspaced kept, ?_⟩
    intro v' s' w' text' converted
    have result' := convert_char text' n
    rw [converted] at result'
    split at result'
    · cases result'
      constructor
      · intro same
        rw [← kept, ← unspaced_fixed n s', char.inj same]
      · intro same
        rw [fixed, fixed, same]
    · cases result'
  · rw [if_neg fits] at result
    rw [result]
    refine ⟨ends, iff_of_false ?_ fits, fun _ => rfl, nofun⟩
    rintro ⟨w, ⟨⟩⟩

theorem convert_char_iff_unspaced_three :
    (∃ w, (varchar "ab   ").convert (.char 3) = .ok w) ∧
      (varchar "abcd ").convert (.char 3) = .error (.tooLong "abcd " (DataType.char 3).text) := by
  have shortened := convert_char_iff_unspaced (v := varchar "ab   ") rfl 3
  have refused := convert_char_iff_unspaced (v := varchar "abcd ") rfl 3
  exact ⟨shortened.2.1.2 (by decide), refused.2.2.1 (by decide)⟩

end Value

end SqlEngine
