import SqlEngine.Proofs.TypedValues

/-!
# Results of conversion

What comes out of a conversion is null, or a value of the kind that was asked for, and converting it to
the same type once more changes nothing. Rounding, padding and shortening are done once and for all.
-/

namespace SqlEngine

namespace Binary

variable {F G : BinaryFormat}

/-- Only a NaN becomes one in another format, and then the usual one. -/
theorem convert_of_isNaN {x : Binary F} (h : (x.convert G).isNaN = true) :
    x.convert G = nan x.negative := by
  rw [convert] at h ⊢
  by_cases number : x.isNaN = true
  · rw [if_pos number]
  · rw [if_neg number] at h ⊢
    by_cases bounded : x.isInfinite = true
    · rw [if_pos bounded] at h
      simp [isNaN, infinite] at h
    · rw [if_neg bounded] at h
      have small : (ofScaled G x.negative x.significand x.exponent).magnitude ≤ G.infinity := by
        simp only [ofScaled, ofRatio, BinaryFormat.roundRatio]
        split
        · exact Nat.zero_le _
        · exact Nat.min_le_left _ _
      simp only [isNaN, decide_eq_true_eq] at h
      omega

/-- Whatever was rounded to single precision goes through double precision unchanged. -/
theorem convert_single_again (x : Binary64) :
    ((x.convert .single).convert .double).convert .single = x.convert .single := by
  cases number : (x.convert .single).isNaN with
  | false => exact convert_double_single number
  | true =>
    rw [convert_of_isNaN number]
    cases x.negative <;> decide

end Binary

/-- The type without its sizes. -/
def DataType.unsized : DataType → DataType
  | decimal _ _ => anyDecimal
  | char _ => char 0
  | varchar _ => anyVarchar
  | t => t

namespace Value

variable {t : DataType} {v w : Value}

/-- The values of a type are of the kind that it names. -/
theorem unsized_type_of_ofType (h : OfType t v) : v.type.unsized = t.unsized := by
  cases h <;> rfl

/-- What a conversion gave is left exactly as it is by a second one. -/
theorem convert_again (h : v.convertPresent t = .ok w) : w.convert t = .ok w := by
  have ofType := ofType_of_convertPresent h
  rw [convert_of_present (isNull_of_ofType ofType)]
  cases t with
  | decimal precision scale =>
    obtain ⟨d, _, rest⟩ := bind_eq_ok.1 h
    obtain ⟨e, fits, rfl⟩ := map_eq_ok.1 rest
    exact bind_eq_ok.2 ⟨e, rfl, map_eq_ok.2 ⟨e, fitDecimal_again fits, rfl⟩⟩
  | real =>
    -- the single precision number is widened first and rounded once more
    obtain ⟨x, _, rfl⟩ := map_eq_ok.1 h
    exact congrArg (fun y => Except.ok (real y)) x.convert_single_again
  | smallint =>
    cases ofType
    exact convertPresent_smallint rfl
  | integer =>
    cases ofType
    exact convertPresent_integer rfl
  | char length =>
    cases ofType with
    | char s => exact bind_eq_ok.2 ⟨s, rfl, map_eq_ok.2 ⟨s, fitChar_fixed _ s, rfl⟩⟩
  | varchar maxLength =>
    cases ofType with
    | varchar short =>
      exact bind_eq_ok.2 ⟨_, rfl, map_eq_ok.2 ⟨_, fitVarchar_eq_ok.2 ⟨rfl, short⟩, rfl⟩⟩
  | null => cases ofType
  | _ =>
    cases ofType
    rfl

theorem convert_of_isNull (h : v.isNull = true) (t : DataType) : v.convert t = .ok null := by
  rw [convert, if_pos h]

/-- Conversion settles a value. The result is null exactly if the value is, else it is of the kind that
the type names, and converting it to the type again gives it back, to the last bit and digit. -/
theorem convert_idempotent (h : v.convert t = .ok w) :
    w.isNull = v.isNull ∧ (w.isNull = false → w.type.unsized = t.unsized) ∧ w.convert t = .ok w := by
  cases present : v.isNull with
  | true =>
    rw [convert_of_isNull present] at h
    cases h
    exact ⟨rfl, nofun, rfl⟩
  | false =>
    rw [convert_of_present present] at h
    have ofType := ofType_of_convertPresent h
    exact ⟨isNull_of_ofType ofType, fun _ => unsized_type_of_ofType ofType, convert_again h⟩

/-- Text is read and rounded to two places, and then stays as it is. -/
theorem convert_idempotent_rounded :
    let t : DataType := .decimal (some 4) (some 2)
    let w : Value := .decimal ⟨false, 1235, 2, by decide, by decide⟩
    (varchar " 12.345 ").convert t = .ok w ∧ w.type.unsized = t.unsized ∧ w.convert t = .ok w := by
  intro t w
  have rounded : (varchar " 12.345 ").convert t = .ok w := by with_unfolding_all rfl
  obtain ⟨_, named, again⟩ := convert_idempotent rounded
  exact ⟨rounded, named rfl, again⟩

end Value

end SqlEngine
