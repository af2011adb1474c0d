import SqlEngine.Proofs.PureEvaluation
import SqlEngine.Proofs.TotalOrder

/-!
# Values that operators cannot tell apart

Result sets count by their number of rows alone, wherever an operator gets to see one. Values that are the
same but for what is inside of result sets are converted, compared and computed with alike.
-/

namespace SqlEngine

namespace Value

mutual

/-- The same, but for what is inside of result sets. -/
def Alike : Value → Value → Prop
  | array xs, array ys => AlikeItems xs ys
  | resultSet _ xs, resultSet _ ys => xs.length = ys.length
  | v, w => v = w

def AlikeItems : List Value → List Value → Prop
  | [], [] => True
  | v :: r, w :: s => Alike v w ∧ AlikeItems r s
  | _, _ => False

end

mutual

theorem Alike.refl : ∀ v : Value, v.Alike v
  | array xs => alikeItems_refl xs
  | resultSet _ _ | null | boolean _ | smallint _ | integer _ | bigint _ | decimal _ | real _ | double _
  | char _ | varchar _ | clob _ | varbinary _ | blob _ | date _ | time _ | timestamp _ | xml _ | object _ =>
    rfl

theorem alikeItems_refl : ∀ vs : List Value, AlikeItems vs vs
  | [] => trivial
  | v :: r => ⟨Alike.refl v, alikeItems_refl r⟩

end

/-- Two values that are alike are one, or they are arrays or result sets. -/
inductive AlikeCases : Value → Value → Prop
  | same (v : Value) : AlikeCases v v
  | arrays {xs ys : List Value} (items : AlikeItems xs ys) : AlikeCases (array xs) (array ys)
  | resultSets {c d : List ResultColumn} {xs ys : List (List Value)} (rows : xs.length = ys.length) :
      AlikeCases (resultSet c xs) (resultSet d ys)

theorem Alike.cases {v w : Value} (h : v.Alike w) : AlikeCases v w := by
  cases v with
  | array xs =>
    cases w with
    | array ys => exact .arrays h
    | _ => cases h
  | resultSet c xs =>
    cases w with
    | resultSet d ys => exact .resultSets h
    | _ => cases h
  | _ => cases h; exact .same _

section Operators

variable {v w v' w' a b : Value}

theorem Alike.isNull (h : v.Alike w) : v.isNull = w.isNull := by
  cases h.cases <;> rfl

theorem Alike.isCharacter (h : v.Alike w) : v.isCharacter = w.isCharacter := by
  cases h.cases <;> rfl

theorem Alike.type (h : v.Alike w) : v.type = w.type := by
  cases h.cases <;> rfl

theorem Alike.same_boolean (h : v.Alike w) (p : Bool) : v.same (boolean p) = w.same (boolean p) := by
  cases h.cases <;> rfl

mutual

theorem Alike.text : ∀ {v w : Value}, v.Alike w → v.text = w.text
  | array xs, w, h => by
    cases h.cases with
    | same => rfl
    | arrays items => rw [Value.text, Value.text, texts_alike items]
  | resultSet _ _, w, h => by
    cases h.cases with
    | same => rfl
    | resultSets rows => rw [Value.text, Value.text, rows]
  | null, _, h | boolean _, _, h | smallint _, _, h | integer _, _, h | bigint _, _, h | decimal _, _, h
  | real _, _, h | double _, _, h | char _, _, h | varchar _, _, h | clob _, _, h | varbinary _, _, h
  | blob _, _, h | date _, _, h | time _, _, h | timestamp _, _, h | xml _, _, h | object _, _, h => by
    cases h
    rfl

theorem texts_alike : ∀ {vs ws : List Value}, AlikeItems vs ws → texts vs = texts ws
  | [], [], _ => rfl
  | v :: r, w :: s, h => by rw [texts, texts, Alike.text h.1, texts_alike h.2]
  | [], _ :: _, h | _ :: _, [], h => nomatch h

end

/-- The truth of a value is seen in all that is alike. -/
theorem Alike.operand (h : v.Alike w) (op : String) {t u : Truth} (first : Truth.operand op v = .ok t)
    (second : Truth.operand op w = .ok u) : t = u := by
  cases h.cases with
  | same => exact Except.ok.inj (first.symm.trans second)
  | arrays => cases first
  | resultSets => cases first

theorem Alike.logicalNot (h : v.Alike w) (first : v.logicalNot = .ok a) (second : w.logicalNot = .ok b) :
    a.Alike b := by
  obtain ⟨t, one, rest⟩ := bind_eq_ok.1 first
  obtain ⟨u, other, rest'⟩ := bind_eq_ok.1 second
  cases h.operand "NOT" one other
  cases rest
  cases rest'
  exact .refl _

/-- So is what a connective makes of two truths. -/
theorem Alike.joined (h : v.Alike w) (h' : v'.Alike w') {op : String} {f : Truth → Truth → Truth}
    {join : Value → Value → Except EngineError Value}
    (joins : ∀ l r, join l r = do
      let s ← Truth.operand op l
      let t ← Truth.operand op r
      return (f s t).toValue)
    (first : join v v' = .ok a) (second : join w w' = .ok b) : a.Alike b := by
  rw [joins] at first second
  obtain ⟨s, left, rest⟩ := bind_eq_ok.1 first
  obtain ⟨t, right, rest⟩ := bind_eq_ok.1 rest
  obtain ⟨s', left', rest'⟩ := bind_eq_ok.1 second
  obtain ⟨t', right', rest'⟩ := bind_eq_ok.1 rest'
  cases h.operand op left left'
  cases h'.operand op right right'
  cases rest
  cases rest'
  exact .refl _

theorem Alike.concatenated (h : v.Alike w) (h' : v'.Alike w') :
    v.concatenated v' = w.concatenated w' := by
  rw [Value.concatenated, Value.concatenated, h.isNull, h'.isNull, h.text, h'.text]

theorem Alike.negated (h : v.Alike w) (first : v.negated = .ok a) (second : w.negated = .ok b) :
    a.Alike b := by
  cases h.cases with
  | same =>
    cases Except.ok.inj (first.symm.trans second)
    exact .refl _
  | arrays => cases first
  | resultSets => cases first

/-- Arithmetic without numbers gives null or nothing. -/
theorem arithmetic_of_not_number {op : BinaryOp} (notNumber : v.toDouble? = none ∨ v'.toDouble? = none)
    (h : arithmetic op v v' = .ok a) : a = null := by
  have noDecimal {u : Value} (n : u.toDouble? = none) : u.toDecimal? = none := by
    cases u <;> first | rfl | cases n
  have notWhole {u : Value} (n : u.toDouble? = none) : u.isIntegral = false := by
    cases u <;> first | rfl | cases n
  simp only [arithmetic] at h
  split at h
  · exact (Except.ok.inj h).symm
  · split at h
    · next whole =>
      rcases notNumber with n | n <;> simp [notWhole n] at whole
    · split at h
      · obtain ⟨compute, _, rest⟩ := bind_eq_ok.1 h
        obtain ⟨x, left, rest⟩ := bind_eq_ok.1 rest
        obtain ⟨y, right, _⟩ := bind_eq_ok.1 rest
        rcases notNumber with n | n
        · rw [n] at left
          cases left
        · rw [n] at right
          cases right
      · obtain ⟨compute, _, rest⟩ := bind_eq_ok.1 h
        obtain ⟨x, left, rest⟩ := bind_eq_ok.1 rest
        obtain ⟨y, right, _⟩ := bind_eq_ok.1 rest
        rcases notNumber with n | n
        · rw [noDecimal n] at left
          cases left
        · rw [noDecimal n] at right
          cases right

theorem Alike.same_or_not_number (h : v.Alike w) : v = w ∨ v.toDouble? = none ∧ w.toDouble? = none := by
  cases h.cases with
  | same => exact .inl rfl
  | arrays => exact .inr ⟨rfl, rfl⟩
  | resultSets => exact .inr ⟨rfl, rfl⟩

theorem Alike.arithmetic {op : BinaryOp} (h : v.Alike w) (h' : v'.Alike w')
    (first : Value.arithmetic op v v' = .ok a) (second : Value.arithmetic op w w' = .ok b) : a.Alike b := by
  have nulls (notV : v.toDouble? = none ∨ v'.toDouble? = none)
      (notW : w.toDouble? = none ∨ w'.toDouble? = none) : a.Alike b := by
    rw [arithmetic_of_not_number notV first, arithmetic_of_not_number notW second]
    exact .refl _
  rcases h.same_or_not_number with rfl | ⟨notV, notW⟩
  · rcases h'.same_or_not_number with rfl | ⟨notV, notW⟩
    · cases Except.ok.inj (first.symm.trans second)
      exact .refl _
    · exact nulls (.inr notV) (.inr notW)
  · exact nulls (.inl notV) (.inl notW)

theorem Alike.convert {t : DataType} (h : v.Alike w) (first : v.convert t = .ok a)
    (second : w.convert t = .ok b) : a.Alike b := by
  cases h.cases with
  | same =>
    cases Except.ok.inj (first.symm.trans second)
    exact .refl _
  | arrays items =>
    cases t with
    | array =>
      cases first
      cases second
      exact items
    | resultSet =>
      cases first
      cases second
      rfl
    | _ => cases first
  | resultSets rows =>
    cases t with
    | array =>
      cases first
      cases second
      exact ⟨rows, trivial⟩
    | resultSet =>
      cases first
      cases second
      exact rows
    | _ => cases first

end Operators

end Value

namespace Collation

variable {c : Collation}

mutual

theorem compare_alike_left : ∀ {v w : Value}, v.Alike w → ∀ b, c.compare v b = c.compare w b
  | .array xs, w, h => by
    intro b
    cases h.cases with
    | same => rfl
    | arrays items =>
      cases b with
      | array ys => exact compareItems_alike_left items ys
      | _ => rfl
  | .resultSet _ _, w, h => by
    intro b
    cases h.cases with
    | same => rfl
    | resultSets rows =>
      cases b with
      | resultSet d zs => exact congrArg (Ord.compare · zs.length) rows
      | _ => rfl
  | .null, _, h | .boolean _, _, h | .smallint _, _, h | .integer _, _, h | .bigint _, _, h
  | .decimal _, _, h | .real _, _, h | .double _, _, h | .char _, _, h | .varchar _, _, h | .clob _, _, h
  | .varbinary _, _, h | .blob _, _, h | .date _, _, h | .time _, _, h | .timestamp _, _, h | .xml _, _, h
  | .object _, _, h => by
    cases h
    exact fun _ => rfl

theorem compareItems_alike_left : ∀ {vs ws : List Value}, Value.AlikeItems vs ws →
    ∀ ys, c.compareItems vs ys = c.compareItems ws ys
  | [], [], _, _ => rfl
  | _ :: _, _ :: _, _, [] => rfl
  | v :: r, w :: s, h, y :: ys => by
    have first := compare_alike_left h.1 y
    have rest := compareItems_alike_left h.2 ys
    simp only [compareItems]
    rw [first, rest]
  | [], _ :: _, h, _ | _ :: _, [], h, _ => nomatch h

end

/-- Values compare with each other as those that they are like. -/
theorem compare_alike {v w v' w' : Value} (h : v.Alike w) (h' : v'.Alike w') :
    c.compare v v' = c.compare w w' := by
  rw [compare_alike_left h, c.compare_swap w v', compare_alike_left h', ← c.compare_swap w w']

theorem compare_self (v : Value) : c.compare v v = .eq := by
  have swapped := c.compare_swap v v
  cases order : c.compare v v with
  | eq => rfl
  | lt | gt =>
    rw [order] at swapped
    cases swapped

theorem compare_of_alike {v w : Value} (h : v.Alike w) : c.compare v w = .eq := by
  rw [compare_alike h (.refl w)]
  exact c.compare_self w

section Operators

variable {v w v' w' a b : Value}

theorem orderBy_alike (h : v.Alike w) (h' : v'.Alike w') {o o' : Ordering}
    (first : Value.orderBy c.compare v v' = .ok o) (second : Value.orderBy c.compare w w' = .ok o') :
    o = o' := by
  simp only [Value.orderBy, h.isCharacter, h'.isCharacter, h.type, h'.type] at first second
  cases left : w.isCharacter <;> cases right : w'.isCharacter <;> simp only [left, right] at first second
  · rw [compare_alike h h'] at first
    exact Except.ok.inj (first.symm.trans second)
  · obtain ⟨x, converted, rest⟩ := bind_eq_ok.1 first
    obtain ⟨y, converted', rest'⟩ := bind_eq_ok.1 second
    have like := h'.convert (Value.convertOrFail_eq_ok.1 converted) (Value.convertOrFail_eq_ok.1 converted')
    cases rest
    cases rest'
    exact compare_alike h like
  · obtain ⟨x, converted, rest⟩ := bind_eq_ok.1 first
    obtain ⟨y, converted', rest'⟩ := bind_eq_ok.1 second
    have like := h.convert (Value.convertOrFail_eq_ok.1 converted) (Value.convertOrFail_eq_ok.1 converted')
    cases rest
    cases rest'
    exact compare_alike like h'
  · rw [compare_alike h h'] at first
    exact Except.ok.inj (first.symm.trans second)

/-- The answer of an operator goes by the nulls and the order. -/
theorem compareBy_of_orderBy {cmp : Value → Value → Ordering} {op : BinaryOp} (left : v.isNull = w.isNull)
    (right : v'.isNull = w'.isNull)
    (orders : ∀ o o', Value.orderBy cmp v v' = .ok o → Value.orderBy cmp w w' = .ok o' → o = o')
    (first : Value.compareBy cmp op v v' = .ok a) (second : Value.compareBy cmp op w w' = .ok b) : a = b := by
  simp only [Value.compareBy, left, right] at first second
  split at first
  · next absent =>
    rw [if_pos absent] at second
    exact Except.ok.inj (first.symm.trans second)
  · next present =>
    rw [if_neg present] at second
    obtain ⟨o, ordered, rest⟩ := bind_eq_ok.1 first
    obtain ⟨o', ordered', rest'⟩ := bind_eq_ok.1 second
    cases orders o o' ordered ordered'
    cases accepts : op.accepts? o with
    | none =>
      simp only [accepts] at rest
      cases rest
    | some p =>
      simp only [accepts] at rest rest'
      cases rest
      cases rest'
      rfl

theorem compareBy_alike {op : BinaryOp} (h : v.Alike w) (h' : v'.Alike w')
    (first : Value.compareBy c.compare op v v' = .ok a) (second : Value.compareBy c.compare op w w' = .ok b) :
    a = b :=
  compareBy_of_orderBy h.isNull h'.isNull (fun _ _ => orderBy_alike h h') first second

end Operators

end Collation

end SqlEngine
