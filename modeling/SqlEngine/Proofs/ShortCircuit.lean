import SqlEngine.Proofs.MembershipVerdicts
import SqlEngine.Proofs.TypeSoundness

/-!
# Short-circuit evaluation

A connective looks at its right side only where the left one leaves the answer open. Two ways to compute
an outcome are compared by the condition under which the second one gets the value of the first.
-/

namespace SqlEngine

theorem Truth.disjoin_true (t : Truth) : t.toValue.disjoin (.boolean true) = .ok (.boolean true) := by
  cases t <;> rfl

namespace Value

theorem same_boolean {v : Value} {b : Bool} : v.same (.boolean b) = true ↔ v = .boolean b := by
  refine ⟨eq_boolean_of_same, ?_⟩
  rintro rfl
  cases b <;> rfl

theorem disjoin_comm (l r : Value) {v : Value} (h : l.disjoin r = .ok v) : r.disjoin l = .ok v := by
  obtain ⟨t, left, rest⟩ := bind_eq_ok.1 h
  obtain ⟨u, right, rest⟩ := bind_eq_ok.1 rest
  refine bind_eq_ok.2 ⟨u, right, bind_eq_ok.2 ⟨t, left, ?_⟩⟩
  rw [Truth.or_comm]
  exact rest

theorem disjoin_true {l v : Value} (h : l.disjoin (.boolean true) = .ok v) : v = .boolean true := by
  obtain ⟨t, _, rest⟩ := bind_eq_ok.1 h
  cases rest
  cases t <;> rfl

end Value

namespace Outcome

variable {x x' y y' : Outcome} {v : Value}

/-- A connective of which the left side alone decides if it is `stop`. -/
def connective (stop : Bool) (f : Value → Value → Outcome) (left right : Outcome) : Outcome := do
  let l ← left
  if l.same (.boolean stop) then return l else f l (← right)

theorem connective_eq_ok (stop : Bool) (f : Value → Value → Outcome) :
    connective stop f x y = .ok v ↔
      (x = .ok (.boolean stop) ∧ v = .boolean stop) ∨
        ∃ l r, x = .ok l ∧ l ≠ .boolean stop ∧ y = .ok r ∧ f l r = .ok v := by
  constructor
  · intro h
    obtain ⟨l, left, rest⟩ := bind_eq_ok.1 h
    by_cases decided : l.same (.boolean stop) = true
    · rw [if_pos decided] at rest
      obtain rfl := Value.same_boolean.1 decided
      exact .inl ⟨left, (pure_eq_ok.1 rest).symm⟩
    · rw [if_neg decided] at rest
      obtain ⟨r, right, rest⟩ := bind_eq_ok.1 rest
      exact .inr ⟨l, r, left, fun h => decided (Value.same_boolean.2 h), right, rest⟩
  · rintro (⟨left, rfl⟩ | ⟨l, r, left, opened, right, rest⟩)
    · refine bind_eq_ok.2 ⟨_, left, ?_⟩
      rw [if_pos (Value.same_boolean.2 rfl)]
      rfl
    · refine bind_eq_ok.2 ⟨l, left, ?_⟩
      rw [if_neg fun h => opened (Value.same_boolean.1 h)]
      exact bind_eq_ok.2 ⟨r, right, rest⟩

theorem disjoin_eq_ok :
    disjoin x y = .ok v ↔
      (x = .ok (.boolean true) ∧ v = .boolean true) ∨
        ∃ l r, x = .ok l ∧ l ≠ .boolean true ∧ y = .ok r ∧ l.disjoin r = .ok v :=
  connective_eq_ok true (·.disjoin ·)

/-- The left side of a disjunction that has a value has one. -/
theorem left_of_disjoin (h : disjoin x y = .ok v) : ∃ l, x = .ok l := by
  obtain ⟨l, left, _⟩ := bind_eq_ok.1 h
  exact ⟨l, left⟩

/-- A truth in a disjunction with an outcome, in whichever order, adds to its value; where the outcome has
none, the truth has decided alone. -/
theorem disjoin_either {t : Truth} (agrees : ∀ a, x = .ok a → a = t.toValue)
    (truth : ∀ q, y = .ok q → ∃ u : Truth, q = u.toValue)
    (h : disjoin x y = .ok v ∨ disjoin y x = .ok v) :
    (∀ q, y = .ok q → t.toValue.disjoin q = .ok v) ∧
      ((∃ q, y = .ok q) ∨ (t.toValue = .boolean true ∧ v = .boolean true)) := by
  rcases h with h | h
  · rcases disjoin_eq_ok.1 h with ⟨first, rfl⟩ | ⟨l, r, first, _, second, rest⟩
    · have holds := agrees _ first
      constructor
      · intro q second
        obtain ⟨u, rfl⟩ := truth q second
        rw [← holds]
        exact Value.disjoin_comm _ _ u.disjoin_true
      · exact .inr ⟨holds.symm, rfl⟩
    · obtain rfl := agrees l first
      constructor
      · intro q again
        obtain rfl := Except.ok.inj (second.symm.trans again)
        exact rest
      · exact .inl ⟨r, second⟩
  · rcases disjoin_eq_ok.1 h with ⟨second, rfl⟩ | ⟨r, l, second, _, first, rest⟩
    · constructor
      · intro q again
        obtain rfl := Except.ok.inj (second.symm.trans again)
        exact t.disjoin_true
      · exact .inl ⟨_, second⟩
    · obtain rfl := agrees l first
      constructor
      · intro q again
        obtain rfl := Except.ok.inj (second.symm.trans again)
        exact Value.disjoin_comm r _ rest
      · exact .inl ⟨r, second⟩

/-- Where both have a value, it is the same. -/
def Agree (x y : Outcome) : Prop := ∀ v w, x = .ok v → y = .ok w → w = v

namespace Agree

theorem refl (x : Outcome) : Agree x x :=
  fun _ _ h h' => Except.ok.inj (h'.symm.trans h)

theorem connective (stop : Bool) (f : Value → Value → Outcome) (onLeft : Agree x x')
    (onRight : Agree y y') : Agree (Outcome.connective stop f x y) (Outcome.connective stop f x' y') := by
  intro v w h h'
  rcases (connective_eq_ok stop f).1 h with ⟨left, rfl⟩ | ⟨l, r, left, opened, right, rest⟩
  · rcases (connective_eq_ok stop f).1 h' with ⟨_, rfl⟩ | ⟨l', r', left', opened', _, _⟩
    · rfl
    · exact absurd (onLeft _ l' left left') opened'
  · rcases (connective_eq_ok stop f).1 h' with ⟨left', _⟩ | ⟨l', r', left', _, right', rest'⟩
    · exact absurd (onLeft l _ left left').symm opened
    · obtain rfl := onLeft l l' left left'
      obtain rfl := onRight r r' right right'
      exact Except.ok.inj (rest'.symm.trans rest)

/-- In both orders a disjunction has the same value. -/
theorem swap (onLeft : Agree x x') (onRight : Agree y y') :
    Agree (Outcome.disjoin x y) (Outcome.disjoin y' x') := by
  intro v w h h'
  rcases disjoin_eq_ok.1 h with ⟨left, rfl⟩ | ⟨l, r, left, opened, right, rest⟩
  · rcases disjoin_eq_ok.1 h' with ⟨_, rfl⟩ | ⟨r, l, _, _, left', rest⟩
    · rfl
    · obtain rfl := onLeft _ l left left'
      exact Value.disjoin_true rest
  · rcases disjoin_eq_ok.1 h' with ⟨right', rfl⟩ | ⟨r', l', right', _, left', rest'⟩
    · obtain rfl := onRight r _ right right'
      exact (Value.disjoin_true rest).symm
    · obtain rfl := onLeft l l' left left'
      obtain rfl := onRight r r' right right'
      exact Except.ok.inj (rest'.symm.trans (Value.disjoin_comm _ _ rest))

end Agree

/-- Where the first outcome has a value, the second one has it under this condition, and no value
otherwise. -/
def Tracks (x y : Outcome) (K : Prop) : Prop :=
  ∀ v, x = .ok v → (K → y = .ok v) ∧ ∀ w, y = .ok w → K

namespace Tracks

variable {K K' : Prop}

theorem refl (x : Outcome) : Tracks x x True :=
  fun _ h => ⟨fun _ => h, fun _ _ => trivial⟩

theorem of_refines (h : Refines x y) : Tracks x y True :=
  fun v found => ⟨fun _ => h v found, fun _ _ => trivial⟩

theorem shallower (h : Tracks x' y K) (deeper : Refines x x') : Tracks x y K :=
  fun v found => h v (deeper v found)

theorem congr (h : Tracks x y K) (same : K ↔ K') : Tracks x y K' :=
  fun v found => ⟨fun k => (h v found).1 (same.2 k), fun w got => same.1 ((h v found).2 w got)⟩

theorem connective (stop : Bool) (f : Value → Value → Outcome) (onLeft : Tracks x x' K)
    (onRight : Tracks y y' K') :
    Tracks (Outcome.connective stop f x y) (Outcome.connective stop f x' y')
      (K ∧ (x ≠ .ok (.boolean stop) → K')) := by
  intro v h
  rcases (connective_eq_ok stop f).1 h with ⟨left, rfl⟩ | ⟨l, r, left, opened, right, rest⟩
  · refine ⟨fun k => ?_, fun w got => ?_⟩
    · exact (connective_eq_ok stop f).2 (.inl ⟨(onLeft _ left).1 k.1, rfl⟩)
    · obtain ⟨l', left', _⟩ := bind_eq_ok.1 got
      exact ⟨(onLeft _ left).2 l' left', fun opened => absurd left opened⟩
  · refine ⟨fun k => ?_, fun w got => ?_⟩
    · have open' : x ≠ .ok (.boolean stop) := fun same => opened (Except.ok.inj (left.symm.trans same))
      exact (connective_eq_ok stop f).2
        (.inr ⟨l, r, (onLeft l left).1 k.1, opened, (onRight r right).1 (k.2 open'), rest⟩)
    · obtain ⟨l', left', _⟩ := bind_eq_ok.1 got
      have k : K := (onLeft l left).2 l' left'
      refine ⟨k, fun _ => ?_⟩
      have same : l' = l := Except.ok.inj (left'.symm.trans ((onLeft l left).1 k))
      rcases (connective_eq_ok stop f).1 got with ⟨decided, _⟩ | ⟨_, r', _, _, right', _⟩
      · exact absurd (same.symm.trans (Except.ok.inj (left'.symm.trans decided))) opened
      · exact (onRight r right).2 r' right'

theorem conjoin (onLeft : Tracks x x' K) (onRight : Tracks y y' K') :
    Tracks (Outcome.conjoin x y) (Outcome.conjoin x' y') (K ∧ (x ≠ .ok (.boolean false) → K')) :=
  connective false (·.conjoin ·) onLeft onRight

theorem disjoin (onLeft : Tracks x x' K) (onRight : Tracks y y' K') :
    Tracks (Outcome.disjoin x y) (Outcome.disjoin x' y') (K ∧ (x ≠ .ok (.boolean true) → K')) :=
  connective true (·.disjoin ·) onLeft onRight

/-- Turning a disjunction around costs its value where the side that now comes first has none. -/
theorem swap (onRight : Tracks y y' True) (truth : ∀ r, y' = .ok r → ∃ t : Truth, r = t.toValue) :
    Tracks (Outcome.disjoin x y) (Outcome.disjoin y' x)
      (x = .ok (.boolean true) → ∃ r, y' = .ok r) := by
  intro v h
  rcases disjoin_eq_ok.1 h with ⟨left, rfl⟩ | ⟨l, r, left, opened, right, rest⟩
  · refine ⟨fun k => ?_, fun w got _ => left_of_disjoin got⟩
    obtain ⟨r, first⟩ := k left
    obtain ⟨t, rfl⟩ := truth r first
    by_cases decided : t.toValue = .boolean true
    · exact disjoin_eq_ok.2 (.inl ⟨first.trans (congrArg _ decided), rfl⟩)
    · exact disjoin_eq_ok.2
        (.inr ⟨_, _, first, decided, left, t.disjoin_true⟩)
  · refine ⟨fun _ => ?_, fun w got same => ?_⟩
    · have first := (onRight r right).1 trivial
      by_cases decided : r = .boolean true
      · obtain rfl := decided
        exact disjoin_eq_ok.2 (.inl ⟨first, Value.disjoin_true rest⟩)
      · exact disjoin_eq_ok.2 (.inr ⟨r, l, first, decided, left, Value.disjoin_comm l r rest⟩)
    · exact absurd (Except.ok.inj (left.symm.trans same)) opened

end Tracks

end Outcome

end SqlEngine
