import SqlEngine.Engine.Basic
import SqlEngine.Value.Comparison

/-!
# Successful computations

A computation that ends well is taken apart into steps that end well.
-/

namespace SqlEngine

section Except

variable {ε δ α β : Type}

theorem bind_eq_ok {x : Except ε α} {f : α → Except ε β} {b : β} :
    (x >>= f) = .ok b ↔ ∃ a, x = .ok a ∧ f a = .ok b := by
  cases x with
  | error e =>
    constructor
    · intro h
      cases h
    · rintro ⟨a, h, _⟩
      cases h
  | ok a =>
    constructor
    · intro h
      exact ⟨a, rfl, h⟩
    · rintro ⟨a, h, rest⟩
      cases h
      exact rest

theorem bind_eq_error {x : Except ε α} {f : α → Except ε β} {e : ε} :
    (x >>= f) = .error e ↔ x = .error e ∨ ∃ a, x = .ok a ∧ f a = .error e := by
  cases x with
  | error d =>
    constructor
    · intro h
      cases h
      exact .inl rfl
    · rintro (h | ⟨a, h, _⟩)
      · cases h
        rfl
      · cases h
  | ok a =>
    constructor
    · intro h
      exact .inr ⟨a, rfl, h⟩
    · rintro (h | ⟨a, h, rest⟩)
      · cases h
      · cases h
        exact rest

theorem mapM_eq_error {f : α → Except ε β} {xs : List α} {e : ε} (h : xs.mapM f = .error e) :
    ∃ x ∈ xs, f x = .error e := by
  induction xs with
  | nil => cases h
  | cons x r ih =>
    rw [List.mapM_cons] at h
    rcases bind_eq_error.1 h with first | ⟨y, _, h⟩
    · exact ⟨x, List.mem_cons_self, first⟩
    · rcases bind_eq_error.1 h with rest | ⟨ys, _, h⟩
      · obtain ⟨z, listed, failed⟩ := ih rest
        exact ⟨z, List.mem_cons_of_mem x listed, failed⟩
      · cases h

theorem map_eq_ok {x : Except ε α} {f : α → β} {b : β} :
    x.map f = .ok b ↔ ∃ a, x = .ok a ∧ f a = b := by
  cases x with
  | error e => simp [Except.map]
  | ok a => simp [Except.map]

theorem mapError_eq_ok {x : Except ε α} {f : ε → δ} {a : α} :
    x.mapError f = .ok a ↔ x = .ok a := by
  constructor
  · intro h
    cases x with
    | error e => cases h
    | ok b =>
      cases h
      rfl
  · rintro rfl
    rfl

theorem pure_eq_ok {a b : α} : (pure a : Except ε α) = .ok b ↔ a = b := by
  simp [pure, Except.pure]

end Except

theorem Value.convertOrFail_eq_ok {v w : Value} {t : DataType} :
    v.convertOrFail t = .ok w ↔ v.convert t = .ok w :=
  mapError_eq_ok

namespace Run

variable {α β : Type}

theorem bind_ok {r : Run α} {f : α → Run β} {e g : Engine} {b : β} :
    (r >>= f).outcome e = (.ok b, g) ↔
      ∃ a e', r.outcome e = (.ok a, e') ∧ (f a).outcome e' = (.ok b, g) := by
  rw [outcome_bind]
  generalize r.outcome e = o
  obtain ⟨x, e'⟩ := o
  cases x with
  | error x =>
    constructor
    · intro h
      cases h
    · rintro ⟨a, e', h, _⟩
      cases h
  | ok a =>
    constructor
    · intro h
      exact ⟨a, e', rfl, h⟩
    · rintro ⟨a, e', h, rest⟩
      cases h
      exact rest

theorem bind_error {r : Run α} {f : α → Run β} {e g : Engine} {x : EngineError} :
    (r >>= f).outcome e = (.error x, g) ↔ r.outcome e = (.error x, g) ∨
      ∃ a e', r.outcome e = (.ok a, e') ∧ (f a).outcome e' = (.error x, g) := by
  rw [outcome_bind]
  generalize r.outcome e = o
  obtain ⟨y, e'⟩ := o
  cases y with
  | error y =>
    constructor
    · intro h
      cases h
      exact .inl rfl
    · rintro (h | ⟨a, e', h, _⟩)
      · cases h
        rfl
      · cases h
  | ok a =>
    constructor
    · intro h
      exact .inr ⟨a, e', rfl, h⟩
    · rintro (h | ⟨a, e', h, rest⟩)
      · cases h
      · cases h
        exact rest

theorem pure_ok {a b : α} {e g : Engine} :
    (pure a : Run α).outcome e = (.ok b, g) ↔ a = b ∧ e = g := by
  simp

theorem ofExcept_ok {x : Except EngineError α} {a : α} {e g : Engine} :
    (ofExcept x).outcome e = (.ok a, g) ↔ x = .ok a ∧ e = g := by
  simp

theorem ofExcept_error {x : Except EngineError α} {y : EngineError} {e g : Engine} :
    (ofExcept x).outcome e = (.error y, g) ↔ x = .error y ∧ e = g := by
  simp

end Run

namespace RunWith

variable {σ α β : Type} {s t : σ} {e g : Engine}

theorem bind_ok {p : RunWith σ α} {q : α → RunWith σ β} {b : β} :
    (p >>= q).outcome s e = (.ok b, t, g) ↔
      ∃ a s' e', p.outcome s e = (.ok a, s', e') ∧ (q a).outcome s' e' = (.ok b, t, g) := by
  rw [outcome_bind]
  generalize p.outcome s e = o
  obtain ⟨x, s', e'⟩ := o
  cases x with
  | error x =>
    constructor
    · intro h
      cases h
    · rintro ⟨a, s', e', h, _⟩
      cases h
  | ok a =>
    constructor
    · intro h
      exact ⟨a, s', e', rfl, h⟩
    · rintro ⟨a, s', e', h, rest⟩
      cases h
      exact rest

theorem bind_error {p : RunWith σ α} {q : α → RunWith σ β} {x : EngineError} :
    (p >>= q).outcome s e = (.error x, t, g) ↔ p.outcome s e = (.error x, t, g) ∨
      ∃ a s' e', p.outcome s e = (.ok a, s', e') ∧ (q a).outcome s' e' = (.error x, t, g) := by
  rw [outcome_bind]
  generalize p.outcome s e = o
  obtain ⟨y, s', e'⟩ := o
  cases y with
  | error y =>
    constructor
    · intro h
      cases h
      exact .inl rfl
    · rintro (h | ⟨a, s', e', h, _⟩)
      · cases h
        rfl
      · cases h
  | ok a =>
    constructor
    · intro h
      exact .inr ⟨a, s', e', rfl, h⟩
    · rintro (h | ⟨a, s', e', h, rest⟩)
      · cases h
      · cases h
        exact rest

theorem onEngine_ok {r : Run α} {a : α} :
    (onEngine r).outcome s e = (.ok a, t, g) ↔ r.outcome e = (.ok a, g) ∧ s = t := by
  rw [outcome_onEngine]
  generalize r.outcome e = o
  obtain ⟨x, e'⟩ := o
  constructor
  · intro h
    cases h
    exact ⟨rfl, rfl⟩
  · rintro ⟨h, rfl⟩
    cases h
    rfl

theorem onEngine_error {r : Run α} {x : EngineError} :
    (onEngine r).outcome s e = (.error x, t, g) ↔ r.outcome e = (.error x, g) ∧ s = t := by
  rw [outcome_onEngine]
  generalize r.outcome e = o
  obtain ⟨y, e'⟩ := o
  constructor
  · intro h
    cases h
    exact ⟨rfl, rfl⟩
  · rintro ⟨h, rfl⟩
    cases h
    rfl

end RunWith

end SqlEngine
