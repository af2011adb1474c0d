import SqlEngine.Eval.Typing
import SqlEngine.Proofs.Effects
import SqlEngine.Proofs.Outcomes

/-!
# What the registry keeps

An alias that was loaded keeps its candidates through typing and evaluation, and every name stays
with its alias. So a call that was bound once binds to the same candidate from then on.
-/

namespace SqlEngine

/-- All names stay, and what an alias was loaded with stays. -/
structure Retains (e f : Engine) : Prop where
  names : f.names = e.names
  loaded : ∀ {place a cs}, e.alias? place = some a → a.candidates = some cs →
    ∃ b, f.alias? place = some b ∧ b.candidates = some cs

/-- The call by this name and number of arguments binds to a candidate of a loaded alias. -/
def Engine.Binds (e : Engine) (name : String) (count : Nat) (c : Candidate) : Prop :=
  ∃ place a cs, e.place? name = some place ∧ e.alias? place = some a ∧ a.candidates = some cs ∧
    Candidate.select? cs count = some c

theorem retains_of_registry {e f : Engine} (names : f.names = e.names)
    (aliases : f.aliases = e.aliases) : Retains e f := by
  refine ⟨names, fun {place a cs} found kept => ⟨a, ?_, kept⟩⟩
  rw [Engine.alias?, aliases]
  exact found

theorem Retains.trans {e f g : Engine} (first : Retains e f) (second : Retains f g) :
    Retains e g := by
  refine ⟨second.names.trans first.names, fun found kept => ?_⟩
  obtain ⟨b, there, keeps⟩ := first.loaded found kept
  exact second.loaded there keeps

theorem Engine.Binds.retained {e f : Engine} {name : String} {count : Nat} {c : Candidate}
    (h : e.Binds name count c) (kept : Retains e f) : f.Binds name count c := by
  obtain ⟨place, a, cs, named, found, loaded, selected⟩ := h
  obtain ⟨b, there, keeps⟩ := kept.loaded found loaded
  refine ⟨place, b, cs, ?_, there, keeps, selected⟩
  rw [Engine.place?, kept.names]
  exact named

theorem retains_writes : WriteRelation Retains where
  refl _ := retains_of_registry rfl rfl
  trans := Retains.trans
  setSession _ _ := retains_of_registry rfl rfl
  journal _ _ := retains_of_registry rfl rfl

/-- What loading leaves in the place of the alias: its candidates if there are any. -/
theorem candidates_load {library : Library} {compiler : Compiler} {a : Alias} {cs : List Candidate}
    (h : (a.load library compiler).1 = .ok cs) :
    (a.load library compiler).2.2.candidates = some cs := by
  simp only [Alias.load] at h ⊢
  cases loaded : a.candidates with
  | some ds =>
    simp only [loaded] at h ⊢
    cases h
    rfl
  | none =>
    simp only [loaded] at h ⊢
    split at h
    · cases h
      rfl
    · cases h

theorem load_of_candidates {library : Library} {compiler : Compiler} {a : Alias}
    {cs : List Candidate} (h : a.candidates = some cs) :
    a.load library compiler = (.ok cs, compiler, a) := by
  simp only [Alias.load]
  simp only [h]

theorem load_of_unloaded {library : Library} {compiler : Compiler} {a : Alias}
    (fresh : a.candidates = none) :
    (a.load library compiler).1 = (a.resolve library compiler).1 := by
  simp only [Alias.load, fresh]
  generalize a.resolve library compiler = o
  obtain ⟨x, compiler⟩ := o
  cases x <;> rfl

theorem retains_setAlias {e f : Engine} {place : Nat} {a b : Alias} (names : f.names = e.names)
    (aliases : f.aliases = e.aliases) (found : e.alias? place = some a)
    (keeps : ∀ cs, a.candidates = some cs → b.candidates = some cs) :
    Retains e (f.setAlias place b) := by
  refine ⟨names, fun {other c cs} there loaded => ?_⟩
  have bound : place < e.aliases.length := (List.getElem?_eq_some_iff.1 found).1
  by_cases same : other = place
  · subst same
    rw [found] at there
    cases there
    refine ⟨b, ?_, keeps cs loaded⟩
    simp only [Engine.alias?, Engine.setAlias, aliases]
    rw [List.getElem?_set_self bound]
  · refine ⟨c, ?_, loaded⟩
    simp only [Engine.alias?, Engine.setAlias, aliases]
    rw [List.getElem?_set_ne (Ne.symm same)]
    exact there

theorem outcome_load (place : Nat) (a : Alias) (e : Engine) :
    (Run.load place a).outcome e =
      match a.load e.library e.compiler with
      | (.ok cs, compiler, b) => (.ok cs, { e with compiler := compiler }.setAlias place b)
      | (.error x, compiler, _) => (.error x, { e with compiler := compiler }) := by
  simp only [Run.load, Run.loadAlias]
  rw [Run.outcome_bind, Run.outcome_ofOutcome]
  cases a.load e.library e.compiler with
  | mk found rest =>
    obtain ⟨compiler, b⟩ := rest
    cases found <;> rfl

theorem retains_load {e : Engine} {place : Nat} {a : Alias} (found : e.alias? place = some a) :
    Retains e ((Run.load place a).outcome e).2 := by
  rw [outcome_load]
  have keeps (cs : List Candidate) (loaded : a.candidates = some cs) :
      (a.load e.library e.compiler).2.2.candidates = some cs := by
    rw [load_of_candidates loaded]
    exact loaded
  generalize a.load e.library e.compiler = o at keeps
  obtain ⟨x, compiler, b⟩ := o
  cases x with
  | error x => exact retains_of_registry rfl rfl
  | ok cs => exact retains_setAlias rfl rfl found keeps

/-- A name without an alias leaves everything as it is. -/
theorem outcome_resolve (name : String) (count : Nat) (e : Engine) :
    (∃ place a, e.place? name = some place ∧ e.alias? place = some a ∧
      (Run.resolve name count).outcome e = (Run.findMethod place a count).outcome e) ∨
      e.findAlias? name = none ∧
        (Run.resolve name count).outcome e = (.error (.functionNotFound name), e) := by
  simp only [Run.resolve, Engine.findAlias?]
  rw [Run.outcome_bind, Run.outcome_get]
  cases named : e.place? name with
  | none => exact .inr ⟨rfl, by simp [named]⟩
  | some place =>
    cases found : e.alias? place with
    | none => exact .inr ⟨found, by simp [named, found]⟩
    | some a => exact .inl ⟨place, a, rfl, found, by simp [named, found]⟩

/-- What holds of loading an alias holds of finding a method. -/
theorem relates_findMethod {R : Engine → Engine → Prop} {e : Engine} {place : Nat} {a : Alias}
    (load : R e ((Run.load place a).outcome e).2) (count : Nat) :
    R e ((Run.findMethod place a count).outcome e).2 := by
  simp only [Run.findMethod]
  rw [Run.outcome_bind]
  generalize (Run.load place a).outcome e = o at load
  obtain ⟨x, f⟩ := o
  cases x <;> exact load

/-- It holds of binding a name, too: where there is no alias to load, the engine stays as it is. -/
theorem relates_resolve {R : Engine → Engine → Prop} (order : EffectOrder R)
    (load : ∀ e place a, e.alias? place = some a → R e ((Run.load place a).outcome e).2)
    (name : String) (count : Nat) : (Run.resolve name count).Relates R := by
  intro e
  rcases outcome_resolve name count e with ⟨place, a, _, found, outcome⟩ | ⟨_, outcome⟩
  · rw [outcome]
    exact relates_findMethod (load e place a found) count
  · rw [outcome]
    exact order.refl e

theorem retains_calls (session : Nat) : CallRelation session Retains :=
  retains_writes.updates.calls session
    (relates_resolve retains_writes.toEffectOrder fun _ _ _ found => retains_load found)

theorem select_eq_ok {a : Alias} {cs : List Candidate} {count : Nat} {c : Candidate} :
    a.select cs count = .ok c ↔ Candidate.select? cs count = some c := by
  simp only [Alias.select]
  cases Candidate.select? cs count <;> simp

/-- A call that could be bound stays bound. -/
theorem binds_of_resolve {name : String} {count : Nat} {e f : Engine} {c : Candidate}
    (h : (Run.resolve name count).outcome e = (.ok c, f)) : f.Binds name count c := by
  rcases outcome_resolve name count e with ⟨place, a, named, found, outcome⟩ | ⟨_, outcome⟩
  · rw [outcome] at h
    obtain ⟨cs, g, loads, selects⟩ := Run.bind_ok.1 h
    obtain ⟨selected, rfl⟩ := Run.ofExcept_ok.1 selects
    rw [outcome_load] at loads
    have kept := @candidates_load e.library e.compiler a
    generalize a.load e.library e.compiler = o at loads kept
    obtain ⟨x, compiler, b⟩ := o
    cases x with
    | error x => cases loads
    | ok ds =>
      cases loads
      have bound : place < e.aliases.length := (List.getElem?_eq_some_iff.1 found).1
      exact ⟨place, b, cs, named, List.getElem?_set_self bound, kept rfl, select_eq_ok.1 selected⟩
  · rw [outcome] at h
    cases h

theorem resolve_of_binds {name : String} {count : Nat} {e : Engine} {c : Candidate}
    (h : e.Binds name count c) : ((Run.resolve name count).outcome e).1 = .ok c := by
  obtain ⟨place, a, cs, named, found, loaded, selected⟩ := h
  rcases outcome_resolve name count e with ⟨place', a', named', found', outcome⟩ | ⟨missing, _⟩
  · rw [named] at named'
    cases named'
    rw [found] at found'
    cases found'
    rw [outcome]
    simp only [Run.findMethod]
    rw [Run.outcome_bind, outcome_load, load_of_candidates loaded]
    exact select_eq_ok.2 selected
  · simp only [Engine.findAlias?] at missing
    rw [named] at missing
    have there := found.symm.trans missing
    cases there

/-- The alias cannot be loaded any more. -/
def Alias.Gone (a : Alias) : Prop := a.target = none ∧ a.candidates = none

theorem load_of_gone {a : Alias} (gone : a.Gone) (library : Library) (compiler : Compiler) :
    a.load library compiler = (.error (.functionNotFound a.name), compiler, a) := by
  simp only [Alias.load, gone.2, Alias.resolve, gone.1]

/-- The candidate that a call binds to for whoever holds the alias at a place. -/
def Run.findHeld (place count : Nat) : Run Candidate := do
  match (← get).alias? place with
  | none => throw (.functionNotFound "")
  | some a => findMethod place a count

theorem outcome_findHeld {place : Nat} {a : Alias} {e : Engine} (found : e.alias? place = some a)
    (count : Nat) : (Run.findHeld place count).outcome e = (Run.findMethod place a count).outcome e := by
  simp only [Run.findHeld]
  rw [Run.outcome_bind, Run.outcome_get]
  simp only [found]

theorem findHeld_of_gone {place : Nat} {a : Alias} {e : Engine} (found : e.alias? place = some a)
    (gone : a.Gone) (count : Nat) :
    ((Run.findHeld place count).outcome e).1 = .error (.functionNotFound a.name) := by
  rw [outcome_findHeld found, Run.findMethod, Run.outcome_bind, outcome_load, load_of_gone gone]

theorem relates_findHeld {R : Engine → Engine → Prop} (order : EffectOrder R)
    (load : ∀ e place a, e.alias? place = some a → R e ((Run.load place a).outcome e).2)
    (place count : Nat) : (Run.findHeld place count).Relates R := by
  intro e
  cases found : e.alias? place with
  | some a =>
    rw [outcome_findHeld found]
    exact relates_findMethod (load e place a found) count
  | none =>
    simp only [Run.findHeld]
    rw [Run.outcome_bind, Run.outcome_get]
    simp only [found]
    exact order.refl e

end SqlEngine
