import SqlEngine.Proofs.Retention

/-!
# Effects on the registry

What creating and dropping an alias can do to the registry, and that evaluation does nothing to it but
load aliases.
-/

namespace SqlEngine

/-- The alias without what was loaded. -/
def Alias.unloaded (a : Alias) : Alias := { a with candidates := none }

/-- An alias as it is made. -/
def Alias.fresh (name : String) (id : UInt32) (target : AliasTarget) : Alias where
  schema := Engine.defaultSchema
  id := id
  name := name
  target := some target

theorem map_set_same {α β : Type} {f : α → β} {l : List α} {i : Nat} {a b : α}
    (there : l[i]? = some a) (same : f b = f a) : (l.set i b).map f = l.map f := by
  obtain ⟨bound, rfl⟩ := List.getElem?_eq_some_iff.1 there
  have bound' : i < (l.map f).length := by rwa [List.length_map]
  have kept : (l.map f)[i] = f l[i] := List.getElem_map f
  rw [List.map_set, same, ← kept, List.set_getElem_self]

theorem unloaded_load (library : Library) (compiler : Compiler) (a : Alias) :
    (a.load library compiler).2.2.unloaded = a.unloaded := by
  simp only [Alias.load]
  split
  · rfl
  · split <;> rfl

theorem compile_error {compiler : Compiler} {className source : String} {x : EngineError}
    (h : (compiler.compile className source).1 = .error (.engine x)) (name : String) :
    x ≠ .aliasExists name := by
  rw [Compiler.compile] at h
  split at h
  · cases h
    exact nofun
  · split at h
    · cases h
    · split at h <;> cases h

/-- What finding methods in a library can fail with. -/
inductive EngineError.IsLookup : EngineError → Prop
  | classNotFound (name : String) : IsLookup (.classNotFound name)
  | duplicateArity (first second : String) : IsLookup (.duplicateArity first second)
  | noMatchingMethod (method className : String) : IsLookup (.noMatchingMethod method className)

theorem class_error {library : Library} {className method : String} {x : EngineError}
    (h : (library.load className >>= fun c => Candidate.ofClass c method) = .error x) : x.IsLookup := by
  rw [Library.load] at h
  split at h
  · next c _ =>
    change Candidate.ofClass c method = .error x at h
    unfold Candidate.ofClass at h
    dsimp only at h
    split at h
    · cases h
      exact .duplicateArity ..
    · split at h
      · cases h
        exact .noMatchingMethod ..
      · cases h
  · cases h
    exact .classNotFound ..

theorem source_error {compiler : Compiler} {className source : String} {x : EngineError}
    (h : (Alias.compile compiler className source).1 = .error x) (name : String) :
    x ≠ .aliasExists name := by
  have fails := @compile_error compiler (Alias.sourceClass className) source
  rw [Alias.compile] at h
  generalize compiler.compile (Alias.sourceClass className) source = o at h fails
  obtain ⟨found, after⟩ := o
  cases found with
  | ok m => cases h
  | error fault =>
    cases fault with
    | engine y =>
      cases h
      exact fails rfl name
    | fault message =>
      rintro rfl
      cases h

theorem resolve_error {library : Library} {compiler : Compiler} {a : Alias} {x : EngineError}
    (h : (a.resolve library compiler).1 = .error x) (name : String) : x ≠ .aliasExists name := by
  rw [Alias.resolve] at h
  cases target : a.target with
  | none =>
    rw [target] at h
    rintro rfl
    cases h
  | some t =>
    rw [target] at h
    cases t with
    | source text => exact source_error h name
    | classMethod className method =>
      rintro rfl
      cases class_error h

/-- Whatever loading fails with, it is not that an alias exists. -/
theorem load_error {library : Library} {compiler : Compiler} {a : Alias} {x : EngineError}
    (h : (a.load library compiler).1 = .error x) : ∀ name, x ≠ .aliasExists name := by
  rw [Alias.load] at h
  cases kept : a.candidates with
  | some candidates =>
    rw [kept] at h
    cases h
  | none =>
    rw [kept] at h
    have fails := @resolve_error library compiler a
    generalize a.resolve library compiler = o at h fails
    obtain ⟨found, after⟩ := o
    cases found with
    | ok candidates => cases h
    | error y =>
      cases h
      exact fails rfl

/-- Names and aliases are the same but for what was loaded, and what cannot be loaded stays so. -/
structure KeepsAliases (e f : Engine) : Prop where
  names : f.names = e.names
  aliases : f.aliases.map Alias.unloaded = e.aliases.map Alias.unloaded
  gone : ∀ {place a}, e.alias? place = some a → a.Gone → f.alias? place = some a

/-- No number was given out either. -/
structure KeepsRegistry (e f : Engine) : Prop extends KeepsAliases e f where
  next : f.nextObject = e.nextObject

theorem keepsAliases_of_same {e f : Engine} (names : f.names = e.names)
    (aliases : f.aliases = e.aliases) : KeepsAliases e f where
  names := names
  aliases := congrArg _ aliases
  gone found _ := by
    rw [Engine.alias?, aliases]
    exact found

theorem keepsRegistry_of_same {e f : Engine} (names : f.names = e.names)
    (aliases : f.aliases = e.aliases) (next : f.nextObject = e.nextObject) : KeepsRegistry e f where
  toKeepsAliases := keepsAliases_of_same names aliases
  next := next

/-- Each alias is where it was. -/
theorem KeepsAliases.alias {e f : Engine} (keeps : KeepsAliases e f) {place : Nat} {a : Alias}
    (found : e.alias? place = some a) : ∃ b, f.alias? place = some b ∧ b.unloaded = a.unloaded := by
  have same := congrArg (·[place]?) keeps.aliases
  simp only [List.getElem?_map] at same
  rw [show e.aliases[place]? = some a from found] at same
  exact Option.map_eq_some_iff.1 same

theorem keepsRegistry_writes : WriteRelation KeepsRegistry where
  refl _ := keepsRegistry_of_same rfl rfl rfl
  trans first second :=
    ⟨⟨second.names.trans first.names, second.aliases.trans first.aliases,
      fun found gone => second.gone (first.gone found gone) gone⟩, second.next.trans first.next⟩
  setSession _ _ := keepsRegistry_of_same rfl rfl rfl
  journal _ _ := keepsRegistry_of_same rfl rfl rfl

theorem keepsRegistry_load {e : Engine} {place : Nat} {a : Alias} (found : e.alias? place = some a) :
    KeepsRegistry e ((Run.load place a).outcome e).2 := by
  rw [outcome_load]
  have bare := unloaded_load e.library e.compiler a
  cases loads : a.load e.library e.compiler with
  | mk x rest =>
    obtain ⟨compiler, b⟩ := rest
    rw [loads] at bare
    cases x with
    | error x => exact keepsRegistry_of_same rfl rfl rfl
    | ok cs =>
      refine ⟨⟨rfl, map_set_same found bare, fun {other c} listed gone => ?_⟩, rfl⟩
      have apart : place ≠ other := by
        rintro rfl
        cases found.symm.trans listed
        rw [load_of_gone gone] at loads
        cases loads
      exact (List.getElem?_set_ne apart).trans listed

theorem keepsRegistry_calls (session : Nat) : CallRelation session KeepsRegistry :=
  keepsRegistry_writes.updates.calls session
    (relates_resolve keepsRegistry_writes.toEffectOrder fun _ _ _ found => keepsRegistry_load found)

/-- What creating an alias can come to: the name is taken and nothing changes; a number is used up for an
alias that cannot be loaded; or the alias is added. -/
inductive Creates (e : Engine) (name : String) (target : Except EngineError AliasTarget) :
    Except EngineError Nat → Engine → Prop
  | refused (taken : (e.place? name).isSome = true) : Creates e name target (.error (.aliasExists name)) e
  | failed {x : EngineError} {f : Engine} (free : e.place? name = none)
      (other : ∀ n, x ≠ .aliasExists n) (names : f.names = e.names) (aliases : f.aliases = e.aliases)
      (next : f.nextObject = e.nextObject + 1) : Creates e name target (.error x) f
  | made {t : AliasTarget} {a : Alias} {f : Engine} (free : e.place? name = none) (given : target = .ok t)
      (new : a.unloaded = .fresh name e.nextObject t)
      (names : f.names = (Alias.key name, e.aliases.length) :: e.names)
      (aliases : f.aliases = e.aliases ++ [a]) (next : f.nextObject = e.nextObject + 1) :
      Creates e name target (.ok e.aliases.length) f

/-- Loading in order to create an alias leaves the registry alone and gives the alias as it is made, with
or without what was loaded. -/
inductive Readies (e : Engine) (a : Alias) : Except EngineError Alias → Engine → Prop
  | failed {x : EngineError} {compiler : Compiler} (other : ∀ n, x ≠ .aliasExists n) :
      Readies e a (.error x) { e with compiler := compiler }
  | ready {b : Alias} {compiler : Compiler} (same : b.unloaded = a.unloaded) :
      Readies e a (.ok b) { e with compiler := compiler }

theorem readies_loadAlias (a : Alias) (e : Engine) :
    Readies e a ((((·.2) <$> Run.loadAlias a : Run Alias)).outcome e).1
      ((((·.2) <$> Run.loadAlias a : Run Alias)).outcome e).2 := by
  rw [← bind_pure_comp, Run.outcome_bind, Run.loadAlias, Run.outcome_ofOutcome]
  have bare := unloaded_load e.library e.compiler a
  have fails := @load_error e.library e.compiler a
  generalize a.load e.library e.compiler = o at bare fails
  obtain ⟨found, compiler, b⟩ := o
  cases found with
  | error x => exact .failed (fails rfl)
  | ok cs => exact .ready bare

/-- With force, a failure to load is passed over. -/
theorem readies_forced (a : Alias) (e : Engine) :
    let load : Run Alias := tryCatch ((·.2) <$> Run.loadAlias a) fun _ => pure a
    Readies e a (load.outcome e).1 (load.outcome e).2 := by
  dsimp only
  rw [Run.outcome_tryCatch]
  have loads := readies_loadAlias a e
  generalize ((((·.2) <$> Run.loadAlias a : Run Alias)).outcome e) = o at loads
  obtain ⟨x, f⟩ := o
  cases loads with
  | failed => exact .ready rfl
  | ready same => exact .ready same

/-- Creating an alias under a free name, whichever way it is loaded. -/
theorem creates_of_readies {load : Alias → Run Alias}
    (readies : ∀ a e, Readies e a ((load a).outcome e).1 ((load a).outcome e).2) {name : String}
    {target : Except EngineError AliasTarget} {e : Engine} (free : e.place? name = none)
    (other : ∀ x n, target = .error x → x ≠ .aliasExists n) :
    let create : Run Nat := do
      let id ← Run.newObject
      let a ← load (.fresh name id (← Run.ofExcept target))
      let e ← get
      set (e.addAlias a)
      return e.aliases.length
    Creates e name target (create.outcome e).1 (create.outcome e).2 := by
  dsimp only
  have numbered : Run.newObject.outcome e =
      (.ok e.nextObject, { e with nextObject := e.nextObject + 1 }) := rfl
  rw [Run.outcome_bind, numbered]
  dsimp only
  rw [Run.outcome_bind, Run.outcome_ofExcept]
  cases target with
  | error x => exact .failed free (fun n => other x n rfl) rfl rfl rfl
  | ok t =>
    dsimp only
    rw [Run.outcome_bind]
    have loads := readies (.fresh name e.nextObject t) { e with nextObject := e.nextObject + 1 }
    generalize (load (.fresh name e.nextObject t)).outcome { e with nextObject := e.nextObject + 1 } = o
      at loads
    obtain ⟨x, f⟩ := o
    cases loads with
    | failed other => exact .failed free other rfl rfl rfl
    | @ready b compiler same =>
      have named : b.name = name := congrArg Alias.name same
      refine .made free rfl same ?_ rfl rfl
      rw [← named]
      rfl

theorem creates_createAlias (name : String) {target : Except EngineError AliasTarget} (force : Bool)
    (e : Engine) (other : ∀ x n, target = .error x → x ≠ .aliasExists n) :
    Creates e name target ((Run.createAlias name target force).outcome e).1
      ((Run.createAlias name target force).outcome e).2 := by
  rw [Run.createAlias]
  rw [Run.outcome_bind, Run.outcome_get]
  dsimp only
  by_cases taken : (e.place? name).isSome = true
  · rw [if_pos taken]
    exact .refused taken
  · rw [if_neg taken]
    have free : e.place? name = none := by simpa using taken
    cases force with
    | true => exact creates_of_readies readies_forced free other
    | false => exact creates_of_readies readies_loadAlias free other

theorem dropAlias_missing {name : String} {e : Engine} (missing : e.place? name = none) :
    (Run.dropAlias name).outcome e = (.error (.functionNotFound name), e) := by
  rw [Run.dropAlias]
  rw [Run.outcome_bind, Run.outcome_get]
  simp only [missing]
  rfl

theorem dropAlias_found {name : String} {place : Nat} {a : Alias} {e : Engine}
    (named : e.place? name = some place) (found : e.alias? place = some a) :
    (Run.dropAlias name).outcome e = (.ok (), (e.removeName name).setAlias place a.drop) := by
  have there : (e.removeName name).alias? place = some a := found
  rw [Run.dropAlias]
  rw [Run.outcome_bind, Run.outcome_get]
  simp only [named]
  rw [there]
  rfl

theorem keepsRegistry_findHeld (place count : Nat) : (Run.findHeld place count).Relates KeepsRegistry :=
  relates_findHeld keepsRegistry_writes.toEffectOrder (fun _ _ _ found => keepsRegistry_load found) place
    count

end SqlEngine
