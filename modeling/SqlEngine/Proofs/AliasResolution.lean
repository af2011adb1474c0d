import Mathlib.Data.List.Induction
import SqlEngine.Proofs.Retention

/-!
# Resolution of an alias that is held

Whoever holds an alias may load it, find methods in it, call it and remove it, while classes are added to
the library or replaced there. The first attempt that succeeds decides for all that come after it, one that
fails decides nothing, and once the alias is removed there is nothing to load.
-/

namespace SqlEngine

namespace Run

/-- The candidates for whoever holds the alias at a place. -/
def loadHeld (place : Nat) : Run (List Candidate) := do
  match (← get).alias? place with
  | none => throw (.functionNotFound "")
  | some a => load place a

/-- A call, with values, by whoever holds the alias. -/
def callHeld (place session : Nat) (args : List Value) : Run Value := do
  (← findHeld place args.length).invokeValues ⟨session, false⟩ args

def removeHeld (place : Nat) : Run Unit :=
  modify fun e => match e.alias? place with
    | none => e
    | some a => e.setAlias place a.drop

end Run

/-- What happens to an alias that is held, and to what it can be resolved against. -/
inductive AliasStep
  | load
  | find (count : Nat)
  | call (session : Nat) (args : List Value)
  | remove
  | register (c : NativeClass)
  | teach (source : String) (m : NativeMethod)

namespace AliasStep

/-- The engine after the step, whatever comes of it. -/
def after (place : Nat) (e : Engine) : AliasStep → Engine
  | load => ((Run.loadHeld place).outcome e).2
  | find count => ((Run.findHeld place count).outcome e).2
  | call session args => ((Run.callHeld place session args).outcome e).2
  | remove => ((Run.removeHeld place).outcome e).2
  | register c => { e with library := e.library.register c }
  | teach source m => { e with compiler := e.compiler.register source m }

/-- The step needs the candidates. -/
def tries : AliasStep → Bool
  | load | find _ | call .. => true
  | _ => false

/-- The step adds to what aliases can be resolved against. -/
def adds : AliasStep → Bool
  | register _ | teach .. => true
  | _ => false

def extend (l : Library) : AliasStep → Library
  | register c => l.register c
  | _ => l

def instruct (c : Compiler) : AliasStep → Compiler
  | teach source m => c.register source m
  | _ => c

end AliasStep

/-- The engine after steps with the alias at a place. -/
def Engine.afterSteps (e : Engine) (place : Nat) (steps : List AliasStep) : Engine :=
  steps.foldl (AliasStep.after place) e

/-- The library with all classes that were registered. -/
def Library.afterSteps (l : Library) (steps : List AliasStep) : Library := steps.foldl AliasStep.extend l

/-- The compiler with all that it was taught. -/
def Compiler.afterSteps (c : Compiler) (steps : List AliasStep) : Compiler :=
  steps.foldl AliasStep.instruct c

/-- Loading has this answer, and so a method is found and called, or there is none. -/
structure Engine.Answers (e : Engine) (place : Nat) (a : Alias)
    (answer : Except EngineError (List Candidate)) : Prop where
  load : ((Run.loadHeld place).outcome e).1 = answer
  find (count : Nat) :
    ((Run.findHeld place count).outcome e).1 = answer >>= fun found => a.select found count
  call (session : Nat) (args : List Value) : ((Run.callHeld place session args).outcome e).1 =
    ((Run.ofExcept (answer >>= fun found => a.select found args.length) >>= fun c =>
      c.invokeValues ⟨session, false⟩ args).outcome ((AliasStep.find args.length).after place e)).1

/-- The catalog stays as it is. -/
def KeepsCatalog (e f : Engine) : Prop := f.catalog = e.catalog

theorem keepsCatalog_writes : WriteRelation KeepsCatalog where
  refl _ := rfl
  trans first second := second.trans first
  setSession _ _ := rfl
  journal _ _ := rfl

/-- Calls that evaluate no arguments need no alias. -/
theorem UpdateRelation.property {A : Session → Session → Prop} {R : Engine → Engine → Prop}
    (h : UpdateRelation A R) (session : Nat) :
    CallProperty session (fun _ => True) (fun _ r => r.Relates R) fun _ r => RunWith.Relates R r :=
  h.callProperty (h.connect session) h.close fun c k params _ => h.isolated (h.inside c k params)

theorem keepsCatalog_invokeValues (c : Candidate) (k : Caller) (args : List Value) :
    (c.invokeValues k args).Relates KeepsCatalog := by
  have h := keepsCatalog_writes.updates
  refine (h.property k.session).invoke trivial _ fun r listed => ?_
  obtain ⟨v, _, rfl⟩ := List.mem_map.1 listed
  exact h.compositional.pure v

section Attempts

variable {e f : Engine} {place : Nat} {a : Alias}

/-- What needing the candidates does to the alias and to what it is resolved against. -/
inductive Attempt (e : Engine) (place : Nat) (a : Alias) :
    Except EngineError (List Candidate) → Engine → Prop
  | resolved {found : List Candidate} {f : Engine} (library : f.library = e.library)
      (kept : f.alias? place = some { a with candidates := some found }) :
      Attempt e place a (.ok found) f
  | failed {x : EngineError} {f : Engine} (fresh : a.candidates = none) (library : f.library = e.library)
      (compiler : f.compiler = e.compiler) (kept : f.alias? place = some a) :
      Attempt e place a (.error x) f

/-- What fails to compile leaves nothing behind. -/
theorem compiler_of_resolve {library : Library} {compiler : Compiler} {x : EngineError}
    (h : (a.resolve library compiler).1 = .error x) : (a.resolve library compiler).2 = compiler := by
  cases target : a.target with
  | none => simp only [Alias.resolve, target]
  | some t =>
    cases t with
    | classMethod className method => simp only [Alias.resolve, target]
    | source text =>
      simp only [Alias.resolve, target, Alias.compile, Compiler.compile] at h ⊢
      split at h
      · cases h
      · next compiled => split at compiled <;> grind
      · next compiled => grind

theorem attempt_load (found : e.alias? place = some a) :
    Attempt e place a (a.load e.library e.compiler).1 ((Run.load place a).outcome e).2 := by
  have bound : place < e.aliases.length := (List.getElem?_eq_some_iff.1 found).1
  have set (compiler : Compiler) (b : Alias) :
      ({ e with compiler := compiler }.setAlias place b).alias? place = some b :=
    List.getElem?_set_self bound
  rw [outcome_load]
  cases kept : a.candidates with
  | some cs =>
    rw [load_of_candidates kept]
    refine .resolved rfl ((set e.compiler a).trans ?_)
    rw [← kept]
  | none =>
    have same := @compiler_of_resolve a e.library e.compiler
    simp only [Alias.load, kept]
    generalize a.resolve e.library e.compiler = o at same
    obtain ⟨x, compiler⟩ := o
    cases x with
    | ok cs => exact .resolved rfl (set compiler _)
    | error x => exact .failed kept rfl (same rfl) found

theorem outcome_loadHeld (found : e.alias? place = some a) :
    (Run.loadHeld place).outcome e = (Run.load place a).outcome e := by
  simp only [Run.loadHeld]
  rw [Run.outcome_bind, Run.outcome_get]
  simp only [found]

theorem answer_load : ((Run.load place a).outcome e).1 = (a.load e.library e.compiler).1 := by
  rw [outcome_load]
  generalize a.load e.library e.compiler = o
  obtain ⟨x, compiler, b⟩ := o
  cases x <;> rfl

/-- Finding a method does no more than loading. -/
theorem outcome_findHeld_eq (found : e.alias? place = some a) (count : Nat) :
    (Run.findHeld place count).outcome e =
      (((Run.load place a).outcome e).1 >>= fun cs => a.select cs count,
        ((Run.load place a).outcome e).2) := by
  rw [outcome_findHeld found, Run.findMethod, Run.outcome_bind]
  generalize (Run.load place a).outcome e = o
  obtain ⟨x, f⟩ := o
  cases x <;> rfl

/-- Calling changes no more of the catalog than finding the method does. -/
theorem catalog_callHeld (place session : Nat) (args : List Value) (e : Engine) :
    ((Run.callHeld place session args).outcome e).2.catalog =
      ((Run.findHeld place args.length).outcome e).2.catalog := by
  rw [Run.callHeld, Run.outcome_bind]
  generalize (Run.findHeld place args.length).outcome e = o
  obtain ⟨x, f⟩ := o
  cases x with
  | error x => rfl
  | ok c => exact keepsCatalog_invokeValues c ⟨session, false⟩ args f

theorem Attempt.of_catalog {answer : Except EngineError (List Candidate)} {g : Engine}
    (h : Attempt e place a answer f) (same : g.catalog = f.catalog) : Attempt e place a answer g := by
  have library : g.catalog.library = f.catalog.library := congrArg _ same
  have compiler : g.catalog.compiler = f.catalog.compiler := congrArg _ same
  have kept : g.catalog.alias? place = f.catalog.alias? place := congrArg (Engine.alias? · place) same
  cases h with
  | resolved before there => exact .resolved (library.trans before) (kept.trans there)
  | failed fresh before before' there =>
    exact .failed fresh (library.trans before) (compiler.trans before') (kept.trans there)

/-- Whatever needs the candidates is such an attempt. -/
theorem attempt_of_tries (found : e.alias? place = some a) {s : AliasStep} (tries : s.tries = true) :
    Attempt e place a (a.load e.library e.compiler).1 (s.after place e) := by
  have loads := attempt_load found
  have finds (count : Nat) :
      Attempt e place a (a.load e.library e.compiler).1 ((Run.findHeld place count).outcome e).2 := by
    rw [outcome_findHeld_eq found]
    exact loads
  cases s with
  | load =>
    rw [AliasStep.after, outcome_loadHeld found]
    exact loads
  | find count => exact finds count
  | call session args => exact (finds args.length).of_catalog (catalog_callHeld place session args e)
  | _ => cases tries

/-- What loading answers decides what is found and called. -/
theorem answers_held (found : e.alias? place = some a) :
    e.Answers place a (a.load e.library e.compiler).1 where
  load := by rw [outcome_loadHeld found, answer_load]
  find count := by rw [outcome_findHeld_eq found, answer_load]
  call session args := by
    rw [Run.callHeld, Run.outcome_bind, Run.outcome_bind, AliasStep.after, Run.outcome_ofExcept,
      outcome_findHeld_eq found, answer_load]

/-- Of the alias, no more than what it selects from its candidates plays a part. -/
theorem Engine.Answers.congr {b : Alias} {answer : Except EngineError (List Candidate)}
    (h : e.Answers place b answer)
    (same : ∀ cs, answer = .ok cs → ∀ count, b.select cs count = a.select cs count) :
    e.Answers place a answer := by
  have selects (count : Nat) :
      (answer >>= fun cs => b.select cs count) = answer >>= fun cs => a.select cs count := by
    cases answer with
    | error x => rfl
    | ok cs => exact same cs rfl count
  refine ⟨h.load, fun count => ?_, fun session args => ?_⟩
  · rw [← selects]
    exact h.find count
  · rw [← selects]
    exact h.call session args

end Attempts

section Steps

variable {e start : Engine} {place : Nat} {a : Alias} {steps later given : List AliasStep}

theorem afterSteps_append (e : Engine) (place : Nat) (steps later : List AliasStep) :
    e.afterSteps place (steps ++ later) = (e.afterSteps place steps).afterSteps place later :=
  List.foldl_append

/-- A step that adds something leaves all aliases alone. -/
theorem after_of_adds {s : AliasStep} (adds : s.adds = true) (place : Nat) (e : Engine) :
    (s.after place e).aliases = e.aliases ∧ (s.after place e).library = s.extend e.library ∧
      (s.after place e).compiler = s.instruct e.compiler := by
  cases s with
  | register c => exact ⟨rfl, rfl, rfl⟩
  | teach source m => exact ⟨rfl, rfl, rfl⟩
  | _ => cases adds

/-- Other steps add nothing. -/
theorem extend_of_not_adds {s : AliasStep} (adds : s.adds = false) (l : Library) (c : Compiler) :
    s.extend l = l ∧ s.instruct c = c := by
  cases s with
  | register c => cases adds
  | teach source m => cases adds
  | _ => exact ⟨rfl, rfl⟩

theorem Attempt.library {answer : Except EngineError (List Candidate)} {f : Engine}
    (h : Attempt e place a answer f) : f.library = e.library := by
  cases h with
  | resolved library _ => exact library
  | failed _ library _ _ => exact library

theorem after_remove (found : e.alias? place = some a) :
    AliasStep.remove.after place e = e.setAlias place a.drop := by
  simp only [AliasStep.after, Run.removeHeld, Run.outcome_modify, found]

/-- Where the alias stands: it was removed, or it was loaded, or every attempt so far has failed. -/
inductive Standing (start : Engine) (place : Nat) (a : Alias) (steps : List AliasStep) (e : Engine) : Prop
  | undecided (held : .remove ∉ steps) (kept : e.alias? place = some a)
      (compiler : e.compiler = start.compiler.afterSteps steps)
  | loaded (held : .remove ∉ steps) {found : List Candidate}
      (kept : e.alias? place = some { a with candidates := some found })
  | removed (gone : .remove ∈ steps) {b : Alias} (kept : e.alias? place = some b) (bare : b.Gone)
      (named : b.name = a.name)

theorem kind_of_step (s : AliasStep) : s.tries = true ∨ s.adds = true ∨ s = .remove := by
  cases s with
  | load | find _ | call _ _ => exact .inl rfl
  | register _ | teach _ _ => exact .inr (.inl rfl)
  | remove => exact .inr (.inr rfl)

theorem adds_of_tries {s : AliasStep} (tries : s.tries = true) : s.adds = false := by
  cases s with
  | load | find _ | call _ _ => rfl
  | _ => cases tries

theorem alias_of_aliases {f : Engine} (same : f.aliases = e.aliases) : f.alias? place = e.alias? place :=
  congrArg (·[place]?) same

theorem library_after (found : e.alias? place = some a) (s : AliasStep) :
    (s.after place e).library = s.extend e.library := by
  rcases kind_of_step s with tries | adds | rfl
  · have nothing := extend_of_not_adds (adds_of_tries tries) e.library e.compiler
    rw [(attempt_of_tries found tries).library, nothing.1]
  · exact (after_of_adds adds place e).2.1
  · rw [after_remove found]
    rfl

theorem library_append (l : Library) (steps later : List AliasStep) :
    l.afterSteps (steps ++ later) = (l.afterSteps steps).afterSteps later :=
  List.foldl_append

theorem compiler_append (c : Compiler) (steps later : List AliasStep) :
    c.afterSteps (steps ++ later) = (c.afterSteps steps).afterSteps later :=
  List.foldl_append

theorem not_mem_concat (held : .remove ∉ steps) {s : AliasStep} (other : s ≠ .remove) :
    .remove ∉ steps ++ [s] := by
  intro listed
  rcases List.mem_append.1 listed with before | last
  · exact held before
  · exact other (List.mem_singleton.1 last).symm

namespace Standing

/-- Whatever needs the candidates may find them, if that is still undecided, and changes nothing else. -/
theorem attempted (h : Standing start place a steps e) {s : AliasStep} (tries : s.tries = true) :
    Standing start place a (steps ++ [s]) (s.after place e) := by
  have other : s ≠ .remove := by
    rintro rfl
    cases tries
  cases h with
  | undecided held kept compiler =>
    have attempt := attempt_of_tries kept tries
    generalize (a.load e.library e.compiler).1 = answer at attempt
    cases attempt with
    | resolved _ there => exact .loaded (not_mem_concat held other) there
    | failed _ _ same there =>
      refine .undecided (not_mem_concat held other) there ?_
      rw [same, compiler, compiler_append]
      exact (extend_of_not_adds (adds_of_tries tries) {} _).2.symm
  | loaded held kept =>
    have attempt := attempt_of_tries kept tries
    rw [load_of_candidates rfl] at attempt
    cases attempt with
    | resolved _ there => exact .loaded (not_mem_concat held other) there
  | removed gone kept bare named =>
    have attempt := attempt_of_tries kept tries
    rw [load_of_gone bare] at attempt
    cases attempt with
    | failed _ _ _ there => exact .removed (List.mem_append_left [s] gone) there bare named

/-- What is added does not matter to the alias yet. -/
theorem added (h : Standing start place a steps e) {s : AliasStep} (adds : s.adds = true) :
    Standing start place a (steps ++ [s]) (s.after place e) := by
  have other : s ≠ .remove := by
    rintro rfl
    cases adds
  obtain ⟨aliases, _, compiler⟩ := after_of_adds adds place e
  have same : (s.after place e).alias? place = e.alias? place := alias_of_aliases aliases
  cases h with
  | undecided held kept before =>
    refine .undecided (not_mem_concat held other) (same.trans kept) ?_
    rw [compiler, before, compiler_append]
    rfl
  | loaded held kept => exact .loaded (not_mem_concat held other) (same.trans kept)
  | removed gone kept bare named =>
    exact .removed (List.mem_append_left [s] gone) (same.trans kept) bare named

theorem dropped (h : Standing start place a steps e) :
    Standing start place a (steps ++ [.remove]) (AliasStep.remove.after place e) := by
  have removed {b : Alias} (kept : e.alias? place = some b) (named : b.name = a.name) :
      Standing start place a (steps ++ [.remove]) (AliasStep.remove.after place e) := by
    have bound : place < e.aliases.length := (List.getElem?_eq_some_iff.1 kept).1
    have last : AliasStep.remove ∈ steps ++ [.remove] := List.mem_append_right steps List.mem_cons_self
    rw [after_remove kept]
    exact .removed last (List.getElem?_set_self bound : _ = some b.drop) ⟨rfl, rfl⟩ named
  cases h with
  | undecided _ kept _ => exact removed kept rfl
  | loaded _ kept => exact removed kept rfl
  | removed _ kept _ named => exact removed kept named

/-- Each step leads from one standing to the next. -/
theorem step (h : Standing start place a steps e) (s : AliasStep) :
    Standing start place a (steps ++ [s]) (s.after place e) := by
  rcases kind_of_step s with tries | adds | rfl
  · exact h.attempted tries
  · exact h.added adds
  · exact h.dropped

theorem found (h : Standing start place a steps e) : ∃ b, e.alias? place = some b := by
  cases h with
  | undecided _ kept _ => exact ⟨_, kept⟩
  | loaded _ kept => exact ⟨_, kept⟩
  | removed _ kept _ _ => exact ⟨_, kept⟩

end Standing

/-- So all steps lead to a standing, and the library has grown by what was registered. -/
theorem standing_afterSteps (found : start.alias? place = some a) (steps : List AliasStep) :
    Standing start place a steps (start.afterSteps place steps) ∧
      (start.afterSteps place steps).library = start.library.afterSteps steps := by
  induction steps using List.reverseRecOn with
  | nil => exact ⟨.undecided List.not_mem_nil found rfl, rfl⟩
  | append_singleton steps s ih =>
    obtain ⟨standing, library⟩ := ih
    obtain ⟨b, kept⟩ := standing.found
    rw [afterSteps_append, library_append]
    refine ⟨standing.step s, (library_after kept s).trans ?_⟩
    rw [library]
    rfl

/-- A loaded alias stays as it is, whatever is added. -/
theorem alias_of_loaded {L : List Candidate} (kept : e.alias? place = some a) (loaded : a.candidates = some L)
    (held : .remove ∉ later) : (e.afterSteps place later).alias? place = some a := by
  induction later generalizing e with
  | nil => exact kept
  | cons s rest ih =>
    have other : s ≠ .remove := fun same => held (same ▸ List.mem_cons_self)
    refine ih ?_ fun listed => held (List.mem_cons_of_mem s listed)
    rcases kind_of_step s with tries | adds | same
    · have attempt := attempt_of_tries kept tries
      rw [load_of_candidates loaded] at attempt
      cases attempt with
      | resolved _ there =>
        rw [there, ← loaded]
    · exact (alias_of_aliases (after_of_adds adds place e).1).trans kept
    · exact absurd same other

/-- An alias stays as it is while something is added, and all that is added can be found. -/
theorem alias_of_added (kept : e.alias? place = some a) (adding : ∀ s ∈ given, s.adds = true) :
    (e.afterSteps place given).alias? place = some a ∧
      (e.afterSteps place given).library = e.library.afterSteps given ∧
      (e.afterSteps place given).compiler = e.compiler.afterSteps given := by
  induction given generalizing e with
  | nil => exact ⟨kept, rfl, rfl⟩
  | cons s rest ih =>
    obtain ⟨aliases, library, compiler⟩ := after_of_adds (adding s List.mem_cons_self) place e
    have there := (alias_of_aliases aliases).trans kept
    obtain ⟨last, libraries, compilers⟩ := ih there fun r hr => adding r (List.mem_cons_of_mem s hr)
    refine ⟨last, libraries.trans ?_, compilers.trans ?_⟩
    · rw [library]
      rfl
    · rw [compiler]
      rfl

section Answers

variable {f : Engine} {b : Alias} {L : List Candidate} {x : EngineError} {s : AliasStep}

theorem load_held (kept : e.alias? place = some b) :
    ((Run.loadHeld place).outcome e).1 = (b.load e.library e.compiler).1 := by
  rw [outcome_loadHeld kept, answer_load]

theorem answers_loaded (kept : f.alias? place = some { a with candidates := some L }) :
    f.Answers place a (.ok L) := by
  have answers := answers_held kept
  rw [load_of_candidates rfl] at answers
  exact answers.congr fun _ _ _ => rfl

theorem answers_unloaded (kept : f.alias? place = some a) (fresh : a.candidates = none) :
    f.Answers place a (a.resolve f.library f.compiler).1 := by
  rw [← load_of_unloaded fresh]
  exact answers_held kept

theorem answers_removed (kept : f.alias? place = some b) (bare : b.Gone) :
    f.Answers place a (.error (.functionNotFound b.name)) := by
  have answers := answers_held kept
  rw [load_of_gone bare] at answers
  exact answers.congr nofun

/-- An attempt that succeeds decides. -/
theorem answers_decided (kept : e.alias? place = some b) (loads : (b.load e.library e.compiler).1 = .ok L)
    (tries : s.tries = true) (held : .remove ∉ later) :
    (e.afterSteps place (s :: later)).Answers place b (.ok L) := by
  have attempt := attempt_of_tries kept tries
  rw [loads] at attempt
  cases attempt with
  | resolved _ there =>
    have last := alias_of_loaded (e := s.after place e) there rfl held
    exact answers_loaded last

/-- An attempt that fails leaves the alias as it is, to be resolved against what is there next time. -/
theorem answers_undecided (kept : e.alias? place = some a) (fails : (a.load e.library e.compiler).1 = .error x)
    (tries : s.tries = true) (adding : ∀ r ∈ given, r.adds = true) :
    (e.afterSteps place (s :: given)).alias? place = some a ∧ a.candidates = none ∧
      (e.afterSteps place (s :: given)).Answers place a
        (a.resolve (e.library.afterSteps (s :: given)) (e.compiler.afterSteps (s :: given))).1 := by
  have attempt := attempt_of_tries kept tries
  rw [fails] at attempt
  obtain ⟨extends_, instructs⟩ := extend_of_not_adds (adds_of_tries tries) e.library e.compiler
  cases attempt with
  | failed fresh library compiler there =>
    obtain ⟨last, libraries, compilers⟩ := alias_of_added there adding
    refine ⟨last, fresh, ?_⟩
    have answers := answers_unloaded last fresh
    rw [libraries, compilers, library, compiler] at answers
    rw [Library.afterSteps, Compiler.afterSteps, List.foldl_cons, List.foldl_cons, extends_, instructs]
    exact answers

end Answers

/-- While an alias is held, loading it answers the same candidates ever after it has answered them once, or
could have, to somebody who needed them. As long as it fails, it leaves the alias unresolved, and the next
attempt resolves it against what the library and the compiler have got by then. Once the alias is removed,
loading fails. Methods are found and called accordingly. -/
theorem held_alias_resolves_once (held : start.alias? place = some a) (steps : List AliasStep) :
    let e := start.afterSteps place steps
    let resolve (steps : List AliasStep) :=
      (a.resolve (start.library.afterSteps steps) (start.compiler.afterSteps steps)).1
    (∀ L, ((Run.loadHeld place).outcome e).1 = .ok L →
      ∀ s later, s.tries = true → .remove ∉ later →
        (e.afterSteps place (s :: later)).Answers place a (.ok L)) ∧
    (∀ x, ((Run.loadHeld place).outcome e).1 = .error x → .remove ∉ steps →
      ∀ s given, s.tries = true → (∀ r ∈ given, r.adds = true) →
        (e.afterSteps place (s :: given)).alias? place = some a ∧ a.candidates = none ∧
          (e.afterSteps place (s :: given)).Answers place a (resolve (steps ++ s :: given))) ∧
    (a.candidates = none → (∀ r ∈ steps, r.adds = true) → e.Answers place a (resolve steps)) ∧
    (.remove ∈ steps → e.Answers place a (.error (.functionNotFound a.name))) := by
  intro e resolve
  obtain ⟨standing, library⟩ := standing_afterSteps held steps
  refine ⟨?_, ?_, ?_, ?_⟩
  · intro L loads s later tries kept
    cases standing with
    | undecided _ there =>
      exact answers_decided there ((load_held there).symm.trans loads) tries kept
    | loaded _ there =>
      have decided := answers_decided there ((load_held there).symm.trans loads) tries kept
      exact decided.congr fun _ _ _ => rfl
    | removed _ there bare =>
      rw [load_held there, load_of_gone bare] at loads
      cases loads
  · intro x fails kept s given tries adding
    cases standing with
    | undecided _ there compiler =>
      have undecided := answers_undecided there ((load_held there).symm.trans fails) tries adding
      rw [library, compiler, ← library_append, ← compiler_append] at undecided
      exact undecided
    | loaded _ there =>
      rw [load_held there, load_of_candidates rfl] at fails
      cases fails
    | removed gone => exact absurd gone kept
  · intro fresh adding
    obtain ⟨there, libraries, compilers⟩ := alias_of_added held adding
    have answers := answers_unloaded there fresh
    rw [libraries, compilers] at answers
    exact answers
  · intro gone
    cases standing with
    | undecided kept => exact absurd gone kept
    | loaded kept => exact absurd gone kept
    | removed _ there bare named =>
      rw [← named]
      exact answers_removed there bare

end Steps

/-- The class is missing at first, then it comes, is found in the alias and is replaced, and the alias has the
method of the first one still, until it is removed. -/
theorem held_alias_resolves_once_replaced :
    let method (params : List ParamSpec) : NativeMethod :=
      ⟨"f", params, .int, false, true, fun _ => .done .null⟩
    let first : NativeClass := ⟨"c.C", [method [⟨.int, false⟩]]⟩
    let second : NativeClass := ⟨"c.C", [method []]⟩
    let a : Alias := ⟨"PUBLIC", 1, "F", some (.classMethod "c.C" "f"), false, none⟩
    let start : Engine := { aliases := [a] }
    ((Run.loadHeld 0).outcome start).1 = .error (.classNotFound "c.C") ∧
      (start.afterSteps 0 [.load, .register first]).Answers 0 a
        (.ok [⟨"c.C", method [⟨.int, false⟩], 0⟩]) ∧
      (start.afterSteps 0 [.load, .register first, .find 0, .register second]).Answers 0 a
        (.ok [⟨"c.C", method [⟨.int, false⟩], 0⟩]) ∧
      (start.afterSteps 0 [.load, .register first, .remove, .register second]).Answers 0 a
        (.error (.functionNotFound "F")) := by
  intro method first second a start
  have held : start.alias? 0 = some a := rfl
  refine ⟨rfl, ?_, ?_, ?_⟩
  · exact ((held_alias_resolves_once held []).2.1 (.classNotFound "c.C") rfl List.not_mem_nil .load
      [.register first] rfl (by simp [AliasStep.adds])).2.2
  · exact (held_alias_resolves_once held [.load, .register first]).1 _ rfl (.find 0) [.register second] rfl
      (by simp)
  · exact (held_alias_resolves_once held [.load, .register first, .remove, .register second]).2.2.2 (by simp)

end SqlEngine
