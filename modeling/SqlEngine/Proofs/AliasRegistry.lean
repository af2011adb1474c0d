import SqlEngine.Proofs.RegistryEffects
import SqlEngine.Text.Order

/-!
# The registry over its history

Aliases are created, looked up, used and dropped. What the registry answers can be read off the log of what
was asked and answered so far: a name stands for the alias that was made last under it, in whatever case,
unless it was dropped since.
-/

namespace SqlEngine

/-- What an alias is created from. -/
inductive AliasOrigin
  | declaration (text : String)
  | source (text : String)

def AliasOrigin.target : AliasOrigin → Except EngineError AliasTarget
  | declaration text => Run.declaredTarget text
  | source text => .ok (.source text)

/-- What is asked of the registry, and what may happen to it besides: somebody uses an alias that was kept,
an expression is evaluated, classes are installed, or a number is given out to another object. -/
inductive RegistryStep
  | create (name : String) (origin : AliasOrigin) (force : Bool)
  | find (name : String)
  | drop (name : String)
  | use (place count : Nat)
  | evaluate (s : Scope) (row : Row) (x : Expr)
  | install (library : Library) (compiler : Compiler)
  | number

/-- A step answers the place of the alias that it made or found. -/
def RegistryStep.run : RegistryStep → Run (Option Nat)
  | create name (.declaration text) force => some <$> Run.createMethodAlias name text force
  | create name (.source text) force => some <$> Run.createSourceAlias name text force
  | find name => do return (← get).place? name
  | drop name => do Run.dropAlias name; return none
  | use place count => do let _ ← Run.findHeld place count; return none
  | evaluate s row x => do let _ ← x.eval s row; return none
  | install library compiler => do
    modify ({ · with library := library, compiler := compiler })
    return none
  | number => do let _ ← Run.newObject; return none

/-- A step and its answer. -/
abbrev Entry := RegistryStep × Except EngineError (Option Nat)

namespace Entry

/-- The key and the place of the alias that was made. -/
def made? : Entry → Option (String × Nat)
  | (.create name .., .ok (some place)) => some (Alias.key name, place)
  | _ => none

/-- The key of the alias that was dropped. -/
def dropped? : Entry → Option String
  | (.drop name, .ok _) => some (Alias.key name)
  | _ => none

/-- Whether a number was given out: creating takes one unless the name is taken. -/
def takesNumber : Entry → Bool
  | (.create .., .error (.aliasExists _)) => false
  | (.create .., _) => true
  | (.number, _) => true
  | _ => false

/-- An alias was made or dropped under the key. -/
def Touches (key : String) (entry : Entry) : Prop :=
  (∃ place, entry.made? = some (key, place)) ∨ entry.dropped? = some key

end Entry

/-- The key stands for the place: the alias there was made under it, and since then none was made or
dropped under it. -/
def Stands (log : List Entry) (key : String) (place : Nat) : Prop :=
  ∃ before entry after, log = before ++ entry :: after ∧ entry.made? = some (key, place) ∧
    ∀ later ∈ after, ¬ later.Touches key

/-- The alias at the place was dropped: it was what the key stood for. -/
def Dropped (log : List Entry) (place : Nat) : Prop :=
  ∃ before entry after key, log = before ++ entry :: after ∧ entry.dropped? = some key ∧
    Stands before key place

/-- How many numbers were given out. -/
def numbersTaken (log : List Entry) : Nat := log.countP (·.takesNumber)

/-- Carries out a step and adds it to the log. -/
def record (h : List Entry × Engine) (s : RegistryStep) : List Entry × Engine :=
  (h.1 ++ [(s, (s.run.outcome h.2).1)], (s.run.outcome h.2).2)

/-- The log of steps from an engine on, and the engine after them. -/
def Engine.history (e : Engine) (steps : List RegistryStep) : List Entry × Engine :=
  steps.foldl record ([], e)

section Logs

variable {log : List Entry} {entry : Entry} {key : String} {place : Nat}

theorem stands_snoc : Stands (log ++ [entry]) key place ↔
    entry.made? = some (key, place) ∨ (Stands log key place ∧ ¬ entry.Touches key) := by
  constructor
  · rintro ⟨before, made, after, same, makes, untouched⟩
    rcases List.eq_nil_or_concat after with rfl | ⟨rest, last, rfl⟩
    · obtain ⟨_, equal⟩ := List.append_inj' same rfl
      cases equal
      exact .inl makes
    · rw [List.concat_eq_append] at same untouched
      rw [← List.cons_append, ← List.append_assoc] at same
      obtain ⟨rfl, equal⟩ := List.append_inj' same rfl
      cases equal
      refine .inr ⟨⟨before, made, rest, rfl, makes, fun later listed => ?_⟩, ?_⟩
      · exact untouched later (List.mem_append_left _ listed)
      · exact untouched entry (by simp)
  · rintro (makes | ⟨⟨before, made, after, rfl, makes, untouched⟩, still⟩)
    · exact ⟨log, entry, [], rfl, makes, fun _ listed => nomatch listed⟩
    · refine ⟨before, made, after ++ [entry], by simp, makes, fun later listed => ?_⟩
      rcases List.mem_append.1 listed with listed | listed
      · exact untouched later listed
      · rwa [List.mem_singleton.1 listed]

theorem dropped_snoc : Dropped (log ++ [entry]) place ↔
    Dropped log place ∨ ∃ key, entry.dropped? = some key ∧ Stands log key place := by
  constructor
  · rintro ⟨before, drop, after, key, same, drops, stood⟩
    rcases List.eq_nil_or_concat after with rfl | ⟨rest, last, rfl⟩
    · obtain ⟨rfl, equal⟩ := List.append_inj' same rfl
      cases equal
      exact .inr ⟨key, drops, stood⟩
    · rw [List.concat_eq_append, ← List.cons_append, ← List.append_assoc] at same
      obtain ⟨rfl, _⟩ := List.append_inj' same rfl
      exact .inl ⟨before, drop, rest, key, rfl, drops, stood⟩
  · rintro (⟨before, drop, after, key, rfl, drops, stood⟩ | ⟨key, drops, stood⟩)
    · exact ⟨before, drop, after ++ [entry], key, by simp, drops, stood⟩
    · exact ⟨log, entry, [], key, rfl, drops, stood⟩

theorem numbersTaken_snoc : numbersTaken (log ++ [entry]) =
    numbersTaken log + if entry.takesNumber then 1 else 0 := by
  rw [numbersTaken, List.countP_append, List.countP_singleton]
  rfl

end Logs

/-- What a step can do to the registry: nothing but use up a number, add an alias, or drop one. -/
inductive Effect (e : Engine) : Entry → Engine → Prop
  | calm {entry : Entry} {f : Engine} (makes : entry.made? = none) (drops : entry.dropped? = none)
      (keeps : KeepsAliases e f)
      (next : f.nextObject = if entry.takesNumber then e.nextObject + 1 else e.nextObject) :
      Effect e entry f
  | made {name : String} {origin : AliasOrigin} {force : Bool} {t : AliasTarget} {a : Alias} {f : Engine}
      (free : e.place? name = none) (given : origin.target = .ok t)
      (new : a.unloaded = .fresh name e.nextObject t)
      (names : f.names = (Alias.key name, e.aliases.length) :: e.names)
      (aliases : f.aliases = e.aliases ++ [a]) (next : f.nextObject = e.nextObject + 1) :
      Effect e (.create name origin force, .ok (some e.aliases.length)) f
  | dropped {name : String} {place : Nat} {a : Alias} (named : e.place? name = some place)
      (found : e.alias? place = some a) :
      Effect e (.drop name, .ok none) ((e.removeName name).setAlias place a.drop)

theorem effect_of_keeps {entry : Entry} {e f : Engine} (makes : entry.made? = none)
    (drops : entry.dropped? = none) (takes : entry.takesNumber = false) (keeps : KeepsRegistry e f) :
    Effect e entry f := by
  refine .calm makes drops keeps.toKeepsAliases ?_
  rw [takes]
  exact keeps.next

theorem target_error (origin : AliasOrigin) (x : EngineError) (n : String)
    (h : origin.target = .error x) : x ≠ .aliasExists n := by
  cases origin with
  | declaration text =>
    simp only [AliasOrigin.target, Run.declaredTarget] at h
    split at h
    · cases h
    · cases h
      exact nofun
  | source text => cases h

theorem takesNumber_of_error (name : String) (origin : AliasOrigin) (force : Bool) {x : EngineError}
    (other : ∀ n, x ≠ .aliasExists n) : Entry.takesNumber (.create name origin force, .error x) = true := by
  cases x with
  | aliasExists n => exact absurd rfl (other n)
  | _ => rfl

/-- Creating, in either form. -/
theorem outcome_create (name : String) (origin : AliasOrigin) (force : Bool) (e : Engine) :
    ((RegistryStep.create name origin force).run.outcome e) =
      (((Run.createAlias name origin.target force).outcome e).1.map some,
        ((Run.createAlias name origin.target force).outcome e).2) := by
  have mapped (r : Run Nat) : (some <$> r).outcome e = ((r.outcome e).1.map some, (r.outcome e).2) := by
    rw [← bind_pure_comp, Run.outcome_bind]
    generalize r.outcome e = o
    obtain ⟨x, f⟩ := o
    cases x <;> rfl
  cases origin with
  | declaration text =>
    rw [RegistryStep.run, AliasOrigin.target, ← Run.createMethodAlias]
    exact mapped _
  | source text =>
    rw [RegistryStep.run, AliasOrigin.target, ← Run.createSourceAlias]
    exact mapped _

/-- A step that answers nothing and does no more than this run has no effect. -/
theorem quiet_of_keeps {α : Type} {r : Run α} {s : RegistryStep} (runs : s.run = do let _ ← r; return none)
    (keeps : r.Relates KeepsRegistry)
    (quiet : ∀ x, Entry.made? (s, x) = none ∧ Entry.dropped? (s, x) = none ∧
      Entry.takesNumber (s, x) = false)
    (e : Engine) : Effect e (s, (s.run.outcome e).1) (s.run.outcome e).2 := by
  obtain ⟨makes, drops, takes⟩ := quiet (s.run.outcome e).1
  refine effect_of_keeps makes drops takes ?_
  have order := keepsRegistry_writes.toEffectOrder
  rw [runs]
  exact order.bind keeps (fun _ => order.pure _) e

/-- Every step has one of these effects, if all names lead to aliases. -/
theorem effect_run (s : RegistryStep) (e : Engine)
    (sound : ∀ name place, e.place? name = some place → ∃ a, e.alias? place = some a) :
    Effect e (s, (s.run.outcome e).1) (s.run.outcome e).2 := by
  cases s with
  | create name origin force =>
    have creates := creates_createAlias name force e (target_error origin)
    rw [outcome_create]
    generalize (Run.createAlias name origin.target force).outcome e = o at creates
    obtain ⟨x, f⟩ := o
    cases creates with
    | refused taken => exact effect_of_keeps rfl rfl rfl (keepsRegistry_writes.refl _)
    | @failed x _ _ other names aliases next =>
      have takes := takesNumber_of_error name origin force other
      refine .calm rfl rfl (keepsAliases_of_same names aliases) ?_
      rw [Except.map, takes]
      exact next
    | made free given new names aliases next => exact .made free given new names aliases next
  | find name => exact effect_of_keeps rfl rfl rfl (keepsRegistry_writes.refl e)
  | drop name =>
    cases named : e.place? name with
    | none =>
      have fails : (RegistryStep.drop name).run.outcome e = (.error (.functionNotFound name), e) := by
        rw [RegistryStep.run, Run.outcome_bind, dropAlias_missing named]
      rw [fails]
      exact effect_of_keeps rfl rfl rfl (keepsRegistry_writes.refl e)
    | some place =>
      obtain ⟨a, found⟩ := sound name place named
      have drops : (RegistryStep.drop name).run.outcome e =
          (.ok none, (e.removeName name).setAlias place a.drop) := by
        rw [RegistryStep.run, Run.outcome_bind, dropAlias_found named found]
        rfl
      rw [drops]
      exact .dropped named found
  | use place count =>
    exact quiet_of_keeps rfl (keepsRegistry_findHeld place count) (fun _ => ⟨rfl, rfl, rfl⟩) e
  | evaluate s row x =>
    exact quiet_of_keeps rfl ((keepsRegistry_calls s.session).evalAt row 0 x)
      (fun _ => ⟨rfl, rfl, rfl⟩) e
  | install library compiler => exact effect_of_keeps rfl rfl rfl (keepsRegistry_of_same rfl rfl rfl)
  | number => exact .calm rfl rfl (keepsAliases_of_same rfl rfl) rfl

theorem made_iff {entry : Entry} {key : String} {place : Nat} :
    entry.made? = some (key, place) ↔ ∃ name origin force,
      entry = (.create name origin force, .ok (some place)) ∧ Alias.key name = key := by
  constructor
  · intro h
    unfold Entry.made? at h
    split at h
    · cases h
      exact ⟨_, _, _, rfl, rfl⟩
    · cases h
  · rintro ⟨name, origin, force, rfl, rfl⟩
    rfl

theorem lookup_iff {names : List (String × Nat)} (keys : (names.map (·.1)).Nodup) {key : String}
    {place : Nat} : names.lookup key = some place ↔ (key, place) ∈ names := by
  induction names with
  | nil => exact ⟨nofun, nofun⟩
  | cons p rest ih =>
    obtain ⟨k, q⟩ := p
    obtain ⟨missing, keys⟩ := List.nodup_cons.1 keys
    rw [List.lookup_cons, List.mem_cons, Prod.mk.injEq]
    by_cases same : key = k
    · subst same
      have absent : (key, place) ∉ rest := fun listed => missing (List.mem_map.2 ⟨_, listed, rfl⟩)
      simp [absent, eq_comm]
    · rw [beq_false_of_ne same, ih keys]
      simp [same]

/-- What the registry and its log have to do with each other. -/
structure Registered (start : Engine) (log : List Entry) (e : Engine) : Prop where
  standing : ∀ key place, (key, place) ∈ e.names ↔ Stands log key place
  keys : (e.names.map (·.1)).Nodup
  places : (log.filterMap (·.made?)).map (·.2) = List.range e.aliases.length
  made : ∀ {name origin force place},
    (RegistryStep.create name origin force, Except.ok (some place)) ∈ log →
      ∃ a t, e.alias? place = some a ∧ a.name = name ∧ a.schema = Engine.defaultSchema ∧
        origin.target = .ok t ∧ (a.target = some t ∨ Dropped log place)
  dropped : ∀ {place}, Dropped log place →
    (∃ a, e.alias? place = some a ∧ a.Gone) ∧ ∀ key, (key, place) ∉ e.names
  ids : start.nextObject.toNat + numbersTaken log ≤ UInt32.size →
    e.nextObject = UInt32.ofNat (start.nextObject.toNat + numbersTaken log) ∧
      (∀ n ∈ e.aliases.map (·.id), n.toNat < start.nextObject.toNat + numbersTaken log) ∧
      (e.aliases.map (·.id)).Pairwise (· < ·)

theorem registered_start {start : Engine} (unnamed : start.names = []) (empty : start.aliases = []) :
    Registered start [] start where
  standing key place := by
    rw [unnamed]
    refine ⟨nofun, fun ⟨before, _, _, same, _⟩ => ?_⟩
    cases before <;> cases same
  keys := by
    rw [unnamed]
    exact List.nodup_nil
  places := by
    rw [empty]
    rfl
  made listed := nomatch listed
  dropped := fun ⟨before, _, _, _, same, _⟩ => by cases before <;> cases same
  ids _ := by
    rw [empty]
    exact ⟨UInt32.ofNat_toNat.symm, nofun, .nil⟩

namespace Registered

variable {start e f : Engine} {log : List Entry} {entry : Entry}

theorem place_iff (h : Registered start log e) (name : String) (place : Nat) :
    e.place? name = some place ↔ Stands log (Alias.key name) place :=
  (lookup_iff h.keys).trans (h.standing _ _)

/-- A name leads to an alias with that name. -/
theorem named (h : Registered start log e) {key : String} {place : Nat} (listed : (key, place) ∈ e.names) :
    ∃ a, e.alias? place = some a ∧ Alias.key a.name = key := by
  obtain ⟨before, entry, after, rfl, makes, _⟩ := (h.standing key place).1 listed
  obtain ⟨name, origin, force, rfl, rfl⟩ := made_iff.1 makes
  obtain ⟨a, _, found, same, _⟩ := h.made (List.mem_append_right before List.mem_cons_self)
  exact ⟨a, found, congrArg Alias.key same⟩

/-- Numbers go up with every one that is given out. -/
theorem ids_step (h : Registered start log e)
    (next : f.nextObject = if entry.takesNumber then e.nextObject + 1 else e.nextObject)
    (ids : f.aliases.map (·.id) = e.aliases.map (·.id) ∨
      (entry.takesNumber = true ∧ f.aliases.map (·.id) = e.aliases.map (·.id) ++ [e.nextObject]))
    (room : start.nextObject.toNat + numbersTaken (log ++ [entry]) ≤ UInt32.size) :
    f.nextObject = UInt32.ofNat (start.nextObject.toNat + numbersTaken (log ++ [entry])) ∧
      (∀ n ∈ f.aliases.map (·.id), n.toNat < start.nextObject.toNat + numbersTaken (log ++ [entry])) ∧
      (f.aliases.map (·.id)).Pairwise (· < ·) := by
  rw [numbersTaken_snoc, ← Nat.add_assoc] at room ⊢
  obtain ⟨counted, below, sorted⟩ := h.ids (Nat.le_trans (Nat.le_add_right _ _) room)
  generalize start.nextObject.toNat + numbersTaken log = taken at room counted below ⊢
  have later (n : UInt32) (listed : n ∈ e.aliases.map (·.id)) :
      n.toNat < taken + if entry.takesNumber = true then 1 else 0 :=
    Nat.lt_of_lt_of_le (below n listed) (Nat.le_add_right _ _)
  refine ⟨?_, ?_⟩
  · rw [next, counted]
    split
    · exact (UInt32.ofNat_add taken 1).symm
    · rfl
  · rcases ids with same | ⟨takes, same⟩
    · rw [same]
      exact ⟨later, sorted⟩
    · rw [if_pos takes] at room
      have exactly : e.nextObject.toNat = taken := by
        rw [counted]
        exact UInt32.toNat_ofNat_of_lt' (Nat.lt_of_succ_le room)
      rw [same]
      refine ⟨fun n listed => ?_, List.pairwise_append.2 ⟨sorted, List.pairwise_singleton _ _, ?_⟩⟩
      · rcases List.mem_append.1 listed with listed | listed
        · exact later n listed
        · rw [List.mem_singleton.1 listed, exactly, if_pos takes]
          exact Nat.lt_succ_self taken
      · intro n listed m last
        rw [List.mem_singleton.1 last, UInt32.lt_iff_toNat_lt, exactly]
        exact below n listed

theorem calm (h : Registered start log e) (makes : entry.made? = none) (drops : entry.dropped? = none)
    (keeps : KeepsAliases e f)
    (next : f.nextObject = if entry.takesNumber then e.nextObject + 1 else e.nextObject) :
    Registered start (log ++ [entry]) f := by
  have untouched (key : String) : ¬ entry.Touches key := by
    rintro (⟨place, touched⟩ | touched)
    · cases makes.symm.trans touched
    · cases drops.symm.trans touched
  have stands (key : String) (place : Nat) :
      Stands (log ++ [entry]) key place ↔ Stands log key place := by
    rw [stands_snoc, makes]
    simp [untouched]
  have drop (place : Nat) : Dropped (log ++ [entry]) place ↔ Dropped log place := by
    rw [dropped_snoc, drops]
    simp
  constructor
  case standing =>
    intro key place
    rw [keeps.names, stands]
    exact h.standing key place
  case keys =>
    rw [keeps.names]
    exact h.keys
  case places =>
    have length : f.aliases.length = e.aliases.length := by
      have same := congrArg List.length keeps.aliases
      rwa [List.length_map, List.length_map] at same
    rw [List.filterMap_append, length, ← h.places]
    simp [makes]
  case made =>
    intro name origin force place listed
    rcases List.mem_append.1 listed with listed | listed
    · obtain ⟨a, t, found, name, schema, given, target⟩ := h.made listed
      obtain ⟨b, there, same⟩ := keeps.alias found
      refine ⟨b, t, there, (congrArg Alias.name same).trans name,
        (congrArg Alias.schema same).trans schema, given, ?_⟩
      have kept : b.unloaded.target = a.unloaded.target := congrArg Alias.target same
      rw [drop]
      exact target.imp_left kept.trans
    · rw [← List.mem_singleton.1 listed] at makes
      cases makes
  case dropped =>
    intro place gone
    obtain ⟨⟨a, found, unloadable⟩, unnamed⟩ := h.dropped ((drop place).1 gone)
    refine ⟨⟨a, keeps.gone found unloadable, unloadable⟩, fun key => ?_⟩
    rw [keeps.names]
    exact unnamed key
  case ids =>
    refine h.ids_step next (.inl ?_)
    have same := congrArg (List.map (·.id)) keeps.aliases
    rwa [List.map_map, List.map_map] at same

theorem create {name : String} {origin : AliasOrigin} {force : Bool} {t : AliasTarget} {a : Alias}
    (h : Registered start log e) (free : e.place? name = none) (given : origin.target = .ok t)
    (new : a.unloaded = .fresh name e.nextObject t)
    (names : f.names = (Alias.key name, e.aliases.length) :: e.names)
    (aliases : f.aliases = e.aliases ++ [a]) (next : f.nextObject = e.nextObject + 1) :
    Registered start (log ++ [(.create name origin force, .ok (some e.aliases.length))]) f := by
  have absent (place : Nat) : (Alias.key name, place) ∉ e.names := fun listed => by
    cases free.symm.trans ((lookup_iff h.keys).2 listed)
  have older {place : Nat} {b : Alias} (found : e.alias? place = some b) : f.alias? place = some b := by
    have bound := (List.getElem?_eq_some_iff.1 found).1
    rw [Engine.alias?, aliases, List.getElem?_append_left bound]
    exact found
  have newest : f.alias? e.aliases.length = some a := by
    rw [Engine.alias?, aliases, List.getElem?_concat_length]
  have gone (place : Nat) :
      Dropped (log ++ [(.create name origin force, .ok (some e.aliases.length))]) place ↔
        Dropped log place := by
    rw [dropped_snoc]
    refine or_iff_left ?_
    rintro ⟨_, drops, _⟩
    cases drops
  constructor
  case standing =>
    intro key place
    rw [names, List.mem_cons, stands_snoc, ← h.standing]
    constructor
    · rintro (same | listed)
      · exact .inl (congrArg some same.symm)
      · refine .inr ⟨listed, ?_⟩
        rintro (⟨_, touched⟩ | touched)
        · cases touched
          exact absent place listed
        · cases touched
    · rintro (same | ⟨listed, _⟩)
      · exact .inl (Option.some.inj same).symm
      · exact .inr listed
  case keys =>
    rw [names, List.map_cons, List.nodup_cons]
    refine ⟨fun listed => ?_, h.keys⟩
    obtain ⟨⟨key, place⟩, there, rfl⟩ := List.mem_map.1 listed
    exact absent place there
  case places =>
    rw [List.filterMap_append, List.map_append, h.places, aliases, List.length_append]
    exact List.range_succ.symm
  case made =>
    intro name' origin' force' place listed
    rcases List.mem_append.1 listed with listed | listed
    · obtain ⟨b, u, found, rest⟩ := h.made listed
      rw [gone]
      exact ⟨b, u, older found, rest⟩
    · cases List.mem_singleton.1 listed
      exact ⟨a, t, newest, congrArg Alias.name new, congrArg Alias.schema new, given,
        .inl (congrArg Alias.target new)⟩
  case dropped =>
    intro place dropped
    obtain ⟨⟨b, found, unloadable⟩, unnamed⟩ := h.dropped ((gone place).1 dropped)
    refine ⟨⟨b, older found, unloadable⟩, fun key listed => ?_⟩
    rw [names, List.mem_cons] at listed
    rcases listed with same | listed
    · cases same
      exact Nat.lt_irrefl _ (List.getElem?_eq_some_iff.1 found).1
    · exact unnamed key listed
  case ids =>
    refine h.ids_step next (.inr ⟨rfl, ?_⟩)
    have number : a.id = e.nextObject := congrArg Alias.id new
    rw [aliases, List.map_append, List.map_singleton, number]

theorem drop {name : String} {place : Nat} {a : Alias} (h : Registered start log e)
    (named : e.place? name = some place) (found : e.alias? place = some a) :
    Registered start (log ++ [(.drop name, .ok none)])
      ((e.removeName name).setAlias place a.drop) := by
  have listed : (Alias.key name, place) ∈ e.names := (lookup_iff h.keys).1 named
  have kept {key : String} {other : Nat} :
      (key, other) ∈ ((e.removeName name).setAlias place a.drop).names ↔
        (key, other) ∈ e.names ∧ key ≠ Alias.key name := by
    have names : ((e.removeName name).setAlias place a.drop).names =
        e.names.filter (·.1 != Alias.key name) := rfl
    rw [names, List.mem_filter]
    simp
  have here : ((e.removeName name).setAlias place a.drop).alias? place = some a.drop :=
    List.getElem?_set_self (List.getElem?_eq_some_iff.1 found).1
  have elsewhere {other : Nat} (apart : other ≠ place) :
      ((e.removeName name).setAlias place a.drop).alias? other = e.alias? other :=
    List.getElem?_set_ne (Ne.symm apart)
  have gone (other : Nat) : Dropped (log ++ [(.drop name, .ok none)]) other ↔
      Dropped log other ∨ other = place := by
    rw [dropped_snoc]
    refine or_congr_right ⟨?_, ?_⟩
    · rintro ⟨key, same, stood⟩
      cases same
      have there := (h.place_iff name other).2 stood
      exact Option.some.inj (there.symm.trans named)
    · rintro rfl
      exact ⟨_, rfl, (h.place_iff name other).1 named⟩
  have unloadable : a.drop.Gone := ⟨rfl, rfl⟩
  constructor
  case standing =>
    intro key other
    rw [kept, h.standing, stands_snoc]
    constructor
    · rintro ⟨stood, apart⟩
      refine .inr ⟨stood, ?_⟩
      rintro (⟨_, touched⟩ | touched)
      · cases touched
      · exact apart (Option.some.inj touched).symm
    · rintro (makes | ⟨stood, untouched⟩)
      · cases makes
      · exact ⟨stood, fun same => untouched (.inr (congrArg some same.symm))⟩
  case keys =>
    exact h.keys.sublist (List.filter_sublist.map _)
  case places =>
    have length : ((e.removeName name).setAlias place a.drop).aliases.length = e.aliases.length :=
      List.length_set
    rw [List.filterMap_append, List.map_append, h.places, length]
    exact List.append_nil _
  case made =>
    intro name' origin force other made
    rcases List.mem_append.1 made with made | made
    · obtain ⟨b, t, there, name, schema, given, target⟩ := h.made made
      rw [gone]
      by_cases same : other = place
      · subst same
        cases found.symm.trans there
        exact ⟨a.drop, t, here, name, schema, given, .inr (.inr rfl)⟩
      · exact ⟨b, t, (elsewhere same).trans there, name, schema, given, target.imp_right .inl⟩
    · cases List.mem_singleton.1 made
  case dropped =>
    intro other dropped
    refine ⟨?_, fun key there => ?_⟩
    · by_cases same : other = place
      · exact ⟨a.drop, same ▸ here, unloadable⟩
      · obtain ⟨b, there, unloadable⟩ := (h.dropped (((gone other).1 dropped).resolve_right same)).1
        exact ⟨b, (elsewhere same).trans there, unloadable⟩
    · obtain ⟨older, apart⟩ := kept.1 there
      rcases (gone other).1 dropped with earlier | rfl
      · exact (h.dropped earlier).2 key older
      · -- an alias has one name only, so that no other key leads to it
        obtain ⟨b, found', key'⟩ := h.named older
        obtain ⟨c, found'', key''⟩ := h.named listed
        cases found'.symm.trans found''
        exact apart (key'.symm.trans key'')
  case ids =>
    refine h.ids_step rfl (.inl ?_)
    exact map_set_same found rfl

/-- One step of any kind. -/
theorem step (h : Registered start log e) (effect : Effect e entry f) :
    Registered start (log ++ [entry]) f := by
  cases effect with
  | calm makes drops keeps next => exact h.calm makes drops keeps next
  | made free given new names aliases next => exact h.create free given new names aliases next
  | dropped named found => exact h.drop named found

theorem sound (h : Registered start log e) (name : String) (place : Nat)
    (named : e.place? name = some place) : ∃ a, e.alias? place = some a := by
  obtain ⟨a, found, _⟩ := h.named ((lookup_iff h.keys).1 named)
  exact ⟨a, found⟩

/-- Any steps, from a registry without aliases on. -/
theorem history (unnamed : start.names = []) (empty : start.aliases = []) (steps : List RegistryStep) :
    Registered start (start.history steps).1 (start.history steps).2 := by
  suffices from_here : ∀ (h : List Entry × Engine), Registered start h.1 h.2 →
      Registered start (steps.foldl record h).1 (steps.foldl record h).2 from
    from_here ([], start) (registered_start unnamed empty)
  induction steps with
  | nil => exact fun h known => known
  | cons s rest ih => exact fun h known => ih (record h s) (known.step (effect_run s h.2 known.sound))

end Registered

/-- What the registry answers after a log. A name is found exactly where it stands, and the alias there is
as it was made. Creating fails because of an alias exactly if the name stands for one; what fails to be
created or dropped changes nothing. No two names are one. Aliases get their places in turn, and higher
numbers as long as these do not run out. Whatever was dropped is not found any more, and it is of no use
to those who kept it. -/
structure Engine.Follows (e start : Engine) (log : List Entry) : Prop where
  find : ∀ name place, ((RegistryStep.find name).run.outcome e).1 = .ok (some place) ↔
    Stands log (Alias.key name) place
  found : ∀ name a, e.findAlias? name = some a ↔
    ∃ place, Stands log (Alias.key name) place ∧ e.alias? place = some a
  made : ∀ name origin force place,
    (RegistryStep.create name origin force, Except.ok (some place)) ∈ log →
      ∃ a t, e.alias? place = some a ∧ a.name = name ∧ a.schema = Engine.defaultSchema ∧
        origin.target = .ok t ∧
        ((a.target = some t ∧ ¬ Dropped log place) ∨ (a.target = none ∧ Dropped log place))
  taken : ∀ name origin force n,
    ((RegistryStep.create name origin force).run.outcome e).1 = .error (.aliasExists n) ↔
      n = name ∧ ∃ place, Stands log (Alias.key name) place
  create_fails : ∀ name origin force x,
    ((RegistryStep.create name origin force).run.outcome e).1 = .error x →
      ((RegistryStep.create name origin force).run.outcome e).2.names = e.names ∧
        ((RegistryStep.create name origin force).run.outcome e).2.aliases = e.aliases
  drop_fails : ∀ name x, ((RegistryStep.drop name).run.outcome e).1 = .error x →
    ((RegistryStep.drop name).run.outcome e).2 = e
  distinct : (e.aliasNames.map Alias.key).Nodup
  places : (log.filterMap (·.made?)).map (·.2) = List.range e.aliases.length
  ids : start.nextObject.toNat + numbersTaken log ≤ UInt32.size →
    (e.aliases.map (·.id)).Pairwise (· < ·)
  gone : ∀ place, Dropped log place → (∀ name, e.place? name ≠ some place) ∧
    ∃ a, e.alias? place = some a ∧
      ∀ count, ((Run.findHeld place count).outcome e).1 = .error (.functionNotFound a.name)

section Laws

variable {start e : Engine} {log : List Entry}

namespace Registered

theorem aliasNames_nodup (h : Registered start log e) : (e.aliasNames.map Alias.key).Nodup := by
  have keyed : ∀ names : List (String × Nat), (∀ p ∈ names, p ∈ e.names) →
      (names.filterMap fun p => (e.alias? p.2).map (·.name)).map Alias.key = names.map (·.1) := by
    intro names listed
    induction names with
    | nil => rfl
    | cons p rest ih =>
      obtain ⟨a, found, key⟩ := h.named (listed p List.mem_cons_self)
      rw [List.filterMap_cons, found]
      simp only [Option.map_some, List.map_cons]
      rw [key, ih fun q there => listed q (List.mem_cons_of_mem p there)]
  have sorted := (Text.sort_perm Text.compareStrings
    (e.names.filterMap fun p => (e.alias? p.2).map (·.name))).map Alias.key
  rw [keyed e.names fun _ there => there] at sorted
  exact sorted.nodup_iff.2 h.keys

theorem follows (h : Registered start log e) : e.Follows start log where
  find name place := by
    rw [← h.place_iff]
    exact ⟨fun same => Except.ok.inj same, congrArg Except.ok⟩
  found name a := by
    simp only [← h.place_iff, Engine.findAlias?]
    exact Option.bind_eq_some_iff
  made name origin force place listed := by
    obtain ⟨a, t, found, same, schema, given, target⟩ := h.made listed
    refine ⟨a, t, found, same, schema, given, ?_⟩
    by_cases dropped : Dropped log place
    · obtain ⟨b, found', gone⟩ := (h.dropped dropped).1
      cases found.symm.trans found'
      exact .inr ⟨gone.1, dropped⟩
    · exact .inl ⟨target.resolve_right dropped, dropped⟩
  taken name origin force n := by
    have creates := creates_createAlias name force e (target_error origin)
    simp only [← h.place_iff, outcome_create]
    generalize (Run.createAlias name origin.target force).outcome e = o at creates
    obtain ⟨x, f⟩ := o
    cases creates with
    | refused taken =>
      constructor
      · intro same
        cases same
        exact ⟨rfl, Option.isSome_iff_exists.1 taken⟩
      · rintro ⟨rfl, _⟩
        rfl
    | failed free other =>
      constructor
      · intro same
        cases same
        exact absurd rfl (other n)
      · rintro ⟨_, place, named⟩
        cases free.symm.trans named
    | made free =>
      constructor
      · intro same
        cases same
      · rintro ⟨_, place, named⟩
        cases free.symm.trans named
  create_fails name origin force x := by
    have creates := creates_createAlias name force e (target_error origin)
    simp only [outcome_create]
    generalize (Run.createAlias name origin.target force).outcome e = o at creates
    obtain ⟨y, f⟩ := o
    intro fails
    cases creates with
    | refused taken => exact ⟨rfl, rfl⟩
    | failed _ _ names aliases => exact ⟨names, aliases⟩
    | made => cases fails
  drop_fails name x := by
    intro fails
    cases named : e.place? name with
    | none => rw [RegistryStep.run, Run.outcome_bind, dropAlias_missing named]
    | some place =>
      obtain ⟨a, found⟩ := h.sound name place named
      rw [RegistryStep.run, Run.outcome_bind, dropAlias_found named found] at fails
      cases fails
  distinct := h.aliasNames_nodup
  places := h.places
  ids room := (h.ids room).2.2
  gone place dropped := by
    obtain ⟨⟨a, found, gone⟩, unnamed⟩ := h.dropped dropped
    refine ⟨fun name named => ?_, a, found, findHeld_of_gone found gone⟩
    exact unnamed _ ((lookup_iff h.keys).1 named)

end Registered

theorem steps_history (start : Engine) (steps : List RegistryStep) :
    (start.history steps).1.map (·.1) = steps := by
  suffices from_here : ∀ h : List Entry × Engine,
      (steps.foldl record h).1.map (·.1) = h.1.map (·.1) ++ steps from from_here ([], start)
  induction steps with
  | nil => exact fun h => (List.append_nil _).symm
  | cons s rest ih =>
    intro h
    rw [List.foldl_cons, ih, record, List.map_append, List.append_assoc]
    rfl

/-- The registry of aliases is a map from names to aliases that does not mind their case. From an empty one
on, it follows the log of any steps. -/
theorem history_follows (start : Engine) (unnamed : start.names = []) (empty : start.aliases = [])
    (steps : List RegistryStep) :
    (start.history steps).1.map (·.1) = steps ∧
      (start.history steps).2.Follows start (start.history steps).1 :=
  ⟨steps_history start steps, (Registered.history unnamed empty steps).follows⟩

/-- An alias is created without being loaded, found in another case, not created again, dropped and created
anew, which has used up a number for a declaration that is none. The first one is of no use then. -/
theorem history_follows_recreated :
    let steps : List RegistryStep :=
      [.create "area" (.source "x") true, .find "AREA", .create "Area" (.source "y") true, .drop "aREA",
        .create "area" (.declaration "y") true, .create "AREA" (.source "y") true, .find "area", .use 0 1]
    let history := Engine.history {} steps
    history.1.map (·.2) =
        [.ok (some 0), .ok (some 0), .error (.aliasExists "Area"), .ok none, .error (.syntaxError "y"),
          .ok (some 1), .ok (some 1), .error (.functionNotFound "area")] ∧
      history.2.aliases.map (·.id) = [1, 3] ∧ history.2.Follows {} history.1 :=
  ⟨rfl, rfl, (history_follows {} rfl rfl _).2⟩

end Laws

end SqlEngine
