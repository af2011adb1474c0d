import Mathlib.Data.List.TakeWhile
import SqlEngine.Proofs.RegistryEffects

/-!
# Declarations of aliases

A declaration is the name of a class, a point, the simple name of a method and perhaps the types of its parameters
behind a bracket. One that cannot be taken apart so is a syntax error, forced or not, unless all that it lacks is the
simple name in front of the bracket: then what stands from the bracket on is taken for a method.
-/

namespace SqlEngine

namespace AliasTarget

variable {cs className simple signature : List Char} {declaration : String} {t : AliasTarget}

/-- A declaration without its white space. -/
def declared (declaration : String) : List Char := declaration.toList.filter (!Text.isBlank ·)

/-- The last point before the first bracket stands between the class and the simple name. Behind the simple name
there is nothing, or what the first bracket begins. -/
structure Parts (cs className simple signature : List Char) : Prop where
  text : cs = className ++ '.' :: (simple ++ signature)
  classPlain : '(' ∉ className
  plain : '(' ∉ simple
  last : '.' ∉ simple
  bracket : signature = [] ∨ ∃ types, signature = '(' :: types

/-- The text names a class and a method in it. -/
def NamesMethod (cs : List Char) : Prop :=
  ∃ className simple signature, Parts cs className simple signature ∧ className ≠ [] ∧ simple ≠ []

/-- The text names a class and has a bracket where the simple name of a method should stand. -/
def LacksName (cs : List Char) : Prop :=
  ∃ className signature, Parts cs className [] signature ∧ className ≠ [] ∧ signature ≠ []

theorem parts_iff : Parts cs className simple signature ↔
    Text.splitLast? '.' (cs.takeWhile (· != '(')) = some (className, simple) ∧ cs.dropWhile (· != '(') = signature := by
  rw [Text.splitLast?_eq_some_iff]
  constructor
  · rintro ⟨rfl, classPlain, plain, last, bracket⟩
    have front : ∀ c ∈ className ++ '.' :: simple, (c != '(') = true := by
      intro c hc
      apply bne_iff_ne.2
      rintro rfl
      rcases List.mem_append.1 hc with hc | hc
      · exact classPlain hc
      · rcases List.mem_cons.1 hc with hc | hc
        · exact absurd hc (by decide)
        · exact plain hc
    have whole : className ++ '.' :: (simple ++ signature) = (className ++ '.' :: simple) ++ signature := by
      rw [List.append_assoc, List.cons_append]
    rw [whole, List.takeWhile_append_of_pos front, List.dropWhile_append_of_pos front]
    rcases bracket with rfl | ⟨types, rfl⟩ <;> exact ⟨⟨List.append_nil _, last⟩, rfl⟩
  · rintro ⟨⟨front, last⟩, rfl⟩
    have whole := List.takeWhile_append_dropWhile (p := (· != '(')) (l := cs)
    have plain : ∀ c ∈ className ++ '.' :: simple, c ≠ '(' := by
      intro c hc
      rw [← front] at hc
      exact bne_iff_ne.1 (List.mem_takeWhile_imp (p := (· != '(')) hc)
    refine ⟨?_, fun hc => plain _ (List.mem_append_left _ hc) rfl, ?_, last, ?_⟩
    · rw [front, List.append_assoc, List.cons_append] at whole
      exact whole.symm
    · exact fun hc => plain _ (List.mem_append_right _ (List.mem_cons_of_mem _ hc)) rfl
    · have stops := List.head?_dropWhile_not (· != '(') cs
      cases rest : cs.dropWhile (· != '(') with
      | nil => exact .inl rfl
      | cons c types =>
        rw [rest] at stops
        obtain rfl : c = '(' := by simpa using stops
        exact .inr ⟨types, rfl⟩

/-- A text is taken apart in one way. -/
theorem Parts.unique {className' simple' signature' : List Char} (h : Parts cs className simple signature)
    (h' : Parts cs className' simple' signature') :
    className = className' ∧ simple = simple' ∧ signature = signature' := by
  obtain ⟨split, rest⟩ := parts_iff.1 h
  obtain ⟨split', rest'⟩ := parts_iff.1 h'
  obtain ⟨rfl, rfl⟩ := Prod.mk.inj (Option.some.inj (split.symm.trans split'))
  exact ⟨rfl, rfl, rest.symm.trans rest'⟩

theorem not_namesMethod_of_lacksName (h : LacksName cs) : ¬ NamesMethod cs := by
  obtain ⟨_, _, parts, _, _⟩ := h
  rintro ⟨_, _, _, parts', _, named⟩
  exact named (parts.unique parts').2.1.symm

/-- What is read is the class, and all behind the point that ends it; either must be there. -/
theorem ofDeclaration?_eq_some_iff : ofDeclaration? declaration = some t ↔
    ∃ className simple signature, Parts (declared declaration) className simple signature ∧ className ≠ [] ∧
      simple ++ signature ≠ [] ∧ t = classMethod (String.ofList className) (String.ofList (simple ++ signature)) := by
  have stripped : declaration.toList.filter (!Text.isBlank ·) = declared declaration := rfl
  simp only [ofDeclaration?, stripped]
  cases split : Text.splitLast? '.' ((declared declaration).takeWhile (· != '(')) with
  | none =>
    refine iff_of_false nofun ?_
    rintro ⟨_, _, _, parts, _⟩
    cases split.symm.trans (parts_iff.1 parts).1
  | some pair =>
    obtain ⟨className, simple⟩ := pair
    have parts := parts_iff.2 ⟨split, rfl⟩
    dsimp only
    constructor
    · intro read
      split at read
      · cases read
      · next filled =>
        cases read
        rw [Bool.or_eq_true, List.isEmpty_iff, List.isEmpty_iff, not_or] at filled
        exact ⟨_, _, _, parts, filled.1, filled.2, rfl⟩
    · rintro ⟨_, _, _, parts', named, filled, rfl⟩
      obtain ⟨rfl, rfl, rfl⟩ := parts.unique parts'
      apply if_neg
      rw [Bool.or_eq_true, List.isEmpty_iff, List.isEmpty_iff, not_or]
      exact ⟨named, filled⟩

/-- A declaration is read if it names a method, or a class and no simple name in front of its bracket. -/
theorem ofDeclaration?_eq_none_iff : ofDeclaration? declaration = none ↔
    ¬ NamesMethod (declared declaration) ∧ ¬ LacksName (declared declaration) := by
  rw [← not_or, Option.eq_none_iff_forall_ne_some]
  constructor
  · rintro refused (⟨_, simple, signature, parts, named, some⟩ | ⟨_, signature, parts, named, some⟩)
    · exact refused _ (ofDeclaration?_eq_some_iff.2
        ⟨_, _, _, parts, named, List.append_ne_nil_of_left_ne_nil some signature, rfl⟩)
    · exact refused _ (ofDeclaration?_eq_some_iff.2 ⟨_, _, _, parts, named, some, rfl⟩)
  · intro neither t read
    obtain ⟨className, simple, signature, parts, named, filled, _⟩ := ofDeclaration?_eq_some_iff.1 read
    apply neither
    cases simple with
    | nil => exact .inr ⟨_, _, parts, named, filled⟩
    | cons c r => exact .inl ⟨_, _, _, parts, named, List.cons_ne_nil c r⟩

end AliasTarget

namespace Run

open AliasTarget (Parts NamesMethod LacksName declared)

variable {e : Engine} {name declaration : String} {id : UInt32} {force : Bool} {t : AliasTarget}

/-- Makes an alias of a declaration and finds its methods, without adding it to the registry. -/
def declaredAlias (name : String) (id : UInt32) (declaration : String) (force : Bool) : Run Alias := do
  let a := Alias.fresh name id (← ofExcept (declaredTarget declaration))
  if force then tryCatch ((·.2) <$> loadAlias a) fun _ => pure a else (·.2) <$> loadAlias a

/-- Creating an alias by a declaration makes it and adds it under a name that is free. -/
theorem createMethodAlias_eq (name declaration : String) (force : Bool) :
    createMethodAlias name declaration force = do
      if ((← get).place? name).isSome then throw (.aliasExists name)
      let id ← newObject
      let a ← declaredAlias name id declaration force
      let e ← get
      set (e.addAlias a)
      return e.aliases.length := by
  simp only [createMethodAlias, createAlias, declaredAlias, bind_assoc]
  cases force <;> rfl

/-- What comes of loading an alias. -/
theorem outcome_loaded (a : Alias) (e : Engine) :
    (((·.2) <$> loadAlias a : Run Alias).outcome e).1 =
      (a.load e.library e.compiler).1.map fun _ => (a.load e.library e.compiler).2.2 := by
  rw [← bind_pure_comp, outcome_bind, loadAlias, outcome_ofOutcome]
  generalize a.load e.library e.compiler = o
  obtain ⟨found, compiler, b⟩ := o
  cases found <;> rfl

/-- An alias for a method is made, or the method is not found in its class. -/
inductive Loads (a : Alias) : Except EngineError Alias → Prop
  | ready {b : Alias} (same : b.unloaded = a.unloaded) : Loads a (.ok b)
  | missing {x : EngineError} (lookup : x.IsLookup) : Loads a (.error x)

theorem loads_fresh (name : String) (id : UInt32) (className method : String) (e : Engine) :
    let a := Alias.fresh name id (.classMethod className method)
    Loads a (((·.2) <$> loadAlias a : Run Alias).outcome e).1 := by
  intro a
  rw [outcome_loaded]
  cases look : e.library.load className >>= fun c => Candidate.ofClass c method with
  | ok candidates =>
    have found : a.load e.library e.compiler =
        (.ok candidates, e.compiler, { a with candidates := candidates }) := by
      simp only [Alias.load, Alias.resolve, a, Alias.fresh, look]
    rw [found]
    exact .ready rfl
  | error x =>
    have missing : a.load e.library e.compiler = (.error x, e.compiler, a) := by
      simp only [Alias.load, Alias.resolve, a, Alias.fresh, look]
    rw [missing]
    exact .missing (class_error look)

/-- A declaration that is not read fails before anything is looked up. -/
theorem declaredAlias_of_none (unread : AliasTarget.ofDeclaration? declaration = none) :
    ((declaredAlias name id declaration force).outcome e).1 = .error (.syntaxError declaration) := by
  rw [declaredAlias, outcome_bind, outcome_ofExcept, declaredTarget, unread]

/-- A declaration that is read comes to an alias for it. Without force its methods may not be found instead. -/
theorem declaredAlias_of_some (read : AliasTarget.ofDeclaration? declaration = some t) :
    (∃ a, ((declaredAlias name id declaration force).outcome e).1 = .ok a ∧ a.target = some t) ∨
      force = false ∧
        ∃ x, ((declaredAlias name id declaration force).outcome e).1 = .error x ∧ x.IsLookup := by
  obtain ⟨className, simple, signature, _, _, _, rfl⟩ := AliasTarget.ofDeclaration?_eq_some_iff.1 read
  rw [declaredAlias, outcome_bind, outcome_ofExcept, declaredTarget, read]
  have loads := loads_fresh name id (String.ofList className) (String.ofList (simple ++ signature)) e
  cases force with
  | false =>
    dsimp only at loads ⊢
    rw [if_neg Bool.false_ne_true]
    generalize (((·.2) <$> loadAlias _ : Run Alias).outcome e).1 = x at loads
    cases loads with
    | @ready b same => exact .inl ⟨b, rfl, congrArg Alias.target same⟩
    | missing lookup => exact .inr ⟨rfl, _, rfl, lookup⟩
  | true =>
    dsimp only at loads ⊢
    rw [if_pos rfl, outcome_tryCatch]
    generalize ((·.2) <$> loadAlias _ : Run Alias).outcome e = o at loads
    obtain ⟨x, f⟩ := o
    cases loads with
    | @ready b same => exact .inl ⟨b, rfl, congrArg Alias.target same⟩
    | missing => exact .inl ⟨_, rfl, rfl⟩

/-- The declaration is a syntax error exactly if it names no method in a class. An alias made of it records the
class and what stands behind the point after it. -/
structure ReadsDeclaration (e : Engine) (name : String) (id : UInt32) (declaration : String) (force : Bool) :
    Prop where
  refused : (∃ text, ((declaredAlias name id declaration force).outcome e).1 = .error (.syntaxError text)) ↔
    ¬ NamesMethod (declared declaration)
  recorded : ∀ a, ((declaredAlias name id declaration force).outcome e).1 = .ok a →
    ∃ className simple signature, Parts (declared declaration) className simple signature ∧ className ≠ [] ∧
      simple ≠ [] ∧ a.target = some (.classMethod (String.ofList className) (String.ofList (simple ++ signature)))

theorem not_syntaxError_of_read (read : AliasTarget.ofDeclaration? declaration = some t) (text : String) :
    ((declaredAlias name id declaration force).outcome e).1 ≠ .error (.syntaxError text) := by
  rcases declaredAlias_of_some read with ⟨a, made, _⟩ | ⟨_, x, failed, lookup⟩
  · rw [made]
    nofun
  · rw [failed]
    rintro ⟨⟩
    cases lookup

theorem target_of_read (read : AliasTarget.ofDeclaration? declaration = some t) {a : Alias}
    (made : ((declaredAlias name id declaration force).outcome e).1 = .ok a) : a.target = some t := by
  rcases declaredAlias_of_some read with ⟨b, made', recorded⟩ | ⟨_, x, failed, _⟩
  · cases made.symm.trans made'
    exact recorded
  · cases made.symm.trans failed

theorem readsDeclaration_of_unread (unread : AliasTarget.ofDeclaration? declaration = none) :
    ReadsDeclaration e name id declaration force where
  refused := iff_of_true ⟨_, declaredAlias_of_none unread⟩ (AliasTarget.ofDeclaration?_eq_none_iff.1 unread).1
  recorded a made := by cases made.symm.trans (declaredAlias_of_none unread)

theorem exists_read (readable : NamesMethod (declared declaration) ∨ LacksName (declared declaration)) :
    ∃ t, AliasTarget.ofDeclaration? declaration = some t := by
  cases read : AliasTarget.ofDeclaration? declaration with
  | some t => exact ⟨t, rfl⟩
  | none =>
    obtain ⟨notNamed, notLacking⟩ := AliasTarget.ofDeclaration?_eq_none_iff.1 read
    exact absurd readable (not_or.2 ⟨notNamed, notLacking⟩)

theorem readsDeclaration_of_namesMethod (names : NamesMethod (declared declaration)) :
    ReadsDeclaration e name id declaration force := by
  obtain ⟨t, read⟩ := exists_read (.inl names)
  refine ⟨iff_of_false ?_ (not_not_intro names), fun a made => ?_⟩
  · rintro ⟨text, failed⟩
    exact not_syntaxError_of_read read text failed
  · obtain ⟨className, simple, signature, parts, named, _, rfl⟩ := AliasTarget.ofDeclaration?_eq_some_iff.1 read
    obtain ⟨_, _, _, parts', _, some⟩ := names
    obtain ⟨rfl, rfl, rfl⟩ := parts.unique parts'
    exact ⟨_, _, _, parts, named, some, target_of_read read made⟩

/-- A bracket without a simple name in front of it is recorded as the method. -/
theorem declaredAlias_of_lacksName (lacks : LacksName (declared declaration)) :
    (∀ text, ((declaredAlias name id declaration force).outcome e).1 ≠ .error (.syntaxError text)) ∧
      ∀ a, ((declaredAlias name id declaration force).outcome e).1 = .ok a →
        ∃ className signature, Parts (declared declaration) className [] signature ∧
          a.target = some (.classMethod (String.ofList className) (String.ofList signature)) := by
  obtain ⟨t, read⟩ := exists_read (.inr lacks)
  refine ⟨not_syntaxError_of_read read, fun a made => ?_⟩
  obtain ⟨_, _, _, parts, _, _, rfl⟩ := AliasTarget.ofDeclaration?_eq_some_iff.1 read
  obtain ⟨className, signature, parts', _, _⟩ := lacks
  obtain ⟨rfl, rfl, rfl⟩ := parts.unique parts'
  exact ⟨_, _, parts, target_of_read read made⟩

/-- Declarations are read by their grammar unless all they lack is the simple name in front of the bracket. Such
a one is no syntax error: with force it becomes an alias for a method that goes by what the bracket begins. -/
theorem readsDeclaration_iff (e : Engine) (name : String) (id : UInt32) (declaration : String) (force : Bool) :
    (ReadsDeclaration e name id declaration force ↔ ¬ LacksName (declared declaration)) ∧
      (∀ text, ((declaredAlias name id declaration force).outcome e).1 = .error (.syntaxError text) →
        text = declaration) ∧
      (NamesMethod (declared declaration) ∨ LacksName (declared declaration) → force = true →
        ∃ a, ((declaredAlias name id declaration force).outcome e).1 = .ok a) ∧
      (LacksName (declared declaration) →
        (∀ text, ((declaredAlias name id declaration force).outcome e).1 ≠ .error (.syntaxError text)) ∧
        ∀ a, ((declaredAlias name id declaration force).outcome e).1 = .ok a →
          ∃ className signature, Parts (declared declaration) className [] signature ∧
            a.target = some (.classMethod (String.ofList className) (String.ofList signature))) ∧
      createMethodAlias name declaration force = do
        if ((← get).place? name).isSome then throw (.aliasExists name)
        let a ← declaredAlias name (← newObject) declaration force
        let e ← get
        set (e.addAlias a)
        return e.aliases.length := by
  refine ⟨⟨?_, ?_⟩, ?_, ?_, declaredAlias_of_lacksName, createMethodAlias_eq name declaration force⟩
  · intro reads lacks
    obtain ⟨text, failed⟩ := reads.refused.2 (AliasTarget.not_namesMethod_of_lacksName lacks)
    exact (declaredAlias_of_lacksName lacks).1 text failed
  · intro notLacking
    by_cases names : NamesMethod (declared declaration)
    · exact readsDeclaration_of_namesMethod names
    · exact readsDeclaration_of_unread (AliasTarget.ofDeclaration?_eq_none_iff.2 ⟨names, notLacking⟩)
  · intro text failed
    cases read : AliasTarget.ofDeclaration? declaration with
    | some t => exact absurd failed (not_syntaxError_of_read read text)
    | none =>
      cases failed.symm.trans (declaredAlias_of_none read)
      rfl
  · intro readable forced
    obtain ⟨t, read⟩ := exists_read readable
    rcases declaredAlias_of_some read with ⟨a, made, _⟩ | ⟨unforced, _⟩
    · exact ⟨a, made⟩
    · rw [forced] at unforced
      cases unforced

/-- Points behind the bracket belong to the types of the parameters, and white space to nothing. -/
theorem readsDeclaration_iff_area :
    ∃ a, ((declaredAlias "AREA" 1 "geo.Shape . area (t.Int, f64)" true).outcome {}).1 = .ok a ∧
      a.target = some (.classMethod "geo.Shape" "area(t.Int,f64)") := by
  have parts : Parts (declared "geo.Shape . area (t.Int, f64)") "geo.Shape".toList "area".toList
      "(t.Int,f64)".toList := ⟨by decide +kernel, by decide, by decide, by decide, .inr ⟨_, rfl⟩⟩
  have names : NamesMethod (declared "geo.Shape . area (t.Int, f64)") :=
    ⟨_, _, _, parts, by decide, by decide⟩
  have notLacking : ¬ LacksName (declared "geo.Shape . area (t.Int, f64)") :=
    fun lacks => AliasTarget.not_namesMethod_of_lacksName lacks names
  obtain ⟨reads, _, forced, _⟩ := readsDeclaration_iff {} "AREA" 1 "geo.Shape . area (t.Int, f64)" true
  obtain ⟨a, made⟩ := forced (.inl names) rfl
  obtain ⟨_, _, _, parts', _, _, target⟩ := (reads.2 notLacking).recorded a made
  obtain ⟨rfl, rfl, rfl⟩ := parts.unique parts'
  exact ⟨a, made, target.trans (by decide +kernel)⟩

/-- Not all declarations are read by their grammar: `c.C.(int)` is none, and it becomes an alias. -/
theorem nameless_declaration_read :
    ¬ ∀ (e : Engine) (name : String) (id : UInt32) (declaration : String) (force : Bool),
      ReadsDeclaration e name id declaration force := by
  intro all
  have parts : Parts (declared "c.C.(int)") "c.C".toList [] "(int)".toList :=
    ⟨by decide +kernel, by decide, by decide, by decide, .inr ⟨_, rfl⟩⟩
  have lacks : LacksName (declared "c.C.(int)") := ⟨_, _, parts, by decide, by decide⟩
  obtain ⟨a, made⟩ : ∃ a, ((declaredAlias "F" 1 "c.C.(int)" true).outcome {}).1 = .ok a := ⟨_, rfl⟩
  obtain ⟨_, _, _, parts', _, named, _⟩ := (all {} "F" 1 "c.C.(int)" true).recorded a made
  exact named (parts.unique parts').2.1.symm

end Run

end SqlEngine
