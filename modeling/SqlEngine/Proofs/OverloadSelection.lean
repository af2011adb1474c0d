import Mathlib.Data.List.Pairwise
import SqlEngine.Proofs.CandidateOrder
import SqlEngine.Proofs.Retention

/-!
# Selection by number of arguments

A call binds to the candidate that takes just its number of arguments, and else to the variadic candidate
that comes first. In which order a class lists its methods plays no part, unless it is between variadic
methods that take as many parameters.
-/

namespace SqlEngine

namespace Candidate

/-- What a number of arguments stands for: the candidate that takes just as many; else the variadic one
that is preferred to all others, if all but the tail of its parameters get an argument; else nothing. -/
inductive Chosen (candidates : List Candidate) (count : Nat) : Option Candidate → Prop
  | exact {c : Candidate} (listed : c ∈ candidates) (plain : c.isVariadic = false)
      (takes : c.paramCount = count) : Chosen candidates count (some c)
  | tail {c : Candidate}
      (noExact : ∀ d ∈ candidates, d.isVariadic = false → d.paramCount ≠ count)
      (listed : c ∈ candidates) (variadic : c.isVariadic = true)
      (least : ∀ d ∈ candidates, d.isVariadic = true → c.preference ≤ d.preference)
      (fits : c.paramCount ≤ count + 1) : Chosen candidates count (some c)
  | nothing (noExact : ∀ d ∈ candidates, d.isVariadic = false → d.paramCount ≠ count)
      (noTail : ∀ d ∈ candidates, d.isVariadic = true → count + 1 < d.paramCount) :
      Chosen candidates count none

/-- Candidates in ascending order, of which a number of arguments means at most one that is not
variadic. -/
structure Resolved (candidates : List Candidate) : Prop where
  ascending : candidates.Pairwise fun a b => a.rank < b.rank
  distinct : ∀ a ∈ candidates, ∀ b ∈ candidates, a.isVariadic = false → b.isVariadic = false →
    a.paramCount = b.paramCount → a = b

variable {candidates found : List Candidate} {count : Nat} {c d : Candidate} {o o' : Option Candidate}

theorem accepts_of_plain (plain : c.isVariadic = false) :
    c.accepts count = true ↔ c.paramCount = count := by
  simp [accepts, plain]

theorem accepts_of_variadic (variadic : c.isVariadic = true) :
    c.accepts count = true ↔ c.paramCount ≤ count + 1 := by
  simp only [accepts, variadic, Bool.true_and, Bool.or_eq_true, beq_iff_eq, decide_eq_true_eq]
  omega

theorem resolved_ofClass {c : NativeClass} {name : String} (h : ofClass c name = .ok found) :
    Resolved found := by
  obtain ⟨_, apart, rfl⟩ := ofClass_eq_ok.1 h
  have same := Text.sort_perm compare (matching c name)
  constructor
  · -- Places tell candidates apart, so that none has the rank of another one.
    have distinct : (Text.sort compare (matching c name)).Pairwise fun a b => a.rank ≠ b.rank := by
      have nodup := same.nodup_iff.2 (nodup_matching c name)
      refine nodup.imp_of_mem fun ha hb apart equal => apart ?_
      exact eq_of_position (same.mem_iff.1 ha) (same.mem_iff.1 hb) (position_of_rank_eq equal)
    refine (Text.pairwise_sort compare_eq_lt_iff (matching c name)).imp₂ ?_ distinct
    intro a b le ne
    exact lt_of_le_of_ne le ne
  · intro a ha b hb plain plain' count
    by_contra ne
    have clear := apart.forall (same.mem_iff.1 ha) (same.mem_iff.1 hb) ne
    exact apart_iff.1 clear plain plain' count

theorem resolved_singleton (c : Candidate) : Resolved [c] where
  ascending := List.pairwise_singleton _ c
  distinct a ha b hb _ _ _ := by rw [List.mem_singleton.1 ha, List.mem_singleton.1 hb]

namespace Resolved

/-- Variadic candidates that are preferred equally are one. -/
theorem eq_of_preference (resolved : Resolved candidates) (hc : c ∈ candidates) (hd : d ∈ candidates)
    (kind : c.isVariadic = d.isVariadic) (same : c.preference = d.preference) : c = d := by
  by_contra ne
  have : Std.Symm fun a b : Candidate => a.rank ≠ b.rank := ⟨fun _ _ => Ne.symm⟩
  have ranks : candidates.Pairwise fun a b => a.rank ≠ b.rank :=
    resolved.ascending.imp fun less => ne_of_lt less
  apply ranks.forall hc hd ne
  rw [rank, rank, kind, same]

/-- There is one choice. -/
theorem unique (resolved : Resolved candidates) (first : Chosen candidates count o)
    (second : Chosen candidates count o') : o = o' := by
  cases first with
  | exact listed plain takes =>
    cases second with
    | exact listed' plain' takes' =>
      rw [resolved.distinct _ listed _ listed' plain plain' (takes.trans takes'.symm)]
    | tail noExact => exact absurd takes (noExact _ listed plain)
    | nothing noExact => exact absurd takes (noExact _ listed plain)
  | tail noExact listed variadic least fits =>
    cases second with
    | exact listed' plain' takes' => exact absurd takes' (noExact _ listed' plain')
    | tail _ listed' variadic' least' _ =>
      have same := le_antisymm (least _ listed' variadic') (least' _ listed variadic)
      rw [resolved.eq_of_preference listed listed' (variadic.trans variadic'.symm) same]
    | nothing _ noTail =>
      have long := noTail _ listed variadic
      omega
  | nothing noExact noTail =>
    cases second with
    | exact listed' plain' takes' => exact absurd takes' (noExact _ listed' plain')
    | tail _ listed' variadic' _ fits' =>
      have long := noTail _ listed' variadic'
      omega
    | nothing => rfl

/-- The first candidate that accepts the number is the choice. -/
theorem chosen_select? (resolved : Resolved candidates) (count : Nat) :
    Chosen candidates count (select? candidates count) := by
  cases selected : select? candidates count with
  | none =>
    have none := List.find?_eq_none.1 selected
    refine .nothing ?_ ?_
    · intro d hd plain takes
      exact none d hd ((accepts_of_plain plain).2 takes)
    · intro d hd variadic
      by_contra short
      exact none d hd ((accepts_of_variadic variadic).2 (by omega))
  | some c =>
    obtain ⟨accepts, before, after, rfl, passed⟩ := List.find?_eq_some_iff_append.1 selected
    have listed : c ∈ before ++ c :: after := List.mem_append_right before List.mem_cons_self
    have behind := (List.pairwise_cons.1 (List.pairwise_append.1 resolved.ascending).2.1).1
    cases kind : c.isVariadic with
    | false => exact .exact listed kind ((accepts_of_plain kind).1 accepts)
    | true =>
      have fits := (accepts_of_variadic kind).1 accepts
      -- What stands in front was passed over, and what stands behind has a greater rank.
      have place {d : Candidate} (hd : d ∈ before ++ c :: after) :
          d.accepts count = false ∨ d = c ∨ c.rank < d.rank := by
        rcases List.mem_append.1 hd with hd | hd
        · exact .inl (by simpa using passed d hd)
        · rcases List.mem_cons.1 hd with rfl | hd
          · exact .inr (.inl rfl)
          · exact .inr (.inr (behind d hd))
      refine .tail ?_ listed kind ?_ fits
      · intro d hd plain takes
        have accepted : d.accepts count = true := (accepts_of_plain plain).2 takes
        rcases place hd with refused | rfl | less
        · rw [accepted] at refused
          cases refused
        · rw [plain] at kind
          cases kind
        · -- One that is not variadic would come before.
          have later : d.rank < c.rank := by
            refine Prod.Lex.toLex_lt_toLex.2 (.inl ?_)
            rw [kind, plain]
            exact Bool.false_lt_true
          exact absurd later (not_lt_of_gt less)
      · intro d hd variadic
        rcases place hd with refused | rfl | less
        · have long : count + 1 < d.paramCount := by
            by_contra short
            rw [(accepts_of_variadic variadic).2 (by omega)] at refused
            cases refused
          exact le_of_lt (Prod.Lex.toLex_lt_toLex.2 (.inl (by omega)))
        · exact le_refl _
        · exact le_of_lt (preference_lt_of_rank (kind.trans variadic.symm) less)

theorem chosen_iff (resolved : Resolved candidates) :
    Chosen candidates count o ↔ select? candidates count = o := by
  constructor
  · exact resolved.unique (resolved.chosen_select? count)
  · rintro rfl
    exact resolved.chosen_select? count

end Resolved

/-- Two outcomes of a selection are the same method or the same error; or else they are variadic
candidates that only their places tell apart. -/
inductive SameChoice : Except EngineError Candidate → Except EngineError Candidate → Prop
  | method {c d : Candidate} (className : c.className = d.className) (method : c.method = d.method) :
      SameChoice (.ok c) (.ok d)
  | tied {c d : Candidate} (variadic : c.isVariadic = true ∧ d.isVariadic = true)
      (count : c.paramCount = d.paramCount) (connection : c.takesConnection = d.takesConnection) :
      SameChoice (.ok c) (.ok d)
  | failed (x : EngineError) : SameChoice (.error x) (.error x)

/-- For each candidate of the first list the second one has the same method. -/
def Covers (candidates others : List Candidate) : Prop :=
  ∀ c ∈ candidates, ∃ d ∈ others, d.className = c.className ∧ d.method = c.method

section Reordered

variable {others : List Candidate}

theorem shape_eq (same : d.method = c.method) : d.isVariadic = c.isVariadic ∧
    d.paramCount = c.paramCount ∧ d.takesConnection = c.takesConnection := by
  cases c
  cases d
  cases same
  exact ⟨rfl, rfl, rfl⟩

theorem noExact_of_covers (covered : Covers others candidates)
    (noExact : ∀ d ∈ candidates, d.isVariadic = false → d.paramCount ≠ count) :
    ∀ d ∈ others, d.isVariadic = false → d.paramCount ≠ count := by
  intro d hd plain takes
  obtain ⟨e, he, _, same⟩ := covered d hd
  obtain ⟨kind, counts, _⟩ := shape_eq same
  exact noExact e he (kind.trans plain) (counts.trans takes)

theorem noTail_of_covers (covered : Covers others candidates)
    (noTail : ∀ d ∈ candidates, d.isVariadic = true → count + 1 < d.paramCount) :
    ∀ d ∈ others, d.isVariadic = true → count + 1 < d.paramCount := by
  intro d hd variadic
  obtain ⟨e, he, _, same⟩ := covered d hd
  obtain ⟨kind, counts, _⟩ := shape_eq same
  rw [← counts]
  exact noTail e he (kind.trans variadic)

/-- The number of parameters decides first, then the connection. -/
theorem lower_of_preference (h : c.preference ≤ d.preference) : c.paramCount < d.paramCount ∨
    c.paramCount = d.paramCount ∧ c.takesConnection ≤ d.takesConnection := by
  rcases Prod.Lex.toLex_le_toLex.1 h with less | ⟨same, rest⟩
  · exact .inl less
  · rcases Prod.Lex.toLex_le_toLex.1 rest with less | ⟨same', _⟩
    · exact .inr ⟨same, le_of_lt less⟩
    · exact .inr ⟨same, le_of_eq same'⟩

/-- Two variadic choices from lists of the same methods are preferred equally but for their places. -/
theorem tied_of_least (covers : Covers candidates others) (covered : Covers others candidates)
    (hc : c ∈ candidates) (hd : d ∈ others) (kind : c.isVariadic = true) (kind' : d.isVariadic = true)
    (least : ∀ e ∈ candidates, e.isVariadic = true → c.preference ≤ e.preference)
    (least' : ∀ e ∈ others, e.isVariadic = true → d.preference ≤ e.preference) :
    c.paramCount = d.paramCount ∧ c.takesConnection = d.takesConnection := by
  obtain ⟨c', hc', _, sameC⟩ := covers c hc
  obtain ⟨d', hd', _, sameD⟩ := covered d hd
  obtain ⟨kindC, countC, connectionC⟩ := shape_eq sameC
  obtain ⟨kindD, countD, connectionD⟩ := shape_eq sameD
  have below := lower_of_preference (least d' hd' (kindD.trans kind'))
  have above := lower_of_preference (least' c' hc' (kindC.trans kind))
  rw [countD, connectionD] at below
  rw [countC, connectionC] at above
  have count : c.paramCount = d.paramCount := by omega
  refine ⟨count, le_antisymm ?_ ?_⟩
  · exact (below.resolve_left (by omega)).2
  · exact (above.resolve_left (by omega)).2

theorem sameChoice_select (resolved : Resolved candidates) (resolved' : Resolved others)
    (covers : Covers candidates others) (covered : Covers others candidates) (a : Alias) (count : Nat) :
    SameChoice (a.select candidates count) (a.select others count) := by
  have choice := resolved.chosen_select? count
  have choice' := resolved'.chosen_select? count
  simp only [Alias.select]
  generalize select? candidates count = o at choice
  generalize select? others count = o' at choice'
  cases choice with
  | @exact c listed plain takes =>
    obtain ⟨c', listed', className, same⟩ := covers c listed
    obtain ⟨kind, counts, _⟩ := shape_eq same
    have twin : Chosen others count (some c') :=
      .exact listed' (kind.trans plain) (counts.trans takes)
    rw [resolved'.unique choice' twin]
    exact .method className.symm same.symm
  | @tail c noExact listed variadic least fits =>
    cases choice' with
    | exact listed' plain' takes' =>
      exact absurd takes' (noExact_of_covers covered noExact _ listed' plain')
    | @tail d _ listed' variadic' least' _ =>
      obtain ⟨counts, connections⟩ :=
        tied_of_least covers covered listed listed' variadic variadic' least least'
      exact .tied ⟨variadic, variadic'⟩ counts connections
    | nothing _ noTail =>
      have long := noTail_of_covers covers noTail c listed variadic
      omega
  | nothing noExact noTail =>
    cases choice' with
    | exact listed' plain' takes' =>
      exact absurd takes' (noExact_of_covers covered noExact _ listed' plain')
    | tail _ listed' variadic' _ fits' =>
      have long := noTail_of_covers covered noTail _ listed' variadic'
      omega
    | nothing => exact .failed _

/-- A class with the same methods in another order resolves if the class does, to the same methods. -/
theorem ofClass_reordered {c d : NativeClass} {name : String} (named : d.name = c.name)
    (reordered : c.methods.Perm d.methods) (h : ofClass c name = .ok found) :
    ∃ found', ofClass d name = .ok found' ∧ Covers found found' ∧ Covers found' found := by
  obtain ⟨some, apart, rfl⟩ := ofClass_eq_ok.1 h
  have methods : ((matching c name).map (·.method)).Perm ((matching d name).map (·.method)) := by
    rw [methods_matching, methods_matching]
    exact reordered.filter _
  have covers {c d : NativeClass} (named : d.name = c.name) (reordered : c.methods.Perm d.methods) :
      Covers (Text.sort compare (matching c name)) (Text.sort compare (matching d name)) := by
    intro x hx
    obtain ⟨y, hy, same⟩ := exists_twin named reordered ((Text.sort_perm _ _).mem_iff.1 hx)
    exact ⟨y, (Text.sort_perm _ _).mem_iff.2 hy, same⟩
  refine ⟨_, ofClass_eq_ok.2 ⟨?_, ?_, rfl⟩, covers named reordered, covers named.symm reordered.symm⟩
  · intro none
    rw [none] at methods
    exact some (List.map_eq_nil_iff.1 (List.perm_nil.1 methods))
  · have apart' : ((matching c name).map (·.method)).Pairwise ApartMethods := by
      rw [List.pairwise_map]
      exact apart
    have moved := methods.pairwise apart' fun {_ _} => Std.Symm.symm (r := ApartMethods) _ _
    rw [List.pairwise_map] at moved
    exact moved

end Reordered

end Candidate

open Candidate

/-- What the alias keeps is what it was once resolved to. -/
def Alias.Sound (a : Alias) : Prop :=
  ∀ found, a.candidates = some found → ∃ library compiler, (a.resolve library compiler).1 = .ok found

section Aliases

variable {a : Alias} {found : List Candidate} {library : Library} {compiler : Compiler}

theorem resolve_class {className method : String} {c : NativeClass}
    (target : a.target = some (.classMethod className method)) (there : library.find? className = some c) :
    (a.resolve library compiler).1 = ofClass c method := by
  simp only [Alias.resolve, target, Library.load, there]
  rfl

theorem resolved_of_resolve (h : (a.resolve library compiler).1 = .ok found) : Resolved found := by
  cases target : a.target with
  | none =>
    simp only [Alias.resolve, target] at h
    cases h
  | some t =>
    cases t with
    | source text =>
      simp only [Alias.resolve, target, Alias.compile] at h
      split at h
      · cases h
        exact resolved_singleton _
      · cases h
      · cases h
    | classMethod className method =>
      cases there : library.find? className with
      | none =>
        simp only [Alias.resolve, target, Library.load, there] at h
        cases h
      | some c => exact resolved_ofClass ((resolve_class target there).symm.trans h)

/-- Where candidates can be loaded, a method is found among them. -/
theorem findMethod_of_load {e : Engine} (h : (a.load e.library e.compiler).1 = .ok found) (place : Nat)
    (count : Nat) : ((Run.findMethod place a count).outcome e).1 = a.select found count := by
  rw [Run.findMethod, Run.outcome_bind, outcome_load]
  generalize a.load e.library e.compiler = o at h
  obtain ⟨x, compiler, b⟩ := o
  cases h
  rfl

/-- All that is ever loaded was resolved, be it now or before. -/
theorem resolved_of_load (sound : a.Sound) (h : (a.load library compiler).1 = .ok found) :
    Resolved found := by
  cases kept : a.candidates with
  | some ds =>
    rw [load_of_candidates kept] at h
    cases h
    obtain ⟨_, _, once⟩ := sound found kept
    exact resolved_of_resolve once
  | none => exact resolved_of_resolve ((load_of_unloaded kept).symm.trans h)

end Aliases

/-- A call of an alias with candidates finds the method that the number of arguments means, of which
there is one at most. If a class has the same methods in another order, then an alias of it resolves as
well and the same call finds the same method or has the same error, if it is not between variadic methods
with as many parameters and both with or both without a connection. -/
theorem findMethod_finds_chosen :
    (∀ (a : Alias) (e : Engine) (found : List Candidate), a.Sound →
      (a.load e.library e.compiler).1 = .ok found → ∀ place count : Nat,
        (∃! o, Chosen found count o) ∧
        (∀ c, Chosen found count (some c) → ((Run.findMethod place a count).outcome e).1 = .ok c) ∧
        (Chosen found count none → ((Run.findMethod place a count).outcome e).1 =
          .error (.methodNotFound a.name (a.className?.getD "") count))) ∧
    (∀ (a : Alias) (className method : String) (e f : Engine) (c d : NativeClass)
      (found : List Candidate), a.candidates = none → a.target = some (.classMethod className method) →
      e.library.find? className = some c → f.library.find? className = some d →
      c.methods.Perm d.methods → (a.load e.library e.compiler).1 = .ok found →
      (∃ found', (a.load f.library f.compiler).1 = .ok found') ∧ ∀ place count : Nat,
        SameChoice ((Run.findMethod place a count).outcome e).1
          ((Run.findMethod place a count).outcome f).1) := by
  constructor
  · intro a e found sound loads place count
    have resolved := resolved_of_load sound loads
    have finds := findMethod_of_load loads place count
    refine ⟨⟨_, resolved.chosen_select? count, fun o chosen => ?_⟩, ?_, ?_⟩
    · exact (resolved.chosen_iff.1 chosen).symm
    · intro c chosen
      rw [finds]
      exact select_eq_ok.2 (resolved.chosen_iff.1 chosen)
    · intro nothing
      rw [finds, Alias.select, resolved.chosen_iff.1 nothing]
  · intro a className method e f c d found fresh target there there' reordered loads
    have named : d.name = c.name := by
      have name : c.name = className := by simpa using List.find?_some there
      have name' : d.name = className := by simpa using List.find?_some there'
      rw [name, name']
    have first : ofClass c method = .ok found :=
      (resolve_class target there).symm.trans ((load_of_unloaded fresh).symm.trans loads)
    obtain ⟨found', second, covers, covered⟩ := ofClass_reordered named reordered first
    have loads' : (a.load f.library f.compiler).1 = .ok found' :=
      (load_of_unloaded fresh).trans ((resolve_class target there').trans second)
    refine ⟨⟨found', loads'⟩, fun place count => ?_⟩
    rw [findMethod_of_load loads, findMethod_of_load loads']
    exact sameChoice_select (resolved_ofClass first) (resolved_ofClass second) covers covered a count

/-- A method among others of its name. -/
def overload (params : List ParamSpec) (variadic : Bool) : NativeMethod :=
  ⟨"f", params, .int, variadic, true, fun _ => .done .null⟩

/-- An engine with one class of methods. -/
def engineWith (methods : List NativeMethod) : Engine := { library := ⟨[⟨"c.C", methods⟩]⟩ }

/-- One argument is for the method that takes one; without arguments the variadic method that needs no
connection is found, wherever it stands. -/
theorem findMethod_finds_chosen_three :
    let numbers : ParamSpec := ⟨.array .int false, false⟩
    let one := overload [⟨.int, false⟩] false
    let many := overload [numbers] true
    let connected := overload [⟨.connection, false⟩, numbers] true
    let a : Alias := ⟨"PUBLIC", 1, "F", some (.classMethod "c.C" "f"), false, none⟩
    let find (methods : List NativeMethod) (count : Nat) :=
      ((Run.findMethod 0 a count).outcome (engineWith methods)).1
    find [connected, one, many] 1 = .ok ⟨"c.C", one, 1⟩ ∧
      find [connected, one, many] 0 = .ok ⟨"c.C", many, 2⟩ ∧
      SameChoice (find [connected, one, many] 0) (find [many, connected, one] 0) := by
  intro numbers one many connected a find
  have sound : a.Sound := fun _ kept => nomatch kept
  have loads : (a.load (engineWith [connected, one, many]).library {}).1 =
      .ok [⟨"c.C", one, 1⟩, ⟨"c.C", many, 2⟩, ⟨"c.C", connected, 0⟩] := rfl
  have resolved := resolved_of_load sound loads
  have chosen := findMethod_finds_chosen.1 a (engineWith [connected, one, many]) _ sound loads 0
  have moved : [connected, one, many].Perm [many, connected, one] :=
    @List.perm_append_comm _ [connected, one] [many]
  refine ⟨?_, ?_, ?_⟩
  · exact (chosen 1).2.1 _ (resolved.chosen_iff.2 rfl)
  · exact (chosen 0).2.1 _ (resolved.chosen_iff.2 rfl)
  · exact (findMethod_finds_chosen.2 a "c.C" "f" (engineWith _) (engineWith _) ⟨"c.C", _⟩ ⟨"c.C", _⟩ _
      rfl rfl rfl rfl moved loads).2 0 0

end SqlEngine
