import Mathlib.Data.List.Nodup
import Mathlib.Data.Prod.Lex
import SqlEngine.Alias

/-!
# The order of candidates

The candidates of a class are its static methods of one name, each with its place in the class. They come
out sorted by a rank of four parts, the place being the last one, and no two of them that are not variadic
take the same number of arguments.
-/

namespace SqlEngine

namespace Text

variable {α κ : Type} [LinearOrder κ] {cmp : α → α → Ordering} {key : α → κ}

theorem pairwise_insertSorted (less : ∀ a b, cmp a b = .lt ↔ key a < key b) (a : α) {xs : List α}
    (sorted : xs.Pairwise fun b c => key b ≤ key c) :
    (insertSorted cmp a xs).Pairwise fun b c => key b ≤ key c := by
  induction xs with
  | nil => exact List.pairwise_singleton _ a
  | cons b r ih =>
    obtain ⟨first, rest⟩ := List.pairwise_cons.1 sorted
    unfold insertSorted
    split
    · next before =>
      refine List.pairwise_cons.2 ⟨?_, sorted⟩
      have lower := le_of_lt ((less a b).1 before)
      intro c hc
      rcases List.mem_cons.1 hc with rfl | hc
      · exact lower
      · exact le_trans lower (first c hc)
    · next notBefore =>
      refine List.pairwise_cons.2 ⟨?_, ih rest⟩
      intro c hc
      rcases List.mem_cons.1 ((insertSorted_perm cmp a r).mem_iff.1 hc) with rfl | hc
      · exact le_of_not_gt fun before => notBefore ((less c b).2 before)
      · exact first c hc

/-- What is sorted by a comparison ascends by the key that it goes by. -/
theorem pairwise_sort (less : ∀ a b, cmp a b = .lt ↔ key a < key b) (xs : List α) :
    (sort cmp xs).Pairwise fun b c => key b ≤ key c := by
  suffices grown : ∀ acc : List α, (acc.Pairwise fun b c => key b ≤ key c) →
      (xs.foldl (fun acc a => insertSorted cmp a acc) acc).Pairwise fun b c => key b ≤ key c from
    grown [] .nil
  induction xs with
  | nil => exact fun acc sorted => sorted
  | cons a r ih =>
    intro acc sorted
    exact ih _ (pairwise_insertSorted less a sorted)

end Text

namespace Candidate

section Parameters

variable {c : Candidate}

/-- How many parameters the engine fills in by itself. -/
def ahead (c : Candidate) : Nat := if c.takesConnection then 1 else 0

theorem takesConnection_iff : c.takesConnection = true ↔
    ∃ p rest, c.method.params = p :: rest ∧ p.type = .connection := by
  unfold takesConnection
  cases c.method.params with
  | nil => simp
  | cons p rest => simp

theorem length_params (c : Candidate) : c.method.params.length = c.ahead + c.paramCount := by
  unfold ahead paramCount columns
  by_cases takes : c.takesConnection = true
  · obtain ⟨p, rest, params, _⟩ := takesConnection_iff.1 takes
    rw [if_pos takes, if_pos takes, params, List.drop_succ_cons, List.drop_zero, List.length_cons]
    omega
  · rw [if_neg takes, if_neg takes]
    omega

/-- The parameters that stand for arguments are the declared ones behind those in front. -/
theorem getElem?_columns (c : Candidate) (i : Nat) :
    c.columns[i]? = c.method.params[c.ahead + i]? := by
  unfold columns ahead
  by_cases takes : c.takesConnection = true
  · rw [if_pos takes, if_pos takes, List.getElem?_drop]
  · rw [if_neg takes, if_neg takes, Nat.zero_add]

theorem tailSpec?_eq_some {element : ParamSpec} : c.tailSpec? = some element ↔
    c.method.variadic = true ∧
      ∃ outer, c.method.params.getLast? = some ⟨.array element.type element.nullable, outer⟩ := by
  unfold tailSpec?
  by_cases variadic : c.method.variadic = true
  · rw [if_pos variadic]
    constructor
    · intro h
      split at h
      · next type nullable outer last =>
        cases h
        exact ⟨variadic, outer, last⟩
      · cases h
    · rintro ⟨_, outer, last⟩
      rw [last]
  · rw [if_neg variadic]
    constructor
    · intro h
      cases h
    · rintro ⟨declared, _⟩
      exact absurd declared variadic

end Parameters

/-- What decides between variadic candidates: the number of parameters, then whether a connection is
filled in, then the place in the class. -/
def preference (c : Candidate) : ℕ ×ₗ Bool ×ₗ ℕ :=
  toLex (c.paramCount, toLex (c.takesConnection, c.position))

/-- Variadic candidates come last. -/
def rank (c : Candidate) : Bool ×ₗ ℕ ×ₗ Bool ×ₗ ℕ := toLex (c.isVariadic, c.preference)

theorem toNat_lt_iff (p q : Bool) : p.toNat < q.toNat ↔ p < q := by
  cases p <;> cases q <;> decide

theorem toNat_eq_iff (p q : Bool) : p.toNat = q.toNat ↔ p = q := by
  cases p <;> cases q <;> decide

/-- The order of preference is that of the ranks. -/
theorem compare_eq_lt_iff (a b : Candidate) : a.compare b = .lt ↔ a.rank < b.rank := by
  simp only [compare, Ordering.then_eq_lt, compare_lt_iff_lt, compare_eq_iff_eq, toNat_lt_iff,
    toNat_eq_iff, rank, preference, Prod.Lex.toLex_lt_toLex]

theorem position_of_rank_eq {a b : Candidate} (same : a.rank = b.rank) : a.position = b.position :=
  congrArg (fun r => (ofLex (ofLex (ofLex r).2).2).2) same

theorem preference_lt_of_rank {a b : Candidate} (kind : a.isVariadic = b.isVariadic)
    (less : a.rank < b.rank) : a.preference < b.preference := by
  rcases Prod.Lex.toLex_lt_toLex.1 less with apart | ⟨_, lower⟩
  · exact absurd kind (ne_of_lt apart)
  · exact lower

/-- Whether a method is meant by a name: it is static, and the name is its own or its signature. -/
def goesBy (name : String) (m : NativeMethod) : Bool :=
  m.isStatic && (m.name == name || m.signature == name)

section Matching

variable {c d : NativeClass} {name : String} {x y : Candidate}

theorem methods_matching (c : NativeClass) (name : String) :
    (matching c name).map (·.method) = c.methods.filter (goesBy name) := by
  have methods : c.methods.zipIdx.map (·.1) = c.methods := List.zipIdx_map_fst 0 c.methods
  conv_rhs => rw [← methods, List.filter_map]
  rw [matching, List.map_map]
  rfl

/-- A candidate of a class is one of its methods, at its place. -/
theorem mem_matching : x ∈ matching c name ↔
    x.className = c.name ∧ c.methods[x.position]? = some x.method ∧ goesBy name x.method = true := by
  simp only [matching, List.mem_map, List.mem_filter, Prod.exists, List.mem_zipIdx_iff_getElem?]
  constructor
  · rintro ⟨m, i, ⟨there, meant⟩, rfl⟩
    exact ⟨rfl, there, meant⟩
  · rintro ⟨className, there, meant⟩
    exact ⟨x.method, x.position, ⟨there, meant⟩, by rw [← className]⟩

theorem eq_of_position (hx : x ∈ matching c name) (hy : y ∈ matching c name)
    (same : x.position = y.position) : x = y := by
  obtain ⟨className, there, _⟩ := mem_matching.1 hx
  obtain ⟨className', there', _⟩ := mem_matching.1 hy
  rw [same, there'] at there
  cases x
  cases y
  cases className
  cases className'
  cases there
  cases same
  rfl

/-- Candidates are found in the order of their places. -/
theorem ascending_matching (c : NativeClass) (name : String) :
    (matching c name).Pairwise fun x y => x.position < y.position := by
  have kept : (matching c name).map (·.position) =
      (c.methods.zipIdx.filter fun place => goesBy name place.1).map (·.2) := by
    rw [matching, List.map_map]
    rfl
  have places : ((matching c name).map (·.position)).Pairwise (· < ·) := by
    rw [kept]
    refine List.Pairwise.sublist (List.filter_sublist.map _) ?_
    rw [List.zipIdx_map_snd]
    exact List.pairwise_lt_range'
  exact List.pairwise_map.1 places

theorem nodup_matching (c : NativeClass) (name : String) : (matching c name).Nodup := by
  refine (ascending_matching c name).imp ?_
  rintro x y before rfl
  exact Nat.lt_irrefl _ before

/-- In a class with the same methods in another order, a candidate has a twin. -/
theorem exists_twin (named : d.name = c.name) (reordered : c.methods.Perm d.methods)
    (hx : x ∈ matching c name) :
    ∃ y ∈ matching d name, y.className = x.className ∧ y.method = x.method := by
  have listed : x.method ∈ (matching d name).map (·.method) := by
    rw [methods_matching, ← (reordered.filter (goesBy name)).mem_iff, ← methods_matching]
    exact List.mem_map_of_mem hx
  obtain ⟨y, hy, same⟩ := List.mem_map.1 listed
  refine ⟨y, hy, ?_, same⟩
  rw [(mem_matching.1 hy).1, (mem_matching.1 hx).1, named]

end Matching

section Clashes

/-- Neither of two candidates stands in the way of the other. -/
def Apart (a b : Candidate) : Prop := a.clashesWith b = false

theorem apart_iff {a b : Candidate} : Apart a b ↔
    (a.isVariadic = false → b.isVariadic = false → a.paramCount ≠ b.paramCount) := by
  simp only [Apart, clashesWith]
  cases a.isVariadic <;> cases b.isVariadic <;> simp

instance : Std.Symm Apart where
  symm a b h := by
    rw [apart_iff] at *
    intro hb ha
    exact (h ha hb).symm

/-- The same of methods, wherever they stand. -/
def ApartMethods (m n : NativeMethod) : Prop := Apart ⟨"", m, 0⟩ ⟨"", n, 0⟩

instance : Std.Symm ApartMethods where
  symm _ _ h := Std.Symm.symm (r := Apart) _ _ h

theorem find?_clashesWith_eq_none {before : List Candidate} {c : Candidate} :
    before.find? (·.clashesWith c) = none ↔ ∀ a ∈ before, Apart a c := by
  rw [List.find?_eq_none]
  simp only [Bool.not_eq_true, Apart]

theorem not_apart_of_find? {before : List Candidate} {a c : Candidate}
    (found : before.find? (·.clashesWith c) = some a) : a ∈ before ∧ ¬ Apart a c := by
  refine ⟨List.mem_of_find?_eq_some found, ?_⟩
  have clashes : a.clashesWith c = true := by
    simpa using List.find?_some found
  intro apart
  rw [Apart, clashes] at apart
  cases apart

/-- No clash is found exactly if any two candidates are apart. -/
theorem clash?_eq_none {before rest : List Candidate} :
    clash? before rest = none ↔ (∀ a ∈ before, ∀ c ∈ rest, Apart a c) ∧ rest.Pairwise Apart := by
  induction rest generalizing before with
  | nil => simp [clash?]
  | cons c r ih =>
    rw [clash?]
    cases found : before.find? (·.clashesWith c) with
    | some a =>
      obtain ⟨listed, clashes⟩ := not_apart_of_find? found
      constructor
      · intro h
        cases h
      · rintro ⟨across, _⟩
        exact absurd (across a listed c List.mem_cons_self) clashes
    | none =>
      have first := find?_clashesWith_eq_none.1 found
      refine ih.trans ?_
      rw [List.pairwise_cons]
      constructor
      · rintro ⟨across, within⟩
        refine ⟨fun a ha d hd => ?_, fun d hd => ?_, within⟩
        · rcases List.mem_cons.1 hd with rfl | hd
          · exact first a ha
          · exact across a (List.mem_append_left _ ha) d hd
        · exact across c (List.mem_append_right _ List.mem_cons_self) d hd
      · rintro ⟨across, behind, within⟩
        refine ⟨fun a ha d hd => ?_, within⟩
        rcases List.mem_append.1 ha with ha | ha
        · exact across a ha d (List.mem_cons_of_mem c hd)
        · rw [List.mem_singleton.1 ha]
          exact behind d hd

/-- A class is resolved exactly if it has a method of the name and no two of them clash; the candidates
are then all of them, sorted. -/
theorem ofClass_eq_ok {c : NativeClass} {name : String} {found : List Candidate} :
    ofClass c name = .ok found ↔ matching c name ≠ [] ∧ (matching c name).Pairwise Apart ∧
      Text.sort compare (matching c name) = found := by
  simp only [ofClass]
  cases clash : clash? [] (matching c name) with
  | some pair =>
    have clashes : ¬ (matching c name).Pairwise Apart := by
      intro apart
      have none := clash?_eq_none.2 ⟨fun _ listed => absurd listed List.not_mem_nil, apart⟩
      rw [clash] at none
      cases none
    constructor
    · intro h
      cases h
    · rintro ⟨_, apart, _⟩
      exact absurd apart clashes
  | none =>
    have apart := (clash?_eq_none.1 clash).2
    dsimp only
    cases none : (matching c name).isEmpty with
    | true =>
      rw [List.isEmpty_iff.1 none]
      simp
    | false =>
      have some : matching c name ≠ [] := by
        intro empty
        rw [empty] at none
        cases none
      constructor
      · intro h
        cases h
        exact ⟨some, apart, rfl⟩
      · rintro ⟨_, _, rfl⟩
        rfl

end Clashes

end Candidate

end SqlEngine
