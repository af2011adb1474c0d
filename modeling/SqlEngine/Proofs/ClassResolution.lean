import SqlEngine.Proofs.OverloadSelection

/-!
# Resolution of a class

What a name finds in a class. Two methods are in each other's way if neither gathers the rest of its
arguments and both take as many. A class with such a pair is refused, and the error names the first method
that comes too late; a class without a method of the name is refused as well. Else all methods of the name
are found, each once and in the order of preference.
-/

namespace SqlEngine

namespace NativeMethod

/-- The last parameter takes the rest of the arguments: the method says so, and that one is an array. -/
def TakesRest (m : NativeMethod) : Prop :=
  m.variadic = true ∧
    ∃ element nullable outer, m.params.getLast? = some ⟨.array element nullable, outer⟩

/-- How many parameters stand for arguments. A connection in front does not. -/
def argumentCount (m : NativeMethod) : Nat :=
  m.params.length - if m.params.head?.map (·.type) = some .connection then 1 else 0

end NativeMethod

namespace Candidate

theorem isVariadic_iff {x : Candidate} : x.isVariadic = true ↔ x.method.TakesRest := by
  rw [isVariadic, Option.isSome_iff_exists]
  constructor
  · rintro ⟨element, gathers⟩
    obtain ⟨declared, outer, last⟩ := tailSpec?_eq_some.1 gathers
    exact ⟨declared, element.type, element.nullable, outer, last⟩
  · rintro ⟨declared, element, nullable, outer, last⟩
    exact ⟨⟨element, nullable⟩, tailSpec?_eq_some.2 ⟨declared, outer, last⟩⟩

theorem paramCount_eq (x : Candidate) : x.paramCount = x.method.argumentCount := by
  have connected : x.method.params.head?.map (·.type) = some .connection ↔
      x.takesConnection = true := by
    unfold takesConnection
    cases x.method.params with
    | nil => simp
    | cons p rest => simp
  have counted := x.length_params
  rw [NativeMethod.argumentCount, counted, ahead]
  by_cases takes : x.takesConnection = true
  · rw [if_pos takes, if_pos (connected.2 takes)]
    omega
  · rw [if_neg takes, if_neg fun is => takes (connected.1 is)]
    omega

theorem not_apart_iff {x y : Candidate} : ¬ Apart x y ↔
    ¬ x.method.TakesRest ∧ ¬ y.method.TakesRest ∧ x.method.argumentCount = y.method.argumentCount := by
  rw [apart_iff, ← isVariadic_iff, ← isVariadic_iff, ← paramCount_eq, ← paramCount_eq]
  simp

end Candidate

open Candidate

namespace NativeClass

/-- The methods at two places are meant by the name and in each other's way. -/
def Conflict (c : NativeClass) (name : String) (i j : Nat) : Prop :=
  ∃ m n, c.methods[i]? = some m ∧ c.methods[j]? = some n ∧
    goesBy name m = true ∧ goesBy name n = true ∧
    ¬ m.TakesRest ∧ ¬ n.TakesRest ∧ m.argumentCount = n.argumentCount

/-- No method before the later of the two is in the way of one that comes before it. -/
structure FirstConflict (c : NativeClass) (name : String) (i j : Nat) : Prop where
  before : i < j
  conflict : c.Conflict name i j
  least : ∀ i' j', i' < j' → c.Conflict name i' j' → j ≤ j'

variable {c : NativeClass} {name : String} {i j i' j' k : Nat}

/-- What is in the way of one method is in the way of all that take as many arguments. -/
theorem Conflict.join (first : c.Conflict name i k) (second : c.Conflict name j k) :
    c.Conflict name i j := by
  obtain ⟨m, o, atI, atK, meant, _, fixed, _, count⟩ := first
  obtain ⟨n, o', atJ, atK', meant', _, fixed', _, count'⟩ := second
  cases atK.symm.trans atK'
  exact ⟨m, n, atI, atJ, meant, meant', fixed, fixed', count.trans count'.symm⟩

/-- There is at most one first conflict. -/
theorem FirstConflict.unique (first : c.FirstConflict name i j)
    (second : c.FirstConflict name i' j') : i = i' ∧ j = j' := by
  have same : j = j' := Nat.le_antisymm (first.least _ _ second.before second.conflict)
    (second.least _ _ first.before first.conflict)
  subst same
  refine ⟨?_, rfl⟩
  by_contra ne
  rcases Nat.lt_or_gt_of_ne ne with less | less
  · have late := first.least _ _ less (first.conflict.join second.conflict)
    have soon := second.before
    omega
  · have late := first.least _ _ less (second.conflict.join first.conflict)
    have soon := first.before
    omega

theorem conflict_iff : c.Conflict name i j ↔
    ∃ x ∈ matching c name, ∃ y ∈ matching c name, x.position = i ∧ y.position = j ∧ ¬ Apart x y := by
  constructor
  · rintro ⟨m, n, atI, atJ, meant, meant', clash⟩
    refine ⟨⟨c.name, m, i⟩, mem_matching.2 ⟨rfl, atI, meant⟩, ⟨c.name, n, j⟩,
      mem_matching.2 ⟨rfl, atJ, meant'⟩, rfl, rfl, not_apart_iff.2 clash⟩
  · rintro ⟨x, hx, y, hy, rfl, rfl, clash⟩
    obtain ⟨_, atI, meant⟩ := mem_matching.1 hx
    obtain ⟨_, atJ, meant'⟩ := mem_matching.1 hy
    exact ⟨x.method, y.method, atI, atJ, meant, meant', not_apart_iff.1 clash⟩

/-- The candidates are all apart exactly if there is no conflict. -/
theorem pairwise_apart_iff : (matching c name).Pairwise Apart ↔ ¬ ∃ i j, i < j ∧ c.Conflict name i j := by
  have ascending := ascending_matching c name
  constructor
  · rintro apart ⟨i, j, before, conflict⟩
    obtain ⟨x, hx, y, hy, rfl, rfl, clash⟩ := conflict_iff.1 conflict
    apply clash
    apply apart.forall hx hy
    rintro rfl
    exact Nat.lt_irrefl _ before
  · intro clear
    refine ascending.imp_of_mem fun {x y} hx hy before => ?_
    by_contra clash
    exact clear ⟨x.position, y.position, before, conflict_iff.2 ⟨x, hx, y, hy, rfl, rfl, clash⟩⟩

end NativeClass

namespace Candidate

section Refusals

variable {c : NativeClass} {name : String}

/-- Where a clash is found, all candidates before it are apart. -/
theorem clash?_eq_some {before rest : List Candidate} {x y : Candidate}
    (h : clash? before rest = some (x, y)) : ∃ front back, rest = front ++ y :: back ∧
      x ∈ before ++ front ∧ ¬ Apart x y ∧ (∀ a ∈ before, ∀ d ∈ front, Apart a d) ∧
      front.Pairwise Apart := by
  induction rest generalizing before with
  | nil => cases h
  | cons d r ih =>
    rw [clash?] at h
    cases found : before.find? (·.clashesWith d) with
    | some a =>
      rw [found] at h
      cases h
      obtain ⟨listed, clashes⟩ := not_apart_of_find? found
      refine ⟨[], r, rfl, List.mem_append_left _ listed, clashes, ?_, .nil⟩
      intro _ _ _ nothing
      cases nothing
    | none =>
      rw [found] at h
      have clear := find?_clashesWith_eq_none.1 found
      obtain ⟨front, back, rfl, earlier, clash, across, within⟩ := ih h
      refine ⟨d :: front, back, rfl, ?_, clash, ?_, List.pairwise_cons.2 ⟨?_, within⟩⟩
      · rwa [List.append_assoc] at earlier
      · intro a ha e he
        rcases List.mem_cons.1 he with rfl | he
        · exact clear a ha
        · exact across a (List.mem_append_left _ ha) e he
      · exact across d (List.mem_append_right _ List.mem_cons_self)

/-- The clash that is found is the first conflict of the class. -/
theorem firstConflict_of_clash {x y : Candidate} (h : clash? [] (matching c name) = some (x, y)) :
    x ∈ matching c name ∧ y ∈ matching c name ∧ c.FirstConflict name x.position y.position := by
  obtain ⟨front, back, split, earlier, clash, _, apart⟩ := clash?_eq_some h
  have ascending := ascending_matching c name
  rw [split] at ascending
  obtain ⟨_, behind, across⟩ := List.pairwise_append.1 ascending
  have hx : x ∈ matching c name := by
    rw [split]
    exact List.mem_append_left _ earlier
  have hy : y ∈ matching c name := by
    rw [split]
    exact List.mem_append_right _ List.mem_cons_self
  refine ⟨hx, hy, ?_, NativeClass.conflict_iff.2 ⟨x, hx, y, hy, rfl, rfl, clash⟩, ?_⟩
  · exact across x earlier y List.mem_cons_self
  · intro i j before conflict
    obtain ⟨x', hx', y', hy', rfl, rfl, clash'⟩ := NativeClass.conflict_iff.1 conflict
    by_contra less
    -- Both would stand before the clash, where all candidates are apart.
    have inFront {z : Candidate} (hz : z ∈ matching c name) (less : z.position < y.position) :
        z ∈ front := by
      rw [split] at hz
      rcases List.mem_append.1 hz with hz | hz
      · exact hz
      · rcases List.mem_cons.1 hz with rfl | hz
        · omega
        · have later := (List.pairwise_cons.1 behind).1 z hz
          omega
    apply clash'
    apply apart.forall (inFront hx' (by omega)) (inFront hy' (by omega))
    rintro rfl
    exact Nat.lt_irrefl _ before

theorem exists_clash (h : ∃ i j, i < j ∧ c.Conflict name i j) :
    ∃ x y, clash? [] (matching c name) = some (x, y) := by
  cases clash : clash? [] (matching c name) with
  | some pair => exact ⟨pair.1, pair.2, rfl⟩
  | none => exact absurd h (NativeClass.pairwise_apart_iff.1 (clash?_eq_none.1 clash).2)

/-- The error of two methods that take as many arguments names them both, and in their order. -/
theorem ofClass_eq_duplicate {first second : String} :
    ofClass c name = .error (.duplicateArity first second) ↔
      ∃ x ∈ matching c name, ∃ y ∈ matching c name, c.FirstConflict name x.position y.position ∧
        first = x.text ∧ second = y.text := by
  constructor
  · intro h
    simp only [ofClass] at h
    cases clash : clash? [] (matching c name) with
    | some pair =>
      obtain ⟨x, y⟩ := pair
      rw [clash] at h
      cases h
      obtain ⟨hx, hy, conflict⟩ := firstConflict_of_clash clash
      exact ⟨x, hx, y, hy, conflict, rfl, rfl⟩
    | none =>
      rw [clash] at h
      dsimp only at h
      split at h <;> cases h
  · rintro ⟨x, hx, y, hy, conflict, rfl, rfl⟩
    obtain ⟨x', y', clash⟩ := exists_clash ⟨_, _, conflict.before, conflict.conflict⟩
    obtain ⟨hx', hy', conflict'⟩ := firstConflict_of_clash clash
    obtain ⟨samePlace, samePlace'⟩ := conflict.unique conflict'
    cases eq_of_position hx hx' samePlace
    cases eq_of_position hy hy' samePlace'
    simp only [ofClass, clash]

theorem ofClass_eq_missing :
    ofClass c name = .error (.noMatchingMethod name c.name) ↔ matching c name = [] := by
  simp only [ofClass]
  cases clash : clash? [] (matching c name) with
  | some pair =>
    obtain ⟨hx, _, _⟩ := firstConflict_of_clash clash
    constructor
    · intro h
      cases h
    · intro none
      rw [none] at hx
      cases hx
  | none =>
    dsimp only
    cases empty : (matching c name).isEmpty with
    | true => exact ⟨fun _ => List.isEmpty_iff.1 empty, fun _ => rfl⟩
    | false =>
      constructor
      · intro h
        cases h
      · intro none
        rw [none] at empty
        cases empty

end Refusals

/-- All methods of a class that the name means, each with its place, in strictly ascending order of rank,
so that those that take the rest of the arguments come last. -/
structure Lists (c : NativeClass) (name : String) (found : List Candidate) : Prop where
  all : (found.map fun x => (x.method, x.position)).Perm
    (c.methods.zipIdx.filter fun place => goesBy name place.1)
  named : ∀ x ∈ found, x.className = c.name
  ascending : found.Pairwise fun x y => x.rank < y.rank
  restLast : ∃ fixed gathering, found = fixed ++ gathering ∧ (∀ x ∈ fixed, ¬ x.method.TakesRest) ∧
    ∀ x ∈ gathering, x.method.TakesRest

section Listings

variable {c : NativeClass} {name : String} {found : List Candidate}

/-- What ascends by rank is split by whether the rest of the arguments is taken. -/
theorem restLast_of_ascending (ascending : found.Pairwise fun x y => x.rank < y.rank) :
    ∃ fixed gathering, found = fixed ++ gathering ∧ (∀ x ∈ fixed, ¬ x.method.TakesRest) ∧
      ∀ x ∈ gathering, x.method.TakesRest := by
  induction found with
  | nil => exact ⟨[], [], rfl, nofun, nofun⟩
  | cons x r ih =>
    obtain ⟨first, rest⟩ := List.pairwise_cons.1 ascending
    by_cases takes : x.method.TakesRest
    · refine ⟨[], x :: r, rfl, nofun, ?_⟩
      intro y hy
      rcases List.mem_cons.1 hy with rfl | hy
      · exact takes
      · have above : x.isVariadic ≤ y.isVariadic := by
          rcases Prod.Lex.toLex_lt_toLex.1 (first y hy) with less | ⟨same, _⟩
          · exact le_of_lt less
          · exact le_of_eq same
        rw [isVariadic_iff.2 takes] at above
        exact isVariadic_iff.1 (Bool.eq_true_of_true_le above)
    · obtain ⟨fixed, gathering, rfl, plain, gathers⟩ := ih rest
      refine ⟨x :: fixed, gathering, rfl, ?_, gathers⟩
      intro y hy
      rcases List.mem_cons.1 hy with rfl | hy
      · exact takes
      · exact plain y hy

theorem lists_ofClass (h : ofClass c name = .ok found) : Lists c name found := by
  have ascending := (resolved_ofClass h).ascending
  obtain ⟨_, _, rfl⟩ := ofClass_eq_ok.1 h
  have same := Text.sort_perm compare (matching c name)
  refine ⟨?_, ?_, ascending, restLast_of_ascending ascending⟩
  · have places : (matching c name).map (fun x => (x.method, x.position)) =
        c.methods.zipIdx.filter fun place => goesBy name place.1 := by
      rw [matching, List.map_map]
      exact List.map_id _
    rw [← places]
    exact same.map _
  · intro x hx
    exact (mem_matching.1 (same.mem_iff.1 hx)).1

theorem matching_eq_nil : matching c name = [] ↔ ∀ m ∈ c.methods, goesBy name m = false := by
  rw [← List.map_eq_nil_iff, methods_matching, List.filter_eq_nil_iff]
  simp

/-- A class is refused for two methods that take as many arguments exactly if it has such, and for want of
methods exactly if none is meant by the name. Else all that are meant are listed. -/
theorem ofClass_resolves (c : NativeClass) (name : String) :
    ((∃ first second, ofClass c name = .error (.duplicateArity first second)) ↔
      ∃ i j, i < j ∧ c.Conflict name i j) ∧
    (∀ first second, ofClass c name = .error (.duplicateArity first second) ↔
      ∃ i j m n, c.FirstConflict name i j ∧ c.methods[i]? = some m ∧ c.methods[j]? = some n ∧
        first = c.name ++ "." ++ m.signature ∧ second = c.name ++ "." ++ n.signature) ∧
    (ofClass c name = .error (.noMatchingMethod name c.name) ↔
      ∀ m ∈ c.methods, goesBy name m = false) ∧
    ((∃ found, ofClass c name = .ok found ∧ Lists c name found) ↔
      (¬ ∃ i j, i < j ∧ c.Conflict name i j) ∧ ∃ m ∈ c.methods, goesBy name m = true) := by
  have some_iff : matching c name ≠ [] ↔ ∃ m ∈ c.methods, goesBy name m = true := by
    rw [Ne, matching_eq_nil]
    simp
  refine ⟨⟨?_, ?_⟩, ?_, ?_, ⟨?_, ?_⟩⟩
  · rintro ⟨first, second, refused⟩
    obtain ⟨x, _, y, _, conflict, _⟩ := ofClass_eq_duplicate.1 refused
    exact ⟨_, _, conflict.before, conflict.conflict⟩
  · intro conflict
    obtain ⟨x, y, clash⟩ := exists_clash conflict
    obtain ⟨hx, hy, first⟩ := firstConflict_of_clash clash
    exact ⟨_, _, ofClass_eq_duplicate.2 ⟨x, hx, y, hy, first, rfl, rfl⟩⟩
  · intro first second
    rw [ofClass_eq_duplicate]
    constructor
    · rintro ⟨x, hx, y, hy, conflict, rfl, rfl⟩
      obtain ⟨named, there, _⟩ := mem_matching.1 hx
      obtain ⟨named', there', _⟩ := mem_matching.1 hy
      exact ⟨_, _, x.method, y.method, conflict, there, there', by rw [text, named], by rw [text, named']⟩
    · rintro ⟨i, j, m, n, conflict, there, there', rfl, rfl⟩
      obtain ⟨x, hx, y, hy, rfl, rfl, _⟩ := NativeClass.conflict_iff.1 conflict.conflict
      obtain ⟨named, at_, _⟩ := mem_matching.1 hx
      obtain ⟨named', at', _⟩ := mem_matching.1 hy
      cases at_.symm.trans there
      cases at'.symm.trans there'
      exact ⟨x, hx, y, hy, conflict, by rw [text, named], by rw [text, named']⟩
  · exact ofClass_eq_missing.trans matching_eq_nil
  · rintro ⟨found, resolved, _⟩
    obtain ⟨some, apart, _⟩ := ofClass_eq_ok.1 resolved
    exact ⟨NativeClass.pairwise_apart_iff.1 apart, some_iff.1 some⟩
  · rintro ⟨clear, meant⟩
    have resolved := ofClass_eq_ok.2
      ⟨some_iff.2 meant, NativeClass.pairwise_apart_iff.2 clear, rfl⟩
    exact ⟨_, resolved, lists_ofClass resolved⟩

end Listings

/-- A method that says it gathers, but has no array to gather in, is in the way of others. -/
example : ofClass ⟨"c.C", [overload [⟨.array .int false, false⟩] true, overload [⟨.int, false⟩] false,
      overload [⟨.connection, false⟩, ⟨.int, false⟩] true]⟩ "f" =
    .error (.duplicateArity "c.C.f(i32)" "c.C.f(connection,i32)") := by rfl

end Candidate

end SqlEngine
