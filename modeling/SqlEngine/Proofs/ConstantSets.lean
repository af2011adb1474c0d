import Mathlib.Data.List.Forall2
import Mathlib.Data.Set.Card
import SqlEngine.Proofs.MixedNumbers

/-!
# Classes of constants

A set that has taken in values in any order keeps the first one of each class of equal values, in
ascending order. Which classes it has, and in which order they stand, depends on nothing but the classes
of the values.
-/

namespace SqlEngine

section Lists

variable {α : Type} {cmp : α → α → Ordering} {P : α → Prop} {xs ys : List α} {a b v : α}

/-- The values that are equal to one of them. -/
def classOf (P : α → Prop) (cmp : α → α → Ordering) (v : α) : Set α := {w | P w ∧ cmp v w = .eq}

/-- The first of all that are equal to it. -/
def IsFirst (cmp : α → α → Ordering) (xs : List α) (a : α) : Prop :=
  ∃ before after, xs = before ++ a :: after ∧ ∀ b ∈ before, cmp b a ≠ .eq

/-- One more value is the first of its class if none before it is equal. -/
theorem isFirst_concat : IsFirst cmp (xs ++ [v]) a ↔
    IsFirst cmp xs a ∨ a = v ∧ ∀ b ∈ xs, cmp b v ≠ .eq := by
  constructor
  · rintro ⟨before, after, split, apart⟩
    rcases List.eq_nil_or_concat after with rfl | ⟨rest, last, rfl⟩
    · obtain ⟨rfl, same⟩ := List.append_inj' split rfl
      cases same
      exact .inr ⟨rfl, apart⟩
    · rw [List.concat_eq_append, ← List.cons_append, ← List.append_assoc] at split
      exact .inl ⟨before, rest, (List.append_inj' split rfl).1, apart⟩
  · rintro (⟨before, after, rfl, apart⟩ | ⟨rfl, apart⟩)
    · exact ⟨before, after ++ [v], by rw [List.append_assoc, List.cons_append], apart⟩
    · exact ⟨xs, [], rfl, apart⟩

theorem classOf_eq_iff (order : OrderedOn P cmp) (ha : P a) (hb : P b) :
    classOf P cmp a = classOf P cmp b ↔ cmp a b = .eq := by
  constructor
  · intro same
    have listed : b ∈ classOf P cmp b := ⟨hb, order.self hb⟩
    rw [← same] at listed
    exact listed.2
  · intro equal
    ext w
    refine and_congr_right fun hw => ?_
    rw [order.congr_left ha hb hw equal]

/-- Ascending values are as many as their classes. -/
theorem ncard_classes (order : OrderedOn P cmp) (inside : ∀ a ∈ xs, P a) (ascending : Ascending cmp xs) :
    (classOf P cmp '' {a | a ∈ xs}).ncard = xs.length := by
  induction xs with
  | nil => simp
  | cons x r ih =>
    obtain ⟨first, rest⟩ := List.pairwise_cons.1 ascending
    have hx := inside x List.mem_cons_self
    have insideRest : ∀ a ∈ r, P a := fun a ha => inside a (List.mem_cons_of_mem x ha)
    have listed : {a | a ∈ x :: r} = insert x {a | a ∈ r} := by
      ext a
      exact List.mem_cons
    have new : classOf P cmp x ∉ classOf P cmp '' {a | a ∈ r} := by
      rintro ⟨a, ha, same⟩
      have equal := (classOf_eq_iff order (insideRest a ha) hx).1 same
      rw [order.gt_of_lt hx (insideRest a ha) (first a ha)] at equal
      cases equal
    have finite : (classOf P cmp '' {a | a ∈ r}).Finite := (List.finite_toSet r).image _
    rw [listed, Set.image_insert_eq, Set.ncard_insert_of_notMem new finite, ih insideRest rest,
      List.length_cons]

/-- The least of ascending values is not greater than any value that equals one of them. -/
theorem head_not_gt (order : OrderedOn P cmp) (inside : ∀ c ∈ a :: xs, P c)
    (ascending : Ascending cmp (a :: xs)) (hb : P b) (there : ∃ c ∈ a :: xs, cmp c b = .eq) :
    cmp a b ≠ .gt := by
  obtain ⟨c, hc, equal⟩ := there
  have ha := inside a List.mem_cons_self
  rw [← order.congr_right ha (inside c hc) hb equal]
  rcases List.mem_cons.1 hc with rfl | later
  · rw [order.self ha]
    decide
  · rw [(List.pairwise_cons.1 ascending).1 c later]
    decide

/-- Behind two equal values only later ones are equal. -/
theorem tail_covers (order : OrderedOn P cmp) (insideX : ∀ c ∈ a :: xs, P c)
    (insideY : ∀ d ∈ b :: ys, P d) (ascending : Ascending cmp (b :: ys)) (equal : cmp a b = .eq)
    (covers : ∀ d ∈ b :: ys, ∃ c ∈ a :: xs, cmp c d = .eq) : ∀ d ∈ ys, ∃ c ∈ xs, cmp c d = .eq := by
  intro d hd
  have listed := List.mem_cons_of_mem b hd
  obtain ⟨c, hc, same⟩ := covers d listed
  rcases List.mem_cons.1 hc with rfl | later
  · have less := (List.pairwise_cons.1 ascending).1 d hd
    have hc := insideX c List.mem_cons_self
    rw [← order.congr_left hc (insideY b List.mem_cons_self) (insideY d listed) equal, same] at less
    cases less
  · exact ⟨c, later, same⟩

/-- Ascending values of the same classes correspond one by one. -/
theorem forall₂_of_ascending (order : OrderedOn P cmp) (insideX : ∀ a ∈ xs, P a)
    (insideY : ∀ b ∈ ys, P b) (ascendingX : Ascending cmp xs) (ascendingY : Ascending cmp ys)
    (covers : ∀ b ∈ ys, ∃ a ∈ xs, cmp a b = .eq) (covered : ∀ a ∈ xs, ∃ b ∈ ys, cmp b a = .eq) :
    List.Forall₂ (fun a b => cmp a b = .eq) xs ys := by
  induction xs generalizing ys with
  | nil =>
    cases ys with
    | nil => exact .nil
    | cons b r =>
      obtain ⟨a, ha, _⟩ := covers b List.mem_cons_self
      cases ha
  | cons a r ih =>
    cases ys with
    | nil =>
      obtain ⟨b, hb, _⟩ := covered a List.mem_cons_self
      cases hb
    | cons b s =>
      have ha := insideX a List.mem_cons_self
      have hb := insideY b List.mem_cons_self
      have notAbove := head_not_gt order insideX ascendingX hb (covers b List.mem_cons_self)
      have notBelow := head_not_gt order insideY ascendingY ha (covered a List.mem_cons_self)
      have equal : cmp a b = .eq := by
        cases compared : cmp a b with
        | eq => rfl
        | gt => exact absurd compared notAbove
        | lt => exact absurd (order.gt_of_lt ha hb compared) notBelow
      have equal' : cmp b a = .eq := by
        rw [order.swap hb ha, equal]
        rfl
      refine .cons equal (ih ?_ ?_ ?_ ?_ ?_ ?_)
      · exact fun c hc => insideX c (List.mem_cons_of_mem a hc)
      · exact fun d hd => insideY d (List.mem_cons_of_mem b hd)
      · exact (List.pairwise_cons.1 ascendingX).2
      · exact (List.pairwise_cons.1 ascendingY).2
      · exact tail_covers order insideX insideY ascendingY equal covers
      · exact tail_covers order insideY insideX ascendingX equal' covered

end Lists

namespace ConstantSet

variable {cmp : Value → Value → Ordering} {P : Value → Prop} {s : ConstantSet} {vs ws : List Value}
  {a v : Value}

theorem ofValues_concat (vs : List Value) (v : Value) :
    ofValues cmp (vs ++ [v]) = (ofValues cmp vs).insert cmp v := by
  rw [ofValues, List.foldl_append]
  rfl

/-- What a value adds to a set is the value, if there is no equal one. -/
theorem mem_insert_iff (order : OrderedOn P cmp) (sorted : Sorted P cmp s) (hv : P v) :
    a ∈ (s.insert cmp v).values ↔ a ∈ s.values ∨ a = v ∧ s.contains cmp v = false := by
  have splits := Slot.find_splits order hv s.values sorted.inside sorted.ascending
  obtain ⟨values⟩ := s
  simp only [insert, contains] at *
  generalize Slot.find cmp v values = slot at splits
  cases splits with
  | hit low b high below here above => simp
  | miss low high below above =>
    simp only [Bool.false_eq_true, if_false, insertIdx_between, List.mem_append, List.mem_cons]
    tauto

section Taken

variable (order : OrderedOn P cmp) (inside : ∀ v ∈ vs, P v)

include order inside

theorem sorted_ofValues : Sorted P cmp (ofValues cmp vs) :=
  (sorted_foldl_insert order inside sorted_empty).1

/-- A set has a value exactly if it took in an equal one. -/
theorem contains_ofValues (hv : P v) :
    (ofValues cmp vs).contains cmp v = true ↔ ∃ w ∈ vs, cmp w v = .eq := by
  rw [contains_iff order (sorted_ofValues order inside) hv]
  induction vs using List.reverseRecOn with
  | nil => simp [ofValues]
  | append_singleton vs u ih =>
    have before : ∀ w ∈ vs, P w := fun w hw => inside w (List.mem_append_left [u] hw)
    have last : P u := inside u (List.mem_append_right vs List.mem_cons_self)
    rw [ofValues_concat, (insert_spec order (sorted_ofValues order before) last).2 v hv, ih before]
    simp only [List.mem_append, List.mem_singleton]
    constructor
    · rintro (same | ⟨w, hw, same⟩)
      · exact ⟨u, .inr rfl, same⟩
      · exact ⟨w, .inl hw, same⟩
    · rintro ⟨w, hw | rfl, same⟩
      · exact .inr ⟨w, hw, same⟩
      · exact .inl same

/-- It keeps the first value of each class. -/
theorem mem_ofValues : a ∈ (ofValues cmp vs).values ↔ IsFirst cmp vs a := by
  induction vs using List.reverseRecOn with
  | nil => simp [ofValues, IsFirst]
  | append_singleton vs u ih =>
    have before : ∀ w ∈ vs, P w := fun w hw => inside w (List.mem_append_left [u] hw)
    have last : P u := inside u (List.mem_append_right vs List.mem_cons_self)
    have new : (ofValues cmp vs).contains cmp u = false ↔ ∀ b ∈ vs, cmp b u ≠ .eq := by
      rw [← Bool.not_eq_true, contains_ofValues order before last]
      simp
    rw [ofValues_concat, mem_insert_iff order (sorted_ofValues order before) last, ih before, new,
      isFirst_concat]

theorem covers_ofValues : ∀ v ∈ vs, ∃ a ∈ (ofValues cmp vs).values, cmp a v = .eq := by
  intro v hv
  exact (sorted_foldl_insert order inside sorted_empty).2 v (inside v hv) (.inl hv)

/-- The classes of a set are those of the values that it took in. -/
theorem classes_ofValues :
    classOf P cmp '' {a | a ∈ (ofValues cmp vs).values} = classOf P cmp '' {v | v ∈ vs} := by
  have sorted := sorted_ofValues order inside
  ext C
  constructor
  · rintro ⟨a, ha, rfl⟩
    obtain ⟨before, after, rfl, _⟩ := (mem_ofValues order inside).1 ha
    exact ⟨a, List.mem_append_right before List.mem_cons_self, rfl⟩
  · rintro ⟨v, hv, rfl⟩
    obtain ⟨a, ha, same⟩ := covers_ofValues order inside v hv
    exact ⟨a, ha, (classOf_eq_iff order (sorted.inside a ha) (inside v hv)).2 same⟩

end Taken

/-- Each value of a set has an equal one in a set of the same values. -/
theorem covers_of_perm (order : OrderedOn P cmp) (inside : ∀ v ∈ vs, P v) (moved : vs.Perm ws) :
    ∀ b ∈ (ofValues cmp ws).values, ∃ a ∈ (ofValues cmp vs).values, cmp a b = .eq := by
  have inside' : ∀ w ∈ ws, P w := fun w hw => inside w (moved.mem_iff.2 hw)
  intro b hb
  obtain ⟨before, after, rfl, _⟩ := (mem_ofValues order inside').1 hb
  have listed : b ∈ vs := moved.mem_iff.2 (List.mem_append_right before List.mem_cons_self)
  exact covers_ofValues order inside b listed

/-- Where a comparison orders the values, a set that has taken in some of them has them in ascending
order, takes in another one exactly if none of them is equal, and has a value exactly if one of them is
equal. It has as many values as they have classes, the first one of each. Taken in any other order, they
have the same classes in the same order. -/
theorem ofValues_keeps_classes (order : OrderedOn P cmp) (inside : ∀ v ∈ vs, P v) :
    Ascending cmp (ofValues cmp vs).values ∧
      (∀ v, P v → (((ofValues cmp vs).tryInsert cmp v).1 = false ↔ ∃ w ∈ vs, cmp w v = .eq)) ∧
      (∀ v, P v → ((ofValues cmp vs).contains cmp v = true ↔ ∃ w ∈ vs, cmp w v = .eq)) ∧
      (ofValues cmp vs).values.length = (classOf P cmp '' {v | v ∈ vs}).ncard ∧
      (∀ a, a ∈ (ofValues cmp vs).values ↔ IsFirst cmp vs a) ∧
      ∀ ws, vs.Perm ws →
        List.Forall₂ (fun a b => cmp a b = .eq) (ofValues cmp vs).values (ofValues cmp ws).values := by
  have sorted := sorted_ofValues order inside
  have has {v : Value} (hv : P v) := contains_ofValues order inside (v := v) hv
  refine ⟨sorted.ascending, ?_, fun v hv => has hv, ?_, fun a => mem_ofValues order inside, ?_⟩
  · intro v hv
    rw [tryInsert_eq, Bool.not_eq_false', has hv]
  · rw [← classes_ofValues order inside, ncard_classes order sorted.inside sorted.ascending]
  · intro ws moved
    have inside' : ∀ w ∈ ws, P w := fun w hw => inside w (moved.mem_iff.2 hw)
    have sorted' := sorted_ofValues order inside'
    apply forall₂_of_ascending order sorted.inside sorted'.inside sorted.ascending sorted'.ascending
    · exact covers_of_perm order inside moved
    · exact covers_of_perm order inside' moved.symm

/-- Of five exact numbers three are kept. Neither scale nor type makes a number another one. -/
theorem ofValues_keeps_classes_five :
    let one : Value := .decimal ⟨false, 10, 1, by decide, by decide⟩
    let three : Value := .decimal ⟨false, 300, 2, by decide, by decide⟩
    let vs : List Value := [.integer 3, one, .bigint 1, three, .smallint 2]
    let set := ofValues (Collation.compare {}) vs
    set.values = [one, .smallint 2, .integer 3] ∧
      (set.tryInsert (Collation.compare {}) (.integer 2)).1 = false ∧
      (classOf (fun v => v.toDecimal?.isSome = true) (Collation.compare {}) '' {v | v ∈ vs}).ncard = 3 := by
  intro one three vs set
  have order := Collation.orderedOn_exact {}
  have inside : ∀ v ∈ vs, v.toDecimal?.isSome = true := by decide
  have values : set.values = [one, .smallint 2, .integer 3] := by
    -- the search by halving is not structural, so only full unfolding evaluates it
    dsimp only [set, vs, one, three]
    with_unfolding_all rfl
  obtain ⟨_, again, _, count, _⟩ := ofValues_keeps_classes order inside
  refine ⟨values, (again (.integer 2) rfl).2 ⟨.smallint 2, by simp [vs], by decide⟩, ?_⟩
  rw [← count, values]
  rfl

end ConstantSet

end SqlEngine
