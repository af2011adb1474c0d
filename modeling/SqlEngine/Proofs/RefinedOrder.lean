import Mathlib.Data.List.DropRight
import SqlEngine.Proofs.MixedNumbers

/-!
# The total order where values of like types compare

Values of like types that compare with each other stand in the same order among all values, approximate numbers
and one kind of text aside. Comparing two `char` values drops all white space at their ends, and the total order
only spaces, so white space that is left can part what should be one, or turn around what should be in order.
Sets of constants keep apart exactly what the total order parts.
-/

namespace SqlEngine

namespace Text

variable {cs x y : List Char}

theorem compareChars_swap (x y : List Char) : compareChars x y = (compareChars y x).swap :=
  trans_compareChars.eq_swap

theorem compareChars_eq_iff : compareChars x y = .eq ↔ x = y :=
  compareLists_eq_iff (fun _ _ => Nat.compare_eq_eq.trans Char.toNat_inj) x y

theorem compareChars_append_left (z x y : List Char) : compareChars (z ++ x) (z ++ y) = compareChars x y := by
  induction z with
  | nil => rfl
  | cons c r ih =>
    have first : compare c.toNat c.toNat = .eq := Nat.compare_eq_eq.2 rfl
    simp only [List.cons_append, compareChars, compareLists, first]
    exact ih

/-- What stands behind a text does not count if the other one does not begin with it. -/
theorem compareChars_append_right (apart : ¬ y <+: x) (z : List Char) :
    compareChars x (y ++ z) = compareChars x y := by
  induction y generalizing x with
  | nil => exact absurd List.nil_prefix apart
  | cons c r ih =>
    cases x with
    | nil => rfl
    | cons d s =>
      simp only [List.cons_append, compareChars, compareLists]
      cases first : compare d.toNat c.toNat with
      | lt | gt => rfl
      | eq =>
        obtain rfl : d = c := Char.toNat_inj.1 (Nat.compare_eq_eq.1 first)
        exact ih fun more => apart ((List.prefix_cons_inj d).2 more)

theorem dropTail_eq_rdropWhile (p : Char → Bool) (cs : List Char) : dropTail p cs = cs.rdropWhile p := by
  induction cs using List.reverseRecOn with
  | nil => rfl
  | append_singleton r c ih =>
    rw [List.rdropWhile_concat]
    split
    · next drops =>
      rw [dropTail_append r (by simpa using drops)]
      exact ih
    · next stays => exact dropTail_concat r (Bool.eq_false_iff.2 stays)

/-- All white space at the end is gone whether or not the spaces go first. -/
theorem dropTail_isBlank_space (cs : List Char) :
    dropTail isBlank (dropTail (· == ' ') cs) = dropTail isBlank cs := by
  have spaces : ∀ c ∈ cs.rtakeWhile (· == ' '), isBlank c = true := by
    intro c hc
    have space : (c == ' ') = true := List.mem_rtakeWhile_imp (p := (· == ' ')) hc
    rw [eq_of_beq space]
    decide
  rw [← dropTail_append _ spaces, dropTail_eq_rdropWhile (· == ' '), List.rdropWhile_append_rtakeWhile]

/-- The white space at the end of a text once the spaces behind it are gone. -/
def blankEnd (cs : List Char) : List Char := (dropTail (· == ' ') cs).rtakeWhile isBlank

theorem dropTail_space (cs : List Char) : dropTail (· == ' ') cs = dropTail isBlank cs ++ blankEnd cs := by
  have parts := List.rdropWhile_append_rtakeWhile (p := isBlank) (l := dropTail (· == ' ') cs)
  rw [← dropTail_eq_rdropWhile, dropTail_isBlank_space] at parts
  exact parts.symm

/-- White space at the ends gives way to what tells two texts apart in front of it. -/
structure EndsYield (x y : List Char) : Prop where
  same : dropTail isBlank x = dropTail isBlank y → blankEnd x = blankEnd y
  left : ∀ c r, dropTail isBlank y = dropTail isBlank x ++ c :: r → compareChars (blankEnd x) (c :: r) = .lt
  right : ∀ c r, dropTail isBlank x = dropTail isBlank y ++ c :: r → compareChars (blankEnd y) (c :: r) = .lt

theorem endsYield_of_spaces (hx : blankEnd x = []) (hy : blankEnd y = []) : EndsYield x y := by
  refine ⟨fun _ => hx.trans hy.symm, fun c r _ => ?_, fun c r _ => ?_⟩
  · rw [hx]
    rfl
  · rw [hy]
    rfl

/-- Behind a common part white space is compared with what is left of the longer text. -/
theorem compareChars_extension {c : Char} {r : List Char}
    (longer : dropTail isBlank y = dropTail isBlank x ++ c :: r) :
    compareChars (dropTail (· == ' ') x) (dropTail (· == ' ') y) = compareChars (blankEnd x) (c :: r) ∧
      compareChars (dropTail isBlank x) (dropTail isBlank y) = .lt := by
  -- what is left ends in a character that is no white space
  have apart : ¬ c :: r <+: blankEnd x := by
    intro begins
    have nonempty : dropTail isBlank y ≠ [] := by simp [longer]
    rw [dropTail_eq_rdropWhile] at nonempty
    apply List.rdropWhile_last_not isBlank y nonempty
    apply List.mem_rtakeWhile_imp (l := dropTail (· == ' ') x)
    apply begins.subset
    simp only [← dropTail_eq_rdropWhile, longer]
    rw [List.getLast_append_of_ne_nil _ (List.cons_ne_nil c r)]
    exact List.getLast_mem _
  constructor
  · rw [dropTail_space x, dropTail_space y, longer, List.append_assoc, compareChars_append_left,
      compareChars_append_right apart]
  · have bare := compareChars_append_left (dropTail isBlank x) [] (c :: r)
    rw [List.append_nil] at bare
    rw [longer, bare]
    rfl

/-- Texts neither of which begins with the other are told apart before the ends. -/
theorem compareChars_dropTail_of_apart (notLeft : ¬ dropTail isBlank x <+: dropTail isBlank y)
    (notRight : ¬ dropTail isBlank y <+: dropTail isBlank x) :
    compareChars (dropTail (· == ' ') x) (dropTail (· == ' ') y) =
      compareChars (dropTail isBlank x) (dropTail isBlank y) := by
  have apart : ¬ dropTail isBlank y <+: dropTail isBlank x ++ blankEnd x := by
    intro begins
    rcases List.prefix_or_prefix_of_prefix begins (List.prefix_append _ _) with shorter | longer
    · exact notRight shorter
    · exact notLeft longer
  rw [dropTail_space x, dropTail_space y, compareChars_append_right apart, compareChars_swap,
    compareChars_append_right notLeft, ← compareChars_swap]

/-- Comparing without any white space at the ends and without spaces is the same exactly if the white space
that is left gives way. -/
theorem compareChars_dropTail_iff (x y : List Char) :
    compareChars (dropTail (· == ' ') x) (dropTail (· == ' ') y) =
      compareChars (dropTail isBlank x) (dropTail isBlank y) ↔ EndsYield x y := by
  have self (z : List Char) : compareChars z z = .eq := compareChars_eq_iff.2 rfl
  constructor
  · intro agree
    refine ⟨fun same => ?_, fun c r longer => ?_, fun c r longer => ?_⟩
    · rw [dropTail_space x, dropTail_space y, same, compareChars_append_left, self] at agree
      exact compareChars_eq_iff.1 agree
    · obtain ⟨whole, bare⟩ := compareChars_extension longer
      rw [← whole, agree, bare]
    · obtain ⟨whole, bare⟩ := compareChars_extension longer
      rw [compareChars_swap, compareChars_swap (dropTail isBlank x), bare] at agree
      rw [← whole, ← Ordering.swap_inj, agree]
  · intro h
    -- one text goes on where the other ends, or both are told apart before their ends
    by_cases left : dropTail isBlank x <+: dropTail isBlank y
    · obtain ⟨rest, longer⟩ := left
      cases rest with
      | nil =>
        have same : dropTail isBlank x = dropTail isBlank y := by rw [← longer, List.append_nil]
        rw [dropTail_space x, dropTail_space y, same, h.same same, self, self]
      | cons c r =>
        obtain ⟨whole, bare⟩ := compareChars_extension longer.symm
        rw [whole, bare, h.left c r longer.symm]
    · by_cases right : dropTail isBlank y <+: dropTail isBlank x
      · obtain ⟨rest, longer⟩ := right
        cases rest with
        | nil =>
          rw [← longer, List.append_nil] at left
          exact absurd (List.prefix_refl _) left
        | cons c r =>
          obtain ⟨whole, bare⟩ := compareChars_extension longer.symm
          rw [compareChars_swap, whole, compareChars_swap (dropTail isBlank x), bare, h.right c r longer.symm]
      · exact compareChars_dropTail_of_apart left right

end Text

namespace Collation

variable {c : Collation} {a b v : Value}

theorem typeRank_le (notGreater : c.compare a b ≠ .gt) : typeRank a ≤ typeRank b := by
  by_cases same : typeRank a = typeRank b
  · exact Nat.le_of_eq same
  · rw [c.compare_of_rank_ne same] at notGreater
    exact Nat.compare_ne_gt.1 notGreater

theorem compare_of_typeRank_lt (less : typeRank a < typeRank b) : c.compare a b = .lt := by
  rw [c.compare_of_rank_ne (Nat.ne_of_lt less)]
  exact Nat.compare_eq_lt.2 less

/-- Values other than approximate numbers and arrays are ordered. -/
theorem orderedOn_scalars : OrderedOn (fun v => v.isApproximate = false ∧ typeRank v ≠ 7) c.compare := by
  apply c.orderedOn_unmixed
  rintro ⟨_, v, w, ⟨notApproximate, notArray⟩, occurs, approximate⟩
  cases occurs with
  | self =>
    rw [approximate] at notApproximate
    cases notApproximate
  | item => exact notArray rfl

/-- Of each two values the first is less, or both are arrays. Arrays with approximate numbers in them may
stand in any order. -/
def Graded (c : Collation) (xs : List Value) : Prop :=
  xs.Pairwise fun a b => c.compare a b = .lt ∨ typeRank a = 7 ∧ typeRank b = 7

theorem Graded.ranks {xs : List Value} (graded : c.Graded xs) :
    xs.Pairwise fun a b => typeRank a ≤ typeRank b := by
  apply graded.imp
  rintro a b (less | ⟨array, array'⟩)
  · apply typeRank_le
    rw [less]
    decide
  · omega

/-- Seen from a value that is no array, arrays are all on one side. -/
theorem Graded.parted {xs : List Value} (graded : c.Graded xs) (inside : ∀ a ∈ xs, a.isApproximate = false)
    (hv : v.isApproximate = false) (scalar : typeRank v ≠ 7) : Slot.PartedAt c.compare v xs := by
  have both := graded.and graded.ranks
  apply both.imp_of_mem
  rintro a b ha hb ⟨before, ranks⟩ notGreater
  have later := typeRank_le notGreater
  by_cases lower : typeRank a < typeRank v
  · exact compare_of_typeRank_lt lower
  · have less := before.resolve_right (by omega)
    exact orderedOn_scalars.lt_of_lt_of_not_gt ⟨inside a ha, by omega⟩ ⟨inside b hb, by omega⟩ ⟨hv, scalar⟩
      less notGreater

end Collation

namespace ConstantSet

variable {c : Collation} {s : ConstantSet} {a b v : Value}

open Collation

/-- An array is put among the arrays, wherever these lead the search. -/
theorem graded_insert_array (array : typeRank v = 7)
    (free : (Slot.find c.compare v s.values).occupied = false) (graded : c.Graded s.values) :
    c.Graded (s.insert c.compare v).values := by
  have sorted : s.values.Pairwise fun a b =>
      (Ord.compare (typeRank b) 7 ≠ .gt → Ord.compare (typeRank a) 7 ≠ .gt) ∧
        (Ord.compare (typeRank a) 7 ≠ .lt → Ord.compare (typeRank b) 7 ≠ .lt) := by
    apply graded.ranks.imp
    intro a b le
    simp only [Ne, Nat.compare_eq_gt, Nat.compare_eq_lt]
    omega
  have coarser : ∀ a ∈ s.values, Ord.compare (typeRank a) 7 ≠ .eq →
      c.compare a v = Ord.compare (typeRank a) 7 := by
    intro a _ apart
    rw [← array] at apart ⊢
    exact c.compare_of_rank_ne fun same => apart (Nat.compare_eq_eq.2 same)
  obtain ⟨low, high, parts, index, lower, upper⟩ := Slot.find_between sorted coarser
  rw [insert_of_free free parts index]
  rw [parts] at graded
  apply pairwise_between graded
  · intro b hb
    have atMost := Nat.compare_ne_gt.1 (lower b hb)
    by_cases same : typeRank b = 7
    · exact .inr ⟨same, array⟩
    · exact .inl (compare_of_typeRank_lt (by omega))
  · intro b hb
    have atLeast := Nat.compare_ne_lt.1 (upper b hb)
    by_cases same : typeRank b = 7
    · exact .inr ⟨array, same⟩
    · exact .inl (compare_of_typeRank_lt (by omega))

/-- A set stays graded while it takes in anything but approximate numbers. -/
theorem graded_insert (inside : ∀ a ∈ s.values, a.isApproximate = false) (hv : v.isApproximate = false)
    (graded : c.Graded s.values) : c.Graded (s.insert c.compare v).values := by
  cases occupied : (Slot.find c.compare v s.values).occupied with
  | true =>
    rw [insert_of_occupied occupied]
    exact graded
  | false =>
    by_cases array : typeRank v = 7
    · exact graded_insert_array array occupied graded
    · have splits := Slot.find_of_parted (graded.parted inside hv array)
      obtain ⟨low, high, parts, index, below, above⟩ := splits.around occupied
      rw [insert_of_free occupied parts index]
      rw [parts] at graded
      apply pairwise_between graded
      · exact fun b hb => .inl (below b hb)
      · intro b hb
        left
        rw [c.compare_swap, above b hb]
        rfl

theorem graded_ofValues {vs : List Value} (inside : ∀ v ∈ vs, v.isApproximate = false) :
    c.Graded (ofValues c.compare vs).values := by
  have grown (s : ConstantSet) (old : ∀ a ∈ s.values, a.isApproximate = false) (graded : c.Graded s.values) :
      c.Graded (vs.foldl (fun s v => s.insert c.compare v) s).values := by
    induction vs generalizing s with
    | nil => exact graded
    | cons v r ih =>
      have hv := inside v List.mem_cons_self
      refine ih (fun w hw => inside w (List.mem_cons_of_mem v hw)) _ (fun w hw => ?_) (graded_insert old hv graded)
      rcases mem_insert hw with rfl | hw
      · exact hv
      · exact old w hw
  exact grown {} nofun .nil

/-- The set has both values, at different places. -/
def KeepsApart (s : ConstantSet) (a b : Value) : Prop :=
  ∃ i j : Nat, i ≠ j ∧ s.values[i]? = some a ∧ s.values[j]? = some b

theorem KeepsApart.compare_ne (h : s.KeepsApart a b) (graded : c.Graded s.values) (scalar : typeRank a ≠ 7) :
    c.compare a b ≠ .eq := by
  obtain ⟨i, j, apart, first, second⟩ := h
  obtain ⟨hi, rfl⟩ := List.getElem?_eq_some_iff.1 first
  obtain ⟨hj, rfl⟩ := List.getElem?_eq_some_iff.1 second
  rcases Nat.lt_or_gt_of_ne apart with before | behind
  · have less := (List.pairwise_iff_getElem.1 graded i j hi hj before).resolve_right fun arrays => scalar arrays.1
    rw [less]
    decide
  · have less := (List.pairwise_iff_getElem.1 graded j i hj hi behind).resolve_right fun arrays => scalar arrays.2
    rw [c.compare_swap, less]
    decide

theorem keepsApart_pair {cmp : Value → Value → Ordering} (apart : cmp a b ≠ .eq) :
    (ofValues cmp [a, b]).KeepsApart a b := by
  rcases values_ofValues_pair apart with values | values
  · exact ⟨0, 1, by decide, by rw [values]; rfl, by rw [values]; rfl⟩
  · exact ⟨1, 0, by decide, by rw [values]; rfl, by rw [values]; rfl⟩

/-- Sets of values other than approximate numbers keep apart what the total order parts, and nothing else. -/
theorem keepsApart_iff (ha : a.isApproximate = false) (hb : b.isApproximate = false) (scalar : typeRank a ≠ 7) :
    (∃ vs : List Value, (∀ v ∈ vs, v.isApproximate = false) ∧ (ofValues c.compare vs).KeepsApart a b) ↔
      c.compare a b ≠ .eq := by
  constructor
  · rintro ⟨vs, inside, keeps⟩
    exact keeps.compare_ne (graded_ofValues inside) scalar
  · intro apart
    exact ⟨[a, b], by simp [ha, hb], keepsApart_pair apart⟩

end ConstantSet

namespace Value

variable {a b : Value} {o : Ordering}

/-- Of two `char` values the white space at the ends gives way; other values have nothing to give way. -/
def PaddingYields (a b : Value) : Prop :=
  ∀ x y, a = .char x → b = .char y → Text.EndsYield x.toList y.toList

theorem typeRank_of_partialCompare? (h : a.partialCompare? b = some o) : Collation.typeRank a ≠ 7 := by
  intro array
  obtain ⟨items, rfl⟩ := (Collation.isArray_iff a).1 array
  cases b <;> cases h

/-- Where values of like types compare, they stand so in the total order unless white space at the ends of two
`char` values gets in the way. -/
theorem compare_of_partialCompare? (ha : a.isApproximate = false) (h : a.partialCompare? b = some o) :
    Collation.compare {} a b = o ↔ a.PaddingYields b := by
  unfold partialCompare? at h
  split at h
  · cases ha
  · cases ha
  · next x y =>
    cases h
    constructor
    · intro agree x' y' hx hy
      cases hx
      cases hy
      exact (Text.compareChars_dropTail_iff _ _).1 agree
    · intro yields
      exact (Text.compareChars_dropTail_iff _ _).2 (yields x y rfl rfl)
  -- the other types have a case each, and numbers of all exact types the last one
  iterate 8
    · cases h
      exact iff_of_true rfl fun x y hx => nomatch hx
  · split at h
    · next x y hx hy =>
      cases h
      refine iff_of_true (Collation.compare_decimals {} hx hy) ?_
      rintro _ _ rfl
      cases hx
    · cases h

/-- Values other than approximate numbers that compare with each other stand in the total order as they compare,
exactly if they are not two `char` values where white space other than spaces is in the way. Equal ones are kept
apart by a set of such values in the same exceptional case only. -/
theorem total_refines_partial (ha : a.isApproximate = false) (hb : b.isApproximate = false)
    (h : a.partialCompare? b = some o) :
    (Collation.compare {} a b = o ↔ a.PaddingYields b) ∧
      (o = .eq →
        ((∃ vs : List Value, (∀ v ∈ vs, v.isApproximate = false) ∧
            (ConstantSet.ofValues (Collation.compare {}) vs).KeepsApart a b) ↔ ¬ a.PaddingYields b)) := by
  have agrees := compare_of_partialCompare? ha h
  refine ⟨agrees, ?_⟩
  rintro rfl
  rw [ConstantSet.keepsApart_iff ha hb (typeRank_of_partialCompare? h), Ne, agrees]

/-- Two paddings of one word are one value everywhere. -/
theorem total_refines_partial_padded :
    let a : Value := .char "ab  "
    let b : Value := .char "ab"
    a.isApproximate = false ∧ b.isApproximate = false ∧ a.partialCompare? b = some .eq ∧
      Collation.compare {} a b = .eq ∧
      ¬ ∃ vs : List Value, (∀ v ∈ vs, v.isApproximate = false) ∧
        (ConstantSet.ofValues (Collation.compare {}) vs).KeepsApart a b := by
  intro a b
  have equal : a.partialCompare? b = some .eq := by decide
  have yields : a.PaddingYields b := by
    intro x y hx hy
    obtain rfl := char.inj hx
    obtain rfl := char.inj hy
    exact Text.endsYield_of_spaces (by decide) (by decide)
  obtain ⟨order, sets⟩ := total_refines_partial (a := a) (b := b) rfl rfl equal
  exact ⟨rfl, rfl, equal, order.2 yields, fun apart => (sets rfl).1 apart yields⟩

/-- A tab at the end of a `char` counts for nothing where two of them compare, but the total order sees it, and
so does a set. -/
theorem total_parts_equal :
    let a : Value := .char "a\t"
    let b : Value := .char "a"
    let cmp := Collation.compare {}
    a.isApproximate = false ∧ b.isApproximate = false ∧ a.partialCompare? b = some .eq ∧ cmp a b = .gt ∧
      (ConstantSet.ofValues cmp [a, b]).KeepsApart a b := by
  intro a b cmp
  have greater : cmp a b = .gt := by decide
  exact ⟨rfl, rfl, by decide, greater, ConstantSet.keepsApart_pair (by rw [greater]; decide)⟩

end Value

end SqlEngine
