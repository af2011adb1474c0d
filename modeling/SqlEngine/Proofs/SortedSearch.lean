import Mathlib.Data.List.InsertIdx
import SqlEngine.Membership.ConstantSet

/-!
# Search in sorted values

Where a comparison orders the values at hand, halving finds a value if there is an equal one and
otherwise the place where it belongs, so sets of constants stay sorted.
-/

namespace SqlEngine

variable {α : Type} {cmp : α → α → Ordering} {P : α → Prop}

/-- The comparison is a total preorder of these values. -/
def OrderedOn (P : α → Prop) (cmp : α → α → Ordering) : Prop :=
  Std.TransCmp fun a b : { v : α // P v } => cmp a.1 b.1

namespace OrderedOn

variable {a b c : α}

theorem swap (h : OrderedOn P cmp) (ha : P a) (hb : P b) : cmp a b = (cmp b a).swap :=
  h.eq_swap (a := ⟨a, ha⟩) (b := ⟨b, hb⟩)

theorem self (h : OrderedOn P cmp) (ha : P a) : cmp a a = .eq := by
  have swapped := h.swap ha ha
  cases order : cmp a a with
  | eq => rfl
  | lt | gt =>
    rw [order] at swapped
    cases swapped

theorem lt_of_gt (h : OrderedOn P cmp) (ha : P a) (hb : P b) (greater : cmp a b = .gt) :
    cmp b a = .lt := by
  rw [h.swap hb ha, greater]
  rfl

theorem gt_of_lt (h : OrderedOn P cmp) (ha : P a) (hb : P b) (less : cmp a b = .lt) :
    cmp b a = .gt := by
  rw [h.swap hb ha, less]
  rfl

theorem lt_of_lt_of_not_gt (h : OrderedOn P cmp) (ha : P a) (hb : P b) (hc : P c)
    (first : cmp a b = .lt) (second : cmp b c ≠ .gt) : cmp a c = .lt := by
  have le : (cmp b c).isLE = true := by
    cases order : cmp b c with
    | gt => exact absurd order second
    | _ => rfl
  exact @Std.TransCmp.lt_of_lt_of_isLE { v : α // P v } _ h ⟨a, ha⟩ ⟨b, hb⟩ ⟨c, hc⟩ first le

/-- Equal values compare alike with all others. -/
theorem congr_left (h : OrderedOn P cmp) (ha : P a) (hb : P b) (hc : P c) (same : cmp a b = .eq) :
    cmp a c = cmp b c :=
  @Std.TransCmp.congr_left { v : α // P v } _ h ⟨a, ha⟩ ⟨b, hb⟩ ⟨c, hc⟩ same

theorem congr_right (h : OrderedOn P cmp) (ha : P a) (hb : P b) (hc : P c) (same : cmp b c = .eq) :
    cmp a b = cmp a c :=
  @Std.TransCmp.congr_right { v : α // P v } _ h ⟨a, ha⟩ ⟨b, hb⟩ ⟨c, hc⟩ same

theorem mono {Q : α → Prop} (h : OrderedOn P cmp) (weaker : ∀ a, Q a → P a) : OrderedOn Q cmp where
  eq_swap {a b} := h.swap (weaker a.1 a.2) (weaker b.1 b.2)
  isLE_trans {a b c} first second :=
    h.isLE_trans (a := ⟨a.1, weaker a.1 a.2⟩) (b := ⟨b.1, weaker b.1 b.2⟩)
      (c := ⟨c.1, weaker c.1 c.2⟩) first second

end OrderedOn

/-- Ascending values, no two of which are equal. -/
def Ascending (cmp : α → α → Ordering) (xs : List α) : Prop := xs.Pairwise fun a b => cmp a b = .lt

namespace Slot

/-- The slot stands behind the lesser values and in front of the greater ones, on an equal one if there
is one. -/
inductive Splits (cmp : α → α → Ordering) (v : α) : List α → Slot → Prop
  | hit (low : List α) (a : α) (high : List α) (below : ∀ b ∈ low, cmp b v = .lt)
      (here : cmp a v = .eq) (above : ∀ b ∈ high, cmp b v = .gt) :
      Splits cmp v (low ++ a :: high) ⟨low.length, true⟩
  | miss (low high : List α) (below : ∀ b ∈ low, cmp b v = .lt) (above : ∀ b ∈ high, cmp b v = .gt) :
      Splits cmp v (low ++ high) ⟨low.length, false⟩

namespace Splits

variable {v : α} {xs : List α} {s : Slot}

theorem append (h : Splits cmp v xs s) (ys : List α) (above : ∀ b ∈ ys, cmp b v = .gt) :
    Splits cmp v (xs ++ ys) s := by
  have grown {high : List α} (old : ∀ b ∈ high, cmp b v = .gt) :
      ∀ b ∈ high ++ ys, cmp b v = .gt := by
    intro b hb
    rcases List.mem_append.1 hb with hb | hb
    · exact old b hb
    · exact above b hb
  cases h with
  | hit low a high below here old =>
    rw [List.append_assoc, List.cons_append]
    exact .hit low a (high ++ ys) below here (grown old)
  | miss low high below old =>
    rw [List.append_assoc]
    exact .miss low (high ++ ys) below (grown old)

theorem prepend (h : Splits cmp v xs s) (ys : List α) (below : ∀ b ∈ ys, cmp b v = .lt) :
    Splits cmp v (ys ++ xs) (s.shift ys.length) := by
  have grown {low : List α} (old : ∀ b ∈ low, cmp b v = .lt) : ∀ b ∈ ys ++ low, cmp b v = .lt := by
    intro b hb
    rcases List.mem_append.1 hb with hb | hb
    · exact below b hb
    · exact old b hb
  cases h with
  | hit low a high old here above =>
    have longer := Splits.hit (ys ++ low) a high (grown old) here above
    rw [List.append_assoc, List.length_append] at longer
    exact longer
  | miss low high old above =>
    have longer := Splits.miss (ys ++ low) high (grown old) above
    rw [List.append_assoc, List.length_append] at longer
    exact longer

/-- The slot is occupied exactly if one of the values is equal. -/
theorem occupied_iff (h : Splits cmp v xs s) :
    s.occupied = true ↔ ∃ a ∈ xs, cmp a v = .eq := by
  cases h with
  | hit low a high below here above =>
    exact ⟨fun _ => ⟨a, List.mem_append_right low List.mem_cons_self, here⟩, fun _ => rfl⟩
  | miss low high below above =>
    refine ⟨nofun, ?_⟩
    rintro ⟨a, ha, here⟩
    rcases List.mem_append.1 ha with ha | ha
    · rw [below a ha] at here
      cases here
    · rw [above a ha] at here
      cases here

/-- A slot that is not occupied has nothing but lesser and greater values around it. -/
theorem around (h : Splits cmp v xs s) (free : s.occupied = false) :
    ∃ low high, xs = low ++ high ∧ s.index = low.length ∧ (∀ b ∈ low, cmp b v = .lt) ∧
      ∀ b ∈ high, cmp b v = .gt := by
  cases h with
  | hit => cases free
  | miss low high below above => exact ⟨low, high, rfl, rfl, below, above⟩

end Splits

/-- What stands before and behind an index where items are related in their order. -/
theorem around_index {R : α → α → Prop} {xs : List α} (related : xs.Pairwise R) (i : Fin xs.length) :
    (∀ b ∈ xs.take i, R b (xs.get i)) ∧ ∀ b ∈ xs.drop i, b = xs.get i ∨ R (xs.get i) b := by
  have split : xs = xs.take i ++ xs.get i :: xs.drop (i + 1) := by
    rw [List.get_eq_getElem, ← List.drop_eq_getElem_cons i.2, List.take_append_drop]
  have parts := related
  rw [split, List.pairwise_append, List.pairwise_cons] at parts
  obtain ⟨_, ⟨above, _⟩, below⟩ := parts
  refine ⟨fun b hb => below b hb _ List.mem_cons_self, fun b hb => ?_⟩
  rw [List.drop_eq_getElem_cons i.2] at hb
  rcases List.mem_cons.1 hb with rfl | hb
  · exact .inl rfl
  · exact .inr (above b hb)

/-- The first half reaches at least to the middle. -/
theorem mem_drop_middle {xs : List α} {c : α} (hc : c ∈ xs.drop (xs.length - middle xs)) :
    c ∈ xs.drop (middle xs) := by
  have far : middle xs ≤ xs.length - middle xs := by
    simp only [middle]
    omega
  rw [← Nat.add_sub_cancel' far, ← List.drop_drop] at hc
  exact List.mem_of_mem_drop hc

/-- Seen from a value the list is sorted: what stands before an item that is not greater is less. -/
def PartedAt (cmp : α → α → Ordering) (v : α) (xs : List α) : Prop :=
  xs.Pairwise fun a b => cmp b v ≠ .gt → cmp a v = .lt

/-- Halving keeps the place of the value in the part that it goes on with. -/
theorem find_of_parted {v : α} {xs : List α} (parted : PartedAt cmp v xs) : Splits cmp v xs (find cmp v xs) := by
  fun_induction find cmp v xs with
  | case1 => exact .miss [] [] nofun nofun
  | case2 a less =>
    refine .miss [a] [] (fun b hb => ?_) nofun
    rw [List.mem_singleton.1 hb]
    exact less
  | case3 a equal => exact .hit [] a [] nofun equal nofun
  | case4 a greater =>
    refine .miss [] [a] nofun (fun b hb => ?_)
    rw [List.mem_singleton.1 hb]
    exact greater
  | case5 a b r half greater ih =>
    obtain ⟨_, above⟩ := around_index parted ⟨half, middle_lt a (b :: r)⟩
    have whole := (ih parted.take).append ((a :: b :: r).drop ((a :: b :: r).length - half)) ?_
    · rwa [List.take_append_drop] at whole
    · intro c hc
      rcases above c (mem_drop_middle hc) with rfl | higher
      · exact greater
      · by_cases order : cmp c v = .gt
        · exact order
        · rw [higher order] at greater
          cases greater
  | case6 a b r half notGreater ih =>
    have inside := middle_lt a (b :: r)
    obtain ⟨below, _⟩ := around_index parted ⟨half, inside⟩
    have whole := (ih parted.drop).prepend ((a :: b :: r).take half) fun c hc => below c hc notGreater
    rw [List.take_append_drop, List.length_take, Nat.min_eq_left (Nat.le_of_lt inside)] at whole
    exact whole

/-- So a value is found, or its place, among ascending values. -/
theorem find_splits (order : OrderedOn P cmp) {v : α} (hv : P v) (xs : List α)
    (inside : ∀ a ∈ xs, P a) (ascending : Ascending cmp xs) : Splits cmp v xs (find cmp v xs) := by
  apply find_of_parted
  apply ascending.imp_of_mem
  intro a b ha hb less notGreater
  exact order.lt_of_lt_of_not_gt (inside a ha) (inside b hb) hv less notGreater

/-- Items that are sorted by something coarser than the comparison stay so around the slot. -/
theorem find_between {rank : α → Ordering} {v : α} {xs : List α}
    (sorted : xs.Pairwise fun a b => (rank b ≠ .gt → rank a ≠ .gt) ∧ (rank a ≠ .lt → rank b ≠ .lt))
    (coarser : ∀ a ∈ xs, rank a ≠ .eq → cmp a v = rank a) :
    ∃ low high, xs = low ++ high ∧ (find cmp v xs).index = low.length ∧
      (∀ b ∈ low, rank b ≠ .gt) ∧ ∀ b ∈ high, rank b ≠ .lt := by
  have decided {a : α} {o : Ordering} (ha : a ∈ xs) (order : cmp a v ≠ o) (some : o ≠ .eq) : rank a ≠ o := by
    rintro rfl
    exact order (coarser a ha some)
  fun_induction find cmp v xs with
  | case1 => exact ⟨[], [], rfl, rfl, nofun, nofun⟩
  | case2 a less =>
    have notGreater : rank a ≠ .gt := decided List.mem_cons_self (by rw [less]; decide) (by decide)
    exact ⟨[a], [], rfl, rfl, by simpa using notGreater, nofun⟩
  | case3 a equal =>
    have notLess : rank a ≠ .lt := decided List.mem_cons_self (by rw [equal]; decide) (by decide)
    exact ⟨[], [a], rfl, rfl, nofun, by simpa using notLess⟩
  | case4 a greater =>
    have notLess : rank a ≠ .lt := decided List.mem_cons_self (by rw [greater]; decide) (by decide)
    exact ⟨[], [a], rfl, rfl, nofun, by simpa using notLess⟩
  | case5 a b r half greater ih =>
    obtain ⟨_, above⟩ := around_index sorted ⟨half, middle_lt a (b :: r)⟩
    have notLess : rank ((a :: b :: r).get ⟨half, middle_lt a (b :: r)⟩) ≠ .lt :=
      decided (List.get_mem _ _) (by rw [greater]; decide) (by decide)
    obtain ⟨low, high, parts, index, lower, upper⟩ := ih sorted.take
      (fun c hc => coarser c (List.mem_of_mem_take hc)) fun hc => decided (List.mem_of_mem_take hc)
    refine ⟨low, high ++ (a :: b :: r).drop ((a :: b :: r).length - half), ?_, index, lower, fun c hc => ?_⟩
    · rw [← List.append_assoc, ← parts, List.take_append_drop]
    · rcases List.mem_append.1 hc with hc | hc
      · exact upper c hc
      · rcases above c (mem_drop_middle hc) with rfl | higher
        · exact notLess
        · exact higher.2 notLess
  | case6 a b r half notGreater ih =>
    have inside := middle_lt a (b :: r)
    obtain ⟨below, _⟩ := around_index sorted ⟨half, inside⟩
    have atMost := decided (List.get_mem _ ⟨half, inside⟩) notGreater (by decide)
    obtain ⟨low, high, parts, index, lower, upper⟩ := ih sorted.drop
      (fun c hc => coarser c (List.mem_of_mem_drop hc)) fun hc => decided (List.mem_of_mem_drop hc)
    refine ⟨(a :: b :: r).take half ++ low, high, ?_, ?_, fun c hc => ?_, upper⟩
    · rw [List.append_assoc, ← parts, List.take_append_drop]
    · rw [List.length_append, List.length_take, Nat.min_eq_left (Nat.le_of_lt inside), ← index]
      rfl
    · rcases List.mem_append.1 hc with hc | hc
      · exact (below c hc).1 atMost
      · exact lower c hc

end Slot

theorem insertIdx_between (low high : List α) (v : α) :
    (low ++ high).insertIdx low.length v = low ++ v :: high := by
  induction low with
  | nil => exact List.insertIdx_zero
  | cons a low ih => exact congrArg (a :: ·) ih

theorem pairwise_between {R : α → α → Prop} {low high : List α} {v : α} (related : (low ++ high).Pairwise R)
    (below : ∀ b ∈ low, R b v) (above : ∀ b ∈ high, R v b) : (low ++ v :: high).Pairwise R := by
  obtain ⟨lowRelated, highRelated, between⟩ := List.pairwise_append.1 related
  refine List.pairwise_append.2 ⟨lowRelated, List.pairwise_cons.2 ⟨above, highRelated⟩, ?_⟩
  intro b hb c hc
  rcases List.mem_cons.1 hc with rfl | hc
  · exact below b hb
  · exact between b hb c hc

namespace ConstantSet

variable {cmp : Value → Value → Ordering} {P : Value → Prop}

variable {s : ConstantSet} {v w : Value} {low high : List Value}

theorem insert_of_occupied (occupied : (Slot.find cmp v s.values).occupied = true) : s.insert cmp v = s := by
  unfold insert
  exact if_pos occupied

theorem insert_of_free (free : (Slot.find cmp v s.values).occupied = false) (parts : s.values = low ++ high)
    (index : (Slot.find cmp v s.values).index = low.length) : s.insert cmp v = ⟨low ++ v :: high⟩ := by
  simp only [insert, free, Bool.false_eq_true, if_false]
  rw [index, parts, insertIdx_between]

theorem mem_insert (h : w ∈ (s.insert cmp v).values) : w = v ∨ w ∈ s.values := by
  unfold insert at h
  simp only [] at h
  split at h
  · exact .inr h
  · exact List.eq_or_mem_of_mem_insertIdx h

/-- Ascending values that the comparison orders. -/
structure Sorted (P : Value → Prop) (cmp : Value → Value → Ordering) (s : ConstantSet) : Prop where
  inside : ∀ a ∈ s.values, P a
  ascending : Ascending cmp s.values

theorem sorted_empty : Sorted P cmp {} where
  inside := nofun
  ascending := .nil

/-- A value is in a sorted set exactly if an equal one is among its values. -/
theorem contains_iff (order : OrderedOn P cmp) {s : ConstantSet} (sorted : Sorted P cmp s) {v : Value}
    (hv : P v) : s.contains cmp v = true ↔ ∃ a ∈ s.values, cmp a v = .eq :=
  (Slot.find_splits order hv s.values sorted.inside sorted.ascending).occupied_iff

/-- Insertion keeps a set sorted and adds nothing but the value, unless there is an equal one. -/
theorem insert_spec (order : OrderedOn P cmp) {s : ConstantSet} (sorted : Sorted P cmp s) {v : Value}
    (hv : P v) :
    Sorted P cmp (s.insert cmp v) ∧
      ∀ w, P w → ((∃ a ∈ (s.insert cmp v).values, cmp a w = .eq) ↔
        cmp v w = .eq ∨ ∃ a ∈ s.values, cmp a w = .eq) := by
  have splits := Slot.find_splits order hv s.values sorted.inside sorted.ascending
  obtain ⟨values⟩ := s
  obtain ⟨inside, ascending⟩ := sorted
  simp only [] at splits inside ascending
  unfold insert
  simp only []
  generalize Slot.find cmp v values = slot at splits
  cases splits with
  | hit low a high below here above =>
    refine ⟨⟨inside, ascending⟩, fun w hw => ⟨.inr, ?_⟩⟩
    rintro (same | old)
    · have ha : P a := inside a (List.mem_append_right low List.mem_cons_self)
      refine ⟨a, List.mem_append_right low List.mem_cons_self, ?_⟩
      rw [order.congr_left ha hv hw here]
      exact same
    · exact old
  | miss low high below above =>
    simp only [Bool.false_eq_true, if_false, insertIdx_between]
    have lowInside (b : Value) (hb : b ∈ low) : P b := inside b (List.mem_append_left high hb)
    have highInside (b : Value) (hb : b ∈ high) : P b := inside b (List.mem_append_right low hb)
    refine ⟨⟨fun b hb => ?_, ?_⟩, fun w hw => ?_⟩
    · rcases List.mem_append.1 hb with hb | hb
      · exact lowInside b hb
      · rcases List.mem_cons.1 hb with rfl | hb
        · exact hv
        · exact highInside b hb
    · exact pairwise_between ascending below fun b hb => order.lt_of_gt (highInside b hb) hv (above b hb)
    · constructor
      · rintro ⟨b, hb, same⟩
        rcases List.mem_append.1 hb with hb | hb
        · exact .inr ⟨b, List.mem_append_left high hb, same⟩
        · rcases List.mem_cons.1 hb with rfl | hb
          · exact .inl same
          · exact .inr ⟨b, List.mem_append_right low hb, same⟩
      · rintro (same | ⟨b, hb, same⟩)
        · exact ⟨v, List.mem_append_right low List.mem_cons_self, same⟩
        · refine ⟨b, ?_, same⟩
          rcases List.mem_append.1 hb with hb | hb
          · exact List.mem_append_left _ hb
          · exact List.mem_append_right low (List.mem_cons_of_mem v hb)

end ConstantSet

end SqlEngine
