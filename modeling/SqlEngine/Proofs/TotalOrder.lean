import Mathlib.Data.Set.List
import SqlEngine.Proofs.ValueOrder

/-!
# The order of all values

Values go by the rank of their type first. Within every rank but those of numbers and arrays they go by
a key, and arrays go item by item. Exact numbers go by their size and so do approximate ones, but the two
kinds meet as doubles only, so the order of all values is one of any collection in which they do not meet,
however deep in arrays.
-/

namespace SqlEngine

section parts

variable {α β : Type} {P : α → Prop} {cmp : α → α → Ordering}

/-- What is compared by something that is ordered is ordered. -/
theorem OrderedOn.comap {Q : β → Prop} {cmp' : β → β → Ordering} (h : OrderedOn Q cmp') (key : α → β)
    (inside : ∀ a, P a → Q (key a)) (same : ∀ a b, P a → P b → cmp a b = cmp' (key a) (key b)) :
    OrderedOn P cmp where
  eq_swap {a b} := by
    rw [same a.1 b.1 a.2 b.2, same b.1 a.1 b.2 a.2]
    exact h.swap (inside a.1 a.2) (inside b.1 b.2)
  isLE_trans {a b c} first second := by
    rw [same a.1 b.1 a.2 b.2] at first
    rw [same b.1 c.1 b.2 c.2] at second
    rw [same a.1 c.1 a.2 c.2]
    exact h.isLE_trans (a := ⟨key a.1, inside a.1 a.2⟩) (b := ⟨key b.1, inside b.1 b.2⟩)
      (c := ⟨key c.1, inside c.1 c.2⟩) first second

/-- An order by rank is one if the values of each rank are ordered. -/
theorem orderedOn_of_rank {rank : α → Nat}
    (across : ∀ a b, P a → P b → rank a ≠ rank b → cmp a b = compare (rank a) (rank b))
    (within : ∀ v, P v → OrderedOn (fun a => P a ∧ rank a = rank v) cmp) : OrderedOn P cmp where
  eq_swap {a b} := by
    by_cases same : rank a.1 = rank b.1
    · exact (within b.1 b.2).swap ⟨a.2, same⟩ ⟨b.2, rfl⟩
    · rw [across a.1 b.1 a.2 b.2 same, across b.1 a.1 b.2 a.2 (Ne.symm same)]
      exact (Nat.compare_swap _ _).symm
  isLE_trans {a b c} first second := by
    have rank_le (x y : { v : α // P v }) (le : (cmp x.1 y.1).isLE = true) : rank x.1 ≤ rank y.1 := by
      by_cases same : rank x.1 = rank y.1
      · exact Nat.le_of_eq same
      · rw [across x.1 y.1 x.2 y.2 same] at le
        exact Nat.isLE_compare.1 le
    have lower := rank_le a b first
    have upper := rank_le b c second
    by_cases same : rank a.1 = rank c.1
    · have middle : rank b.1 = rank c.1 := by omega
      exact (within c.1 c.2).isLE_trans (a := ⟨a.1, a.2, same⟩) (b := ⟨b.1, b.2, middle⟩)
        (c := ⟨c.1, c.2, rfl⟩) first second
    · rw [across a.1 c.1 a.2 c.2 same]
      exact Nat.isLE_compare.2 (Nat.le_trans lower upper)

/-- Lists of ordered items are ordered by their first difference. -/
theorem OrderedOn.lists (h : OrderedOn P cmp) :
    OrderedOn (fun xs => ∀ a ∈ xs, P a) (Text.compareLists cmp) := by
  have items (xs ys : List { v : α // P v }) :
      Text.compareLists cmp (xs.map (·.1)) (ys.map (·.1)) =
        Text.compareLists (fun a b => cmp a.1 b.1) xs ys := by
    induction xs generalizing ys with
    | nil => cases ys <;> rfl
    | cons a r ih =>
      cases ys with
      | nil => rfl
      | cons b s => exact congrArg (cmp a.1 b.1).then (ih s)
  have trans := Text.trans_compareLists h
  refine { eq_swap := ?_, isLE_trans := ?_ }
  · rintro ⟨xs, hx⟩ ⟨ys, hy⟩
    lift xs to List { v : α // P v } using hx
    lift ys to List { v : α // P v } using hy
    simp only [items]
    exact trans.eq_swap
  · rintro ⟨xs, hx⟩ ⟨ys, hy⟩ ⟨zs, hz⟩
    lift xs to List { v : α // P v } using hx
    lift ys to List { v : α // P v } using hy
    lift zs to List { v : α // P v } using hz
    simp only [items]
    exact trans.isLE_trans

/-- Values that are ordered up to every size are ordered. -/
theorem orderedOn_of_size (size : α → Nat) (h : ∀ n, OrderedOn (fun a => P a ∧ size a < n) cmp) :
    OrderedOn P cmp where
  eq_swap {a b} :=
    (h (size a.1 + size b.1 + 1)).swap ⟨a.2, by omega⟩ ⟨b.2, by omega⟩
  isLE_trans {a b c} first second := by
    have order := h (size a.1 + size b.1 + size c.1 + 1)
    exact order.isLE_trans (a := ⟨a.1, a.2, by omega⟩) (b := ⟨b.1, b.2, by omega⟩)
      (c := ⟨c.1, c.2, by omega⟩) first second

end parts

namespace Collation

variable (c : Collation) {a b : Value}

/-- Values of different ranks go by rank. -/
theorem compare_of_rank_ne (apart : typeRank a ≠ typeRank b) :
    c.compare a b = Ord.compare (typeRank a) (typeRank b) := by
  cases a <;> cases b <;> first | rfl | exact absurd rfl apart

theorem compareItems_eq (xs ys : List Value) :
    compareItems c xs ys = Text.compareLists c.compare xs ys := by
  induction xs generalizing ys with
  | nil => cases ys <;> rfl
  | cons a r ih =>
    cases ys with
    | nil => rfl
    | cons b s => exact congrArg (c.compare a b).then (ih s)

/-- The place in time of dates and timestamps; a date stands for its midnight. -/
def instant : Value → Int
  | .date d => (Timestamp.atMidnight d).rank
  | .timestamp t => t.rank
  | _ => 0

theorem compare_dates (d e : Date) :
    d.compare e = Ord.compare (Timestamp.atMidnight d).rank (Timestamp.atMidnight e).rank := by
  have midnight (f : Date) : (Timestamp.atMidnight f).rank = f.rank * (86400 * 1000000000) := by
    simp [Timestamp.rank, Timestamp.atMidnight, TimeOfDay.rank, TimeOfDay.midnight]
  rw [midnight, midnight, Int.compare_mul_pos _ _ (by decide)]
  rfl

theorem compare_instants (ha : typeRank a = 5) (hb : typeRank b = 5) :
    c.compare a b = Ord.compare (instant a) (instant b) := by
  have moments (v : Value) (hv : typeRank v = 5) : (∃ d, v = .date d) ∨ ∃ t, v = .timestamp t := by
    cases v with
    | date d => exact .inl ⟨d, rfl⟩
    | timestamp t => exact .inr ⟨t, rfl⟩
    | _ => cases hv
  rcases moments a ha with ⟨d, rfl⟩ | ⟨t, rfl⟩
  · rcases moments b hb with ⟨e, rfl⟩ | ⟨u, rfl⟩
    · exact compare_dates d e
    · rfl
  · rcases moments b hb with ⟨e, rfl⟩ | ⟨u, rfl⟩ <;> rfl

/-- Values of one rank are ordered, but for numbers and arrays. -/
theorem orderedOn_rank {v : Value} (notNumber : v.toDouble? = none)
    (notArray : ∀ items, v ≠ .array items) :
    OrderedOn (fun a => typeRank a = typeRank v) c.compare := by
  cases v with
  | null | boolean | time | resultSet =>
    refine orderedOn_of_key (o := Ord.compare) (inferInstanceAs (Std.TransOrd Nat)) count
      fun a b ha hb => ?_
    cases a <;> cases ha
    cases b <;> cases hb
    rfl
  | char | varchar | clob =>
    refine c.orderedOn_texts.mono fun a ha => ?_
    cases a <;> cases ha <;> rfl
  | varbinary | blob | object =>
    refine orderedOn_of_key Text.trans_compareBytes (fun v => v.bytes?.getD []) fun a b ha hb => ?_
    cases a <;> cases ha <;> cases b <;> cases hb <;> rfl
  | date | timestamp =>
    exact orderedOn_of_key (o := Ord.compare) (inferInstanceAs (Std.TransOrd Int)) instant
      fun a b ha hb => c.compare_instants ha hb
  | xml =>
    refine orderedOn_of_key Text.trans_compareChars (fun v => (v.string?.getD "").toList)
      fun a b ha hb => ?_
    cases a <;> cases ha
    cases b <;> cases hb
    rfl
  | array items => exact absurd rfl (notArray items)
  | smallint | integer | bigint | decimal | real | double => cases notNumber

/-- Numbers that are not both exact are compared as doubles. -/
theorem compare_numbers {x y : Binary64} (inexact : a.toDecimal? = none ∨ b.toDecimal? = none)
    (ha : a.toDouble? = some x) (hb : b.toDouble? = some y) : c.compare a b = x.totalCompare y := by
  rcases inexact with inexact | inexact
  · exact c.compare_doubles inexact ha hb
  · cases b <;> cases inexact <;> cases hb <;> cases a <;> cases ha <;> rfl

theorem isNumber_iff (v : Value) : typeRank v = 2 ↔ v.toDouble?.isSome = true := by
  cases v <;> simp [typeRank, Value.toDouble?]

theorem isArray_iff (v : Value) : typeRank v = 7 ↔ ∃ items, v = .array items := by
  cases v <;> simp [typeRank]

theorem swap_numbers (ha : a.toDouble?.isSome = true) (hb : b.toDouble?.isSome = true) :
    c.compare a b = (c.compare b a).swap := by
  by_cases exact : a.toDecimal?.isSome = true ∧ b.toDecimal?.isSome = true
  · exact c.orderedOn_exact.swap exact.1 exact.2
  · have inexact : a.toDecimal? = none ∨ b.toDecimal? = none := by
      rw [← Option.not_isSome_iff_eq_none, ← Option.not_isSome_iff_eq_none]
      exact not_and_or.1 exact
    obtain ⟨x, hx⟩ := Option.isSome_iff_exists.1 ha
    obtain ⟨y, hy⟩ := Option.isSome_iff_exists.1 hb
    rw [c.compare_numbers inexact hx hy, c.compare_numbers inexact.symm hy hx]
    exact @Std.OrientedCmp.eq_swap Int Ord.compare _ _ _

theorem compareLists_swap {α : Type} {cmp : α → α → Ordering} {xs ys : List α}
    (items : ∀ a ∈ xs, ∀ b, cmp a b = (cmp b a).swap) :
    Text.compareLists cmp xs ys = (Text.compareLists cmp ys xs).swap := by
  induction xs generalizing ys with
  | nil => cases ys <;> rfl
  | cons a r ih =>
    cases ys with
    | nil => rfl
    | cons b s =>
      have rest : Text.compareLists cmp r s = (Text.compareLists cmp s r).swap :=
        ih fun a ha => items a (List.mem_cons_of_mem _ ha)
      simp only [Text.compareLists]
      rw [items a List.mem_cons_self b, rest, Ordering.swap_then]

/-- Turning the two values around turns the order around, whatever the values. -/
theorem compare_swap : ∀ a b : Value, c.compare a b = (c.compare b a).swap
  | a, b => by
    by_cases same : typeRank a = typeRank b
    · by_cases array : typeRank b = 7
      · obtain ⟨xs, rfl⟩ := (isArray_iff a).1 (same.trans array)
        obtain ⟨ys, rfl⟩ := (isArray_iff b).1 array
        change c.compareItems xs ys = (c.compareItems ys xs).swap
        rw [compareItems_eq, compareItems_eq]
        exact compareLists_swap fun x hx y => compare_swap x y
      · cases number : b.toDouble? with
        | some y =>
          have hb : b.toDouble?.isSome = true := Option.isSome_iff_exists.2 ⟨y, number⟩
          exact c.swap_numbers ((isNumber_iff a).1 (same.trans ((isNumber_iff b).2 hb))) hb
        | none =>
          have scalar (items : List Value) (h : b = .array items) : False :=
            array ((isArray_iff b).2 ⟨items, h⟩)
          exact (c.orderedOn_rank number scalar).swap same rfl
    · rw [c.compare_of_rank_ne same, c.compare_of_rank_ne (Ne.symm same)]
      exact (Nat.compare_swap _ _).symm
termination_by a => sizeOf a
decreasing_by
  have smaller := List.sizeOf_lt_of_mem hx
  subst_vars
  simp only [Value.array.sizeOf_spec]
  omega

theorem oriented : Std.OrientedCmp c.compare := ⟨c.compare_swap _ _⟩

end Collation

namespace Value

/-- The value itself, or an item of an array at any depth. -/
inductive OccursIn (w : Value) : Value → Prop
  | self : OccursIn w w
  | item {items : List Value} {v : Value} (listed : v ∈ items) (inside : OccursIn w v) :
      OccursIn w (.array items)

def isExact (v : Value) : Bool := v.toDecimal?.isSome

/-- No value of this kind occurs in the value. -/
def Without (kind : Value → Bool) (v : Value) : Prop := ∀ w, w.OccursIn v → kind w = false

/-- Exact and approximate numbers do not both occur in these values. -/
def Unmixed (P : Value → Prop) : Prop :=
  ¬ ((∃ v w : Value, P v ∧ w.OccursIn v ∧ w.isExact = true) ∧
    ∃ v w : Value, P v ∧ w.OccursIn v ∧ w.isApproximate = true)

def arrayItems : Value → List Value
  | array items => items
  | _ => []

theorem without_of_absent {kind : Value → Bool} {P : Value → Prop}
    (absent : ¬ ∃ v w : Value, P v ∧ w.OccursIn v ∧ kind w = true) (v : Value) (hv : P v) :
    v.Without kind := by
  intro w occurs
  rw [← Bool.not_eq_true]
  exact fun found => absent ⟨v, w, hv, occurs, found⟩

end Value

namespace Collation

variable (c : Collation)

/-- If the numbers that are not of a kind are ordered, so are the values without that kind. -/
theorem orderedOn_without (kind : Value → Bool)
    (numbers : OrderedOn (fun v => v.toDouble?.isSome = true ∧ kind v = false) c.compare) :
    OrderedOn (Value.Without kind) c.compare := by
  refine orderedOn_of_size sizeOf fun n => ?_
  induction n with
  | zero => exact numbers.mono fun v h => absurd h.2 (Nat.not_lt_zero _)
  | succ n ih =>
    refine orderedOn_of_rank (fun a b _ _ apart => c.compare_of_rank_ne apart) fun v _ => ?_
    by_cases array : typeRank v = 7
    · rw [array]
      refine ih.lists.comap Value.arrayItems (fun a ha b hb => ?_) fun a b ha hb => ?_
      · obtain ⟨⟨without, small⟩, rank⟩ := ha
        obtain ⟨items, rfl⟩ := (isArray_iff a).1 rank
        have smaller := List.sizeOf_lt_of_mem hb
        simp only [Value.array.sizeOf_spec, Value.arrayItems] at small smaller
        exact ⟨fun w occurs => without w (.item hb occurs), by omega⟩
      · obtain ⟨xs, rfl⟩ := (isArray_iff a).1 ha.2
        obtain ⟨ys, rfl⟩ := (isArray_iff b).1 hb.2
        exact c.compareItems_eq xs ys
    · by_cases number : typeRank v = 2
      · rw [number]
        exact numbers.mono fun a ha => ⟨(isNumber_iff a).1 ha.2, ha.1.1 a .self⟩
      · have notNumber : v.toDouble? = none := by
          rw [← Option.not_isSome_iff_eq_none, ← isNumber_iff]
          exact number
        have notArray (items : List Value) (h : v = .array items) : False :=
          array ((isArray_iff v).2 ⟨items, h⟩)
        exact (c.orderedOn_rank notNumber notArray).mono fun a ha => ha.2

theorem orderedOn_unmixed {P : Value → Prop} (unmixed : Value.Unmixed P) : OrderedOn P c.compare := by
  rcases not_and_or.1 unmixed with noExact | noApproximate
  · refine (c.orderedOn_without Value.isExact ?_).mono (Value.without_of_absent noExact)
    refine c.orderedOn_doubles.mono fun v hv => ⟨?_, hv.1⟩
    exact Option.not_isSome_iff_eq_none.1 (ne_true_of_eq_false hv.2)
  · refine (c.orderedOn_without Value.isApproximate ?_).mono
      (Value.without_of_absent noApproximate)
    refine c.orderedOn_exact.mono fun v hv => ?_
    cases v with
    | smallint | integer | bigint | decimal => rfl
    | real | double => cases hv.2
    | _ => cases hv.1

/-- The comparison is a total preorder of all values among which exact and approximate numbers do not
both occur. -/
theorem compare_totalPreorder {P : Value → Prop} (unmixed : Value.Unmixed P) :
    (∀ a, P a → c.compare a a = .eq) ∧
      (∀ a b, P a → P b → c.compare a b = (c.compare b a).swap) ∧
      (∀ a b d, P a → P b → P d → c.compare a b ≠ .gt → c.compare b d ≠ .gt → c.compare a d ≠ .gt) ∧
      ∀ a b d, P a → P b → P d → c.compare a b = .eq →
        c.compare a d = c.compare b d ∧ c.compare d a = c.compare d b := by
  have order := c.orderedOn_unmixed unmixed
  refine ⟨fun a ha => order.self ha, fun a b ha hb => order.swap ha hb, ?_, ?_⟩
  · intro a b d ha hb hd first second
    rw [Ne, ← Ordering.isLE_iff_ne_gt] at *
    exact order.isLE_trans (a := ⟨a, ha⟩) (b := ⟨b, hb⟩) (c := ⟨d, hd⟩) first second
  · intro a b d ha hb hd same
    exact ⟨order.congr_left ha hb hd same, order.congr_right hd ha hb same⟩

/-- A NaN, an array with another one, and one word as padded and as capital text. -/
def nansAndWords : List Value :=
  [.double (.nan false), .array [.real (.nan true), .null], .char "a ", .varchar "A"]

theorem unmixed_nansAndWords : Value.Unmixed (· ∈ nansAndWords) := by
  rintro ⟨⟨v, w, hv, occurs, exact⟩, _⟩
  simp only [nansAndWords, List.mem_cons, List.not_mem_nil, or_false] at hv
  rcases hv with rfl | rfl | rfl | rfl
  · cases occurs
    cases exact
  · cases occurs with
    | self => cases exact
    | item listed inside =>
      simp only [List.mem_cons, List.not_mem_nil, or_false] at listed
      rcases listed with rfl | rfl
      · cases inside
        cases exact
      · cases inside
        cases exact
  · cases occurs
    cases exact
  · cases occurs
    cases exact

/-- A NaN equals itself, and the two words are one wherever case is ignored. -/
theorem compare_totalPreorder_nansAndWords :
    Value.Unmixed (· ∈ nansAndWords) ∧
      compare ⟨true⟩ (.double (.nan false)) (.double (.nan false)) = .eq ∧
      compare ⟨true⟩ (.array [.real (.nan true), .null]) (.char "a ") =
        (compare ⟨true⟩ (.char "a ") (.array [.real (.nan true), .null])).swap ∧
      compare ⟨true⟩ (.char "a ") (.double (.nan false)) =
        compare ⟨true⟩ (.varchar "A") (.double (.nan false)) := by
  have listed : .double (.nan false) ∈ nansAndWords ∧
      .array [.real (.nan true), .null] ∈ nansAndWords ∧ .char "a " ∈ nansAndWords ∧
      .varchar "A" ∈ nansAndWords := by
    simp [nansAndWords]
  obtain ⟨nan, array, padded, capital⟩ := listed
  obtain ⟨self, swap, _, congr⟩ := compare_totalPreorder ⟨true⟩ unmixed_nansAndWords
  exact ⟨unmixed_nansAndWords, self _ nan, swap _ _ array padded,
    (congr _ _ _ padded capital nan (by decide)).1⟩

end Collation

end SqlEngine
