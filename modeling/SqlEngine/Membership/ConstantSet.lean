import SqlEngine.Value.Order

/-!
# Sets of constants

Values kept in the order of a comparison, one for each class of values that compare equal. The
comparison is handed to every operation; `1`, `1.0` and `1.00` are one value to the usual ones.
-/

namespace SqlEngine

/-- Where a value is in sorted values, or where it would go. -/
structure Slot where
  index : Nat
  occupied : Bool
deriving DecidableEq

namespace Slot

def shift (n : Nat) (s : Slot) : Slot := { s with index := n + s.index }

/-- Where the second half of a list begins. -/
def middle {α : Type} (xs : List α) : Nat := xs.length / 2

theorem middle_lt {α : Type} (a : α) (r : List α) : middle (a :: r) < (a :: r).length :=
  Nat.div_lt_self (Nat.succ_pos _) (by decide)

theorem middle_pos {α : Type} (a b : α) (r : List α) : 0 < middle (a :: b :: r) := by
  simp only [middle, List.length_cons]; omega

theorem length_take_lt {α : Type} (a b : α) (r : List α) :
    ((a :: b :: r).take ((a :: b :: r).length - middle (a :: b :: r))).length <
      (a :: b :: r).length := by
  have := middle_pos a b r
  simp only [List.length_take, List.length_cons] at *; omega

theorem length_drop_lt {α : Type} (a b : α) (r : List α) :
    ((a :: b :: r).drop (middle (a :: b :: r))).length < (a :: b :: r).length := by
  have := middle_pos a b r
  simp only [List.length_drop, List.length_cons] at *; omega

/-- Search by halving. The middle value decides in which half to go on, so a value is found whenever
the values are sorted by the comparison. -/
def find {α : Type} (cmp : α → α → Ordering) (v : α) (xs : List α) : Slot :=
  match xs with
  | [] => ⟨0, false⟩
  | [a] => match cmp a v with
    | .lt => ⟨1, false⟩
    | .eq => ⟨0, true⟩
    | .gt => ⟨0, false⟩
  | a :: b :: r =>
    let half := middle (a :: b :: r)
    if cmp ((a :: b :: r).get ⟨half, middle_lt a (b :: r)⟩) v = .gt then
      find cmp v ((a :: b :: r).take ((a :: b :: r).length - half))
    else (find cmp v ((a :: b :: r).drop half)).shift half
termination_by xs.length
decreasing_by
  · exact length_take_lt a b r
  · exact length_drop_lt a b r

example : find compare 5 [1, 3, 5, 7] = ⟨2, true⟩ := by cbv
example : find compare 4 [1, 3, 5, 7] = ⟨2, false⟩ := by cbv

end Slot

structure ConstantSet where
  values : List Value := []

namespace ConstantSet

def contains (cmp : Value → Value → Ordering) (s : ConstantSet) (v : Value) : Bool :=
  (Slot.find cmp v s.values).occupied

/-- Adds a value that the set does not have yet. -/
def insert (cmp : Value → Value → Ordering) (s : ConstantSet) (v : Value) : ConstantSet :=
  let slot := Slot.find cmp v s.values
  if slot.occupied then s else ⟨s.values.insertIdx slot.index v⟩

/-- Whether the value was added, and the set with it. -/
def tryInsert (cmp : Value → Value → Ordering) (s : ConstantSet) (v : Value) : Bool × ConstantSet :=
  let slot := Slot.find cmp v s.values
  if slot.occupied then (false, s) else (true, ⟨s.values.insertIdx slot.index v⟩)

theorem tryInsert_eq (cmp : Value → Value → Ordering) (s : ConstantSet) (v : Value) :
    s.tryInsert cmp v = (!s.contains cmp v, s.insert cmp v) := by
  simp only [tryInsert, contains, insert]
  cases (Slot.find cmp v s.values).occupied <;> rfl

end ConstantSet

end SqlEngine
