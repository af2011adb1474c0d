/-!
# Order of text

Lists are ordered by their first difference, characters by code point and bytes by value.
-/

namespace SqlEngine.Text

/-- Order by the first difference; a list comes before its extensions. -/
def compareLists {α : Type} (cmp : α → α → Ordering) : List α → List α → Ordering
  | [], [] => .eq
  | [], _ :: _ => .lt
  | _ :: _, [] => .gt
  | a :: r, b :: s => (cmp a b).then (compareLists cmp r s)

def compareChars : List Char → List Char → Ordering :=
  compareLists fun a b => compare a.toNat b.toNat

def compareBytes : List UInt8 → List UInt8 → Ordering :=
  compareLists fun a b => compare a.toNat b.toNat

def compareStrings (a b : String) : Ordering := compareChars a.toList b.toList

theorem compareLists_eq_iff {α : Type} {cmp : α → α → Ordering}
    (h : ∀ a b, cmp a b = .eq ↔ a = b) (xs ys : List α) :
    compareLists cmp xs ys = .eq ↔ xs = ys := by
  induction xs generalizing ys with
  | nil => cases ys <;> simp [compareLists]
  | cons a r ih => cases ys with
    | nil => simp [compareLists]
    | cons b s => simp [compareLists, Ordering.then_eq_eq, h, ih]

/-- Puts an item behind those that are not greater. -/
def insertSorted {α : Type} (cmp : α → α → Ordering) (a : α) : List α → List α
  | [] => [a]
  | b :: r => if cmp a b = .lt then a :: b :: r else b :: insertSorted cmp a r

/-- Sorts; equal items keep their order. -/
def sort {α : Type} (cmp : α → α → Ordering) (xs : List α) : List α :=
  xs.foldl (fun acc a => insertSorted cmp a acc) []

theorem insertSorted_perm {α : Type} (cmp : α → α → Ordering) (a : α) (xs : List α) :
    (insertSorted cmp a xs).Perm (a :: xs) := by
  induction xs with
  | nil => exact .refl _
  | cons b r ih =>
    unfold insertSorted
    split
    · exact .refl _
    · exact (ih.cons b).trans (.swap a b r)

/-- Sorting only moves items. -/
theorem sort_perm {α : Type} (cmp : α → α → Ordering) (xs : List α) : (sort cmp xs).Perm xs := by
  have grown (ys acc : List α) :
      (ys.foldl (fun acc a => insertSorted cmp a acc) acc).Perm (ys ++ acc) := by
    induction ys generalizing acc with
    | nil => exact .refl _
    | cons a r ih =>
      refine (ih _).trans ?_
      exact ((insertSorted_perm cmp a acc).append_left r).trans List.perm_middle
  simpa [sort] using grown xs []

end SqlEngine.Text
