import SqlEngine.Proofs.ExactValues
import SqlEngine.Proofs.MergedEqualities

/-!
# Operands matched with each other

A test takes in an equality if one side of it is the same expression as its operand. That leaves the
literals of both free to differ in all that equality of values does not see. Where only exact numbers are
computed and compared this makes no difference, and elsewhere none as long as the literals are written alike.
Literals that are written differently can always be told apart.
-/

namespace SqlEngine

/-- Related values are null together, and comparisons cannot tell them apart. -/
structure Collation.Blind (c : Collation) (R : Value → Value → Prop) : Prop where
  isNull {v w : Value} : R v w → v.isNull = w.isNull
  compareBy {op : BinaryOp} {v w v' w' a b : Value} : R v w → R v' w' →
    Value.compareBy c.compare op v v' = .ok a → Value.compareBy c.compare op w w' = .ok b → a = b

theorem Collation.blind_alike (c : Collation) : c.Blind Value.Alike := ⟨Value.Alike.isNull, compareBy_alike⟩

theorem Collation.blind_near (c : Collation) : c.Blind Value.Near := ⟨Value.Near.isNull, compareBy_near⟩

namespace Outcome

variable {R S : Value → Value → Prop} {x y x' y' : Outcome} {c : Collation}

/-- Where there are two values, they are related. -/
def Related (R : Value → Value → Prop) (x y : Outcome) : Prop := ∀ v w, x = .ok v → y = .ok w → R v w

namespace Related

theorem mono (h : Related R x y) (weaker : ∀ v w, R v w → S v w) : Related S x y :=
  fun v w first second => weaker v w (h v w first second)

theorem unique (x : Outcome) : Related Eq x x :=
  fun _ _ first second => Except.ok.inj (first.symm.trans second)

theorem alike (h : Related Eq x y) : Related Value.Alike x y :=
  h.mono fun v _ same => same ▸ .refl v

theorem refl (x : Outcome) : Related Value.Alike x x := (unique x).alike

theorem ok {v w : Value} (related : R v w) : Related R (.ok v) (.ok w) := by
  intro a b first second
  cases first
  cases second
  exact related

theorem bind {f g : Value → Outcome} (operands : Related R x y)
    (rest : ∀ v w, R v w → Related S (f v) (g w)) : Related S (x >>= f) (y >>= g) := by
  intro a b first second
  obtain ⟨v, value, next⟩ := bind_eq_ok.1 first
  obtain ⟨w, value', next'⟩ := bind_eq_ok.1 second
  exact rest v w (operands v w value value') a b next next'

theorem operands {f : Value → Value → Outcome} (onLeft : Related R x y) (onRight : Related R x' y')
    (combine : ∀ {v w v' w' : Value}, R v w → R v' w' → Related S (f v v') (f w w')) :
    Related S (do let l ← x; let r ← x'; f l r) (do let l ← y; let r ← y'; f l r) :=
  onLeft.bind fun _ _ left => onRight.bind fun _ _ right => combine left right

theorem atDepth {s : Scope} {depth depth' : Nat} (inside : Related R x y) :
    Related R (Outcome.atDepth s depth x) (Outcome.atDepth s depth' y) := by
  intro v w first second
  exact inside v w (atDepth_refines s depth x v first) (atDepth_refines s depth' y w second)

theorem compareBy (op : BinaryOp) (blind : c.Blind R) {v w v' w' : Value} (left : R v w) (right : R v' w') :
    Related Eq (Value.compareBy c.compare op v v') (Value.compareBy c.compare op w w') :=
  fun _ _ first second => blind.compareBy left right first second

/-- A comparison cannot tell its operands apart. -/
theorem comparison (blind : c.Blind R) {op : BinaryOp} (compares : op.isComparison = true)
    (onLeft : Related R x y) (onRight : Related R x' y') :
    Related Eq (Outcome.binary c.compare op x x') (Outcome.binary c.compare op y y') := by
  have compared := onLeft.operands onRight fun left right => compareBy op blind left right
  cases op with
  | equal | notEqual | less | lessEqual | greater | greaterEqual => exact compared
  | _ => cases compares

theorem search (blind : c.Blind R) (negated : Bool) {v w : Value} (operand : R v w)
    {items items' : List Outcome} (each : List.Forall₂ (Related R) items items') (sawNull : Bool) :
    Related Eq (Outcome.search c.compare negated v sawNull items)
      (Outcome.search c.compare negated w sawNull items') := by
  induction each generalizing sawNull with
  | nil => exact unique _
  | cons item _ ih =>
    refine item.bind fun v' w' related => ?_
    rw [blind.isNull related]
    split
    · exact ih true
    · refine (compareBy .equal blind operand related).bind ?_
      rintro found _ rfl
      split
      · exact unique _
      · exact ih sawNull

theorem inList (blind : c.Blind R) (negated : Bool) {items items' : List Outcome} (onLeft : Related R x y)
    (each : List.Forall₂ (Related R) items items') :
    Related Eq (Outcome.inList c.compare negated x items) (Outcome.inList c.compare negated y items') := by
  refine onLeft.bind fun v w operand => ?_
  rw [blind.isNull operand]
  split
  · exact unique _
  · exact search blind negated operand each false

theorem conjoin (onLeft : Related Value.Alike x y) (onRight : Related Value.Alike x' y') :
    Related Value.Alike (Outcome.conjoin x x') (Outcome.conjoin y y') := by
  refine onLeft.bind fun v w left => ?_
  rw [left.same_boolean false]
  split
  · exact ok left
  · refine onRight.bind fun v' w' right a b first second => ?_
    exact left.joined right (fun _ _ => rfl) first second

theorem disjoin (onLeft : Related Value.Alike x y) (onRight : Related Value.Alike x' y') :
    Related Value.Alike (Outcome.disjoin x x') (Outcome.disjoin y y') := by
  refine onLeft.bind fun v w left => ?_
  rw [left.same_boolean true]
  split
  · exact ok left
  · refine onRight.bind fun v' w' right a b first second => ?_
    exact left.joined right (fun _ _ => rfl) first second

theorem binary (op : BinaryOp) (onLeft : Related Value.Alike x y) (onRight : Related Value.Alike x' y') :
    Related Value.Alike (Outcome.binary c.compare op x x') (Outcome.binary c.compare op y y') := by
  cases op with
  | and => exact onLeft.conjoin onRight
  | or => exact onLeft.disjoin onRight
  | plus | minus | times =>
    exact onLeft.operands onRight fun left right a b first second => left.arithmetic right first second
  | concat =>
    refine onLeft.operands onRight fun left right => ?_
    rw [left.concatenated right]
    exact refl _
  | _ => exact (comparison c.blind_alike rfl onLeft onRight).alike

end Related

end Outcome

namespace Expr

open Outcome Condition

/-- The value is an exact number or null, computed from nothing but such ones. -/
def ExactOn (s : Scope) (row : Row) : Expr → Prop
  | literal v => v.isExactOrNull = true
  | column t n => ∀ v, s.column row t n = .ok v → v.isExactOrNull = true
  | binary op l r => op ∈ [.plus, .minus, .times] ∧ ExactOn s row l ∧ ExactOn s row r
  | negate x => ExactOn s row x
  | cast x type => type.isExactNumeric = true ∧ ExactOn s row x
  | _ => False

mutual

/-- Literals in the same places have the same text, but for those that only exact numbers are computed from
which a comparison, the search of a list or a test for null looks at. -/
def WrittenAlike (s : Scope) (row : Row) : Expr → Expr → Prop
  | literal v, literal w => v.text = w.text
  | binary op l r, binary _ l' r' =>
    op.isComparison = true ∧ l.ExactOn s row ∧ r.ExactOn s row ∨
      WrittenAlike s row l l' ∧ WrittenAlike s row r r'
  | not x, not y | negate x, negate y | cast x _, cast y _ => WrittenAlike s row x y
  | isNull x _, isNull y _ => x.ExactOn s row ∨ WrittenAlike s row x y
  | inList x items _, inList y items' _ =>
    (x.ExactOn s row ∧ ∀ item ∈ items, item.ExactOn s row) ∨
      WrittenAlike s row x y ∧ EachWrittenAlike s row items items'
  | _, _ => True

def EachWrittenAlike (s : Scope) (row : Row) : List Expr → List Expr → Prop
  | x :: r, y :: q => WrittenAlike s row x y ∧ EachWrittenAlike s row r q
  | _, _ => True

end

/-- The same expressions have one shape, and the same parts. -/
inductive SameShape : Expr → Expr → Prop
  | literal {v w : Value} (same : v.same w = true) : SameShape (literal v) (literal w)
  | column (t : Option String) (n : String) : SameShape (column t n) (column t n)
  | binary (op : BinaryOp) {l l' r r' : Expr} (left : l.same l' = true) (right : r.same r' = true) :
      SameShape (binary op l r) (binary op l' r')
  | not {x y : Expr} (inside : x.same y = true) : SameShape (not x) (not y)
  | negate {x y : Expr} (inside : x.same y = true) : SameShape (negate x) (negate y)
  | isNull {x y : Expr} (inside : x.same y = true) (negated : Bool) :
      SameShape (isNull x negated) (isNull y negated)
  | inList {x y : Expr} {items items' : List Expr} (inside : x.same y = true)
      (each : sameArgs items items' = true) (negated : Bool) :
      SameShape (inList x items negated) (inList y items' negated)
  | cast {x y : Expr} (inside : x.same y = true) (type : DataType) : SameShape (cast x type) (cast y type)
  | call (name : String) {args args' : List Expr} (each : sameArgs args args' = true) :
      SameShape (call name args) (call name args')

theorem sameShape {x y : Expr} (same : x.same y = true) : SameShape x y := by
  cases x with
  | literal v =>
    cases y with
    | literal w => exact .literal same
    | _ => cases same
  | column t n =>
    cases y with
    | column t' n' =>
      obtain ⟨tables, names⟩ := Bool.and_eq_true_iff.1 same
      cases eq_of_beq tables
      cases eq_of_beq names
      exact .column t n
    | _ => cases same
  | binary op l r =>
    cases y with
    | binary op' l' r' =>
      obtain ⟨front, right⟩ := Bool.and_eq_true_iff.1 same
      obtain ⟨ops, left⟩ := Bool.and_eq_true_iff.1 front
      cases eq_of_beq ops
      exact .binary op left right
    | _ => cases same
  | not x =>
    cases y with
    | not y => exact .not same
    | _ => cases same
  | negate x =>
    cases y with
    | negate y => exact .negate same
    | _ => cases same
  | isNull x negated =>
    cases y with
    | isNull y negated' =>
      obtain ⟨inside, flags⟩ := Bool.and_eq_true_iff.1 same
      cases eq_of_beq flags
      exact .isNull inside negated
    | _ => cases same
  | inList x items negated =>
    cases y with
    | inList y items' negated' =>
      obtain ⟨front, flags⟩ := Bool.and_eq_true_iff.1 same
      obtain ⟨inside, each⟩ := Bool.and_eq_true_iff.1 front
      cases eq_of_beq flags
      exact .inList inside each negated
    | _ => cases same
  | cast x type =>
    cases y with
    | cast y type' =>
      obtain ⟨inside, types⟩ := Bool.and_eq_true_iff.1 same
      cases eq_of_beq types
      exact .cast inside type
    | _ => cases same
  | call name args =>
    cases y with
    | call name' args' =>
      obtain ⟨names, each⟩ := Bool.and_eq_true_iff.1 same
      cases eq_of_beq names
      exact .call name each
    | _ => cases same

/-- Exact computations on the same expressions have values that differ in scale at most, at whatever depths
they stand. -/
theorem near_valueAt (c : Collation) (s : Scope) (row : Row) : ∀ (x y : Expr) (depth depth' : Nat),
    x.same y = true → x.ExactOn s row →
      Related Value.Near (x.valueAt c.compare s row depth) (y.valueAt c.compare s row depth')
  | literal v, y, _, _, same, exact => by
    cases sameShape same with
    | literal same => exact .atDepth (.ok (Value.near_of_same exact same))
  | column t n, y, _, _, same, exact => by
    cases sameShape same with
    | column =>
      refine .atDepth ?_
      intro v w first second
      cases Except.ok.inj (first.symm.trans second)
      exact Value.near_self (exact v first)
  | binary op l r, y, depth, depth', same, exact => by
    cases sameShape same with
    | binary _ left right =>
      obtain ⟨computes, exactLeft, exactRight⟩ := exact
      have onLeft := near_valueAt c s row l _ (depth + 1) (depth' + 1) left exactLeft
      have onRight := near_valueAt c s row r _ (depth + 1) (depth' + 1) right exactRight
      refine .atDepth ?_
      cases op with
      | plus | minus | times =>
        exact onLeft.operands onRight fun near near' a b first second => near.arithmetic near' first second
      | _ => simp at computes
  | negate x, y, _, _, same, exact => by
    cases sameShape same with
    | negate inside =>
      refine .atDepth ((near_valueAt c s row x _ _ _ inside exact).bind ?_)
      intro v w near a b first second
      exact near.negated first second
  | cast x type, y, _, _, same, exact => by
    cases sameShape same with
    | cast inside =>
      refine .atDepth ((near_valueAt c s row x _ _ _ inside exact.2).bind ?_)
      intro v w near a b first second
      exact near.convert exact.1 (Value.convertOrFail_eq_ok.1 first) (Value.convertOrFail_eq_ok.1 second)
  | not _, _, _, _, _, exact | isNull .., _, _, _, _, exact | inList .., _, _, _, _, exact
  | call .., _, _, _, _, exact => exact.elim

theorem near_valuesAt (c : Collation) (s : Scope) (row : Row) (depth depth' : Nat) {xs ys : List Expr}
    (same : sameArgs xs ys = true) (exact : ∀ x ∈ xs, x.ExactOn s row) :
    List.Forall₂ (Related Value.Near) (valuesAt c.compare s row depth xs)
      (valuesAt c.compare s row depth' ys) := by
  induction xs generalizing ys with
  | nil =>
    cases ys with
    | nil => exact .nil
    | cons => cases same
  | cons x r ih =>
    cases ys with
    | nil => cases same
    | cons y q =>
      obtain ⟨first, others⟩ := Bool.and_eq_true_iff.1 same
      exact .cons (near_valueAt c s row x y _ _ first (exact x List.mem_cons_self))
        (ih others fun z hz => exact z (List.mem_cons_of_mem x hz))

mutual

/-- The same expressions, written alike, have values that are alike. -/
theorem alike_valueAt (c : Collation) (s : Scope) (row : Row) : ∀ (x y : Expr) (depth depth' : Nat),
    x.same y = true → x.WrittenAlike s row y →
      Related Value.Alike (x.valueAt c.compare s row depth) (y.valueAt c.compare s row depth')
  | literal v, y, _, _, same, written => by
    cases sameShape same with
    | literal same => exact .atDepth (.ok (Value.alike_of_text same written))
  | column t n, y, _, _, same, _ => by
    cases sameShape same with
    | column => exact .atDepth (.refl _)
  | binary op l r, y, depth, depth', same, written => by
    cases sameShape same with
    | binary _ left right =>
      rcases written with ⟨compares, exactLeft, exactRight⟩ | ⟨inLeft, inRight⟩
      · have onLeft := near_valueAt c s row l _ (depth + 1) (depth' + 1) left exactLeft
        have onRight := near_valueAt c s row r _ (depth + 1) (depth' + 1) right exactRight
        exact .atDepth (Related.comparison c.blind_near compares onLeft onRight).alike
      · exact .atDepth (.binary op (alike_valueAt c s row l _ _ _ left inLeft)
          (alike_valueAt c s row r _ _ _ right inRight))
  | not x, y, _, _, same, written => by
    cases sameShape same with
    | not inside =>
      refine .atDepth ((alike_valueAt c s row x _ _ _ inside written).bind ?_)
      intro v w like a b first second
      exact like.logicalNot first second
  | negate x, y, _, _, same, written => by
    cases sameShape same with
    | negate inside =>
      refine .atDepth ((alike_valueAt c s row x _ _ _ inside written).bind ?_)
      intro v w like a b first second
      exact like.negated first second
  | isNull x _, y, depth, depth', same, written => by
    cases sameShape same with
    | @isNull _ y inside =>
      have nulls : Related (fun v w => v.isNull = w.isNull) (x.valueAt c.compare s row (depth + 1))
          (y.valueAt c.compare s row (depth' + 1)) := by
        rcases written with exact | inside'
        · exact (near_valueAt c s row x y _ _ inside exact).mono fun _ _ near => near.isNull
        · exact (alike_valueAt c s row x y _ _ inside inside').mono fun _ _ like => like.isNull
      refine .atDepth (nulls.bind fun v w equal => ?_)
      rw [equal]
      exact .refl _
  | inList x items negated, y, _, _, same, written => by
    cases sameShape same with
    | inList inside each =>
      refine .atDepth (Related.alike ?_)
      rcases written with ⟨exact, exactItems⟩ | ⟨inOperand, inItems⟩
      · exact .inList c.blind_near negated (near_valueAt c s row x _ _ _ inside exact)
          (near_valuesAt c s row _ _ each exactItems)
      · exact .inList c.blind_alike negated (alike_valueAt c s row x _ _ _ inside inOperand)
          (alike_valuesAt c s row items _ _ _ each inItems)
  | cast x type, y, _, _, same, written => by
    cases sameShape same with
    | cast inside =>
      refine .atDepth ((alike_valueAt c s row x _ _ _ inside written).bind ?_)
      intro v w like a b first second
      exact like.convert (Value.convertOrFail_eq_ok.1 first) (Value.convertOrFail_eq_ok.1 second)
  | call name args, _, _, _, _, _ => fun _ _ none => nomatch none

theorem alike_valuesAt (c : Collation) (s : Scope) (row : Row) : ∀ (xs ys : List Expr) (depth depth' : Nat),
    sameArgs xs ys = true → EachWrittenAlike s row xs ys →
      List.Forall₂ (Related Value.Alike) (valuesAt c.compare s row depth xs)
        (valuesAt c.compare s row depth' ys)
  | [], [], _, _, _, _ => .nil
  | x :: r, y :: q, _, _, same, written => by
    obtain ⟨first, others⟩ := Bool.and_eq_true_iff.1 same
    exact .cons (alike_valueAt c s row x y _ _ first written.1)
      (alike_valuesAt c s row r q _ _ others written.2)
  | [], _ :: _, _, _, same, _ | _ :: _, [], _, _, same, _ => nomatch same

end

mutual

theorem isCallFree_of_same : ∀ x y : Expr, x.same y = true → y.isCallFree = true → x.isCallFree = true
  | literal _, _, _, _ | column .., _, _, _ => rfl
  | binary op l r, y, same, free => by
    cases sameShape same with
    | binary _ left right =>
      obtain ⟨freeLeft, freeRight⟩ := Bool.and_eq_true_iff.1 free
      exact Bool.and_eq_true_iff.2
        ⟨isCallFree_of_same l _ left freeLeft, isCallFree_of_same r _ right freeRight⟩
  | not x, y, same, free => by
    cases sameShape same with
    | not inside => exact isCallFree_of_same x _ inside free
  | negate x, y, same, free => by
    cases sameShape same with
    | negate inside => exact isCallFree_of_same x _ inside free
  | isNull x _, y, same, free => by
    cases sameShape same with
    | isNull inside => exact isCallFree_of_same x _ inside free
  | cast x _, y, same, free => by
    cases sameShape same with
    | cast inside => exact isCallFree_of_same x _ inside free
  | inList x items _, y, same, free => by
    cases sameShape same with
    | inList inside each =>
      obtain ⟨freeLeft, freeItems⟩ := Bool.and_eq_true_iff.1 free
      exact Bool.and_eq_true_iff.2
        ⟨isCallFree_of_same x _ inside freeLeft, allCallFree_of_same items _ each freeItems⟩
  | call _ _, y, same, free => by
    cases sameShape same with
    | call => cases free

theorem allCallFree_of_same :
    ∀ xs ys : List Expr, sameArgs xs ys = true → allCallFree ys = true → allCallFree xs = true
  | [], _, _, _ => rfl
  | x :: r, y :: q, same, free => by
    obtain ⟨first, others⟩ := Bool.and_eq_true_iff.1 same
    obtain ⟨freeFirst, freeOthers⟩ := Bool.and_eq_true_iff.1 free
    exact Bool.and_eq_true_iff.2 ⟨isCallFree_of_same x y first freeFirst,
      allCallFree_of_same r q others freeOthers⟩
  | _ :: _, [], same, _ => nomatch same

end

section matched

variable {c : Collation} {s : Scope} {row : Row} {x y side : Expr} {depth depth' : Nat}

theorem same_or_columns (h : x.sameColumn y = true) : x.same y = true ∨
    ∃ t n t' n', x = column t n ∧ y = column t' n' ∧ Text.sameName n n' = true := by
  cases x with
  | column t n =>
    obtain ⟨t', n', found, names⟩ := column_of_sameColumn h
    exact .inr ⟨t, n, t', n', rfl, found, names⟩
  | _ => exact .inl h

/-- Columns of one name that both have values have one. -/
theorem column_unique {t t' : Option String} {n n' : String} (names : Text.sameName n n' = true) :
    Related Eq (s.column row t n) (s.column row t' n') := by
  intro v w first second
  obtain ⟨i, known, _⟩ := bind_eq_ok.1 second
  exact Except.ok.inj ((column_eq_of_sameName names known first).symm.trans second)

theorem matched_near (same : x.sameColumn y = true) (exact : x.ExactOn s row) :
    Related Value.Near (x.valueAt c.compare s row depth) (y.valueAt c.compare s row depth') := by
  rcases same_or_columns same with same | ⟨t, n, t', n', rfl, rfl, names⟩
  · exact near_valueAt c s row x y depth depth' same exact
  · refine .atDepth ?_
    intro v w first second
    cases column_unique names v w first second
    exact Value.near_self (exact v first)

theorem matched_alike (same : x.sameColumn y = true) (written : x.WrittenAlike s row y) :
    Related Value.Alike (x.valueAt c.compare s row depth) (y.valueAt c.compare s row depth') := by
  rcases same_or_columns same with same | ⟨t, n, t', n', rfl, rfl, names⟩
  · exact alike_valueAt c s row x y depth depth' same written
  · exact .atDepth (column_unique names).alike

theorem isCallFree_of_sameColumn (same : x.sameColumn y = true) (free : y.isCallFree = true) :
    x.isCallFree = true := by
  rcases same_or_columns same with same | ⟨t, n, t', n', rfl, rfl, _⟩
  · exact isCallFree_of_same x y same free
  · rfl

theorem sameColumn_of_matched {m : Membership} {k : Expr} (merges : m.mergeable? x = some k)
    (matched : x.matched? m.left = some side) : side.sameColumn m.left = true := by
  obtain ⟨_, equals, _⟩ := mergeable?_eq_some.1 merges
  obtain ⟨side', matched', same, _⟩ := ifEquals?_cases equals
  cases Option.some.inj (matched.symm.trans matched')
  exact same

end matched

/-- A scope over one text column. -/
def textScope : Scope := { session := 1, schema := ⟨"T", [⟨"A", .anyVarchar, true⟩]⟩ }

/-- The column with the text of a literal behind it. -/
def suffixed (v : Value) : Expr := .binary .concat (.column none "A") (.literal v)

def suffixedListed (v : Value) : Expr :=
  .inList (suffixed v) [.literal (.varchar "p"), .literal (.varchar "q")] false

def suffixedIs (v : Value) (k : String) : Expr := .binary .equal (suffixed v) (.literal (.varchar k))

/-- An equality with the other value has the same result for both, on either side. -/
def TestedAlike (cmp : Value → Value → Ordering) (q u u' : Value) : Prop :=
  Related Eq (Value.compareBy cmp .equal u q) (Value.compareBy cmp .equal u' q) ∧
    Related Eq (Value.compareBy cmp .equal q u) (Value.compareBy cmp .equal q u')

theorem testedAlike_of_blind {c : Collation} {R : Value → Value → Prop} {q u u' : Value}
    (blind : c.Blind R) (self : R q q) (related : R u u') : TestedAlike c.compare q u u' :=
  ⟨.compareBy .equal blind related self, .compareBy .equal blind self related⟩

section suffixed

variable {v w : Value}

theorem present_of_text_ne (same : v.same w = true) (differ : v.text ≠ w.text) :
    v.isNull = false ∧ w.isNull = false := by
  cases Value.sameCases same with
  | one => exact absurd rfl differ
  | decimals | reals | doubles | arrays | resultSets => exact ⟨rfl, rfl⟩

theorem fst_suffixed (present : v.isNull = false) (a : String) (e : Engine) :
    (((suffixed v).eval textScope [.varchar a]).outcome e).1 = .ok (.varchar (a ++ v.text)) := by
  rw [fst_eval rfl]
  change Except.ok (Value.concatenated (.varchar a) v) = _
  simp only [Value.concatenated, present]
  rfl

/-- A test with one of two equal literals takes in the equality with the other one. -/
theorem absorbs_suffixed (cmp : Value → Value → Ordering) (same : v.same w = true) (k : String) : ∃ m,
    Absorbs cmp true textScope (suffixedListed w) (suffixedIs v k) m (suffixedIs v k)
        (.literal (.varchar k)) ∧
      (suffixedIs v k).matched? m.left = some (suffixed v) ∧ m.left = suffixed w := by
  have matches' : (suffixed v).sameColumn (suffixed w) = true := by
    simp [suffixed, sameColumn, Expr.same, same]
  exact ⟨_, ⟨rfl, ⟨_, _, rfl, rfl, rfl⟩, mergeable?_eq_some.2 ⟨⟨rfl, rfl⟩, if_pos matches', rfl⟩⟩,
    if_pos matches', rfl⟩

theorem compare_varchar_ne {c : Collation} {s t : String} (cased : c.ignoreCase = false) (differ : s ≠ t) :
    c.compare (.varchar s) (.varchar t) ≠ .eq := by
  intro equal
  rw [Collation.compare_texts _ rfl rfl, Collation.compareText, if_neg (by rw [cased]; decide)] at equal
  have letter (a b : Char) : compare a.toNat b.toNat = .eq ↔ a = b := by
    rw [Nat.compare_eq_eq, Char.toNat_inj]
  exact differ (String.toList_injective ((Text.compareLists_eq_iff letter _ _).1 equal))

end suffixed

/-- The operand of a test and the side of an equality that it takes in compare equal wherever both have a
value, if only exact numbers are computed or the literals of both are written alike. Of any equal literals
that are not, operands can be made that a test takes for one although their values are never equal. -/
theorem matched_operands_equal {c : Collation} {e : Engine} (order : e.compare = c.compare) :
    (∀ (m : Membership) (x k side : Expr) (s : Scope) (row : Row) (depth depth' : Nat) (u u' : Value),
      m.mergeable? x = some k → x.matched? m.left = some side → m.left.isCallFree = true →
      side.ExactOn s row ∨ side.WrittenAlike s row m.left →
      ((side.evalAt s row depth).outcome e).1 = .ok u →
      ((m.left.evalAt s row depth').outcome e).1 = .ok u' →
      e.compare u u' = .eq ∧
        ∀ q, side.WrittenAlike s row m.left ∨ q.isExactOrNull = true → TestedAlike e.compare q u u') ∧
    (c.ignoreCase = false → ∀ v w : Value, v.same w = true → v.text ≠ w.text → ∀ k : String, ∃ m,
      Absorbs e.compare true textScope (suffixedListed w) (suffixedIs v k) m (suffixedIs v k)
          (.literal (.varchar k)) ∧
        (suffixedIs v k).matched? m.left = some (suffixed v) ∧ m.left = suffixed w ∧
        ∀ a : String, ∃ u u',
          (((suffixed v).eval textScope [.varchar a]).outcome e).1 = .ok u ∧
          (((suffixed w).eval textScope [.varchar a]).outcome e).1 = .ok u' ∧
          e.compare u u' ≠ .eq) := by
  constructor
  · intro m x k side s row depth depth' u u' merges matched free shown value value'
    have same := sameColumn_of_matched merges matched
    rw [side.evalAt_computes c.compare s row depth (isCallFree_of_sameColumn same free) e order] at value
    rw [m.left.evalAt_computes c.compare s row depth' free e order] at value'
    have near (exact : side.ExactOn s row) : u.Near u' := matched_near same exact u u' value value'
    have alike (written : side.WrittenAlike s row m.left) : u.Alike u' :=
      matched_alike same written u u' value value'
    rw [order]
    constructor
    · rcases shown with exact | written
      · exact Collation.compare_of_near (near exact)
      · exact Collation.compare_of_alike (alike written)
    · intro q tested
      rcases tested with written | number
      · exact testedAlike_of_blind c.blind_alike (.refl q) (alike written)
      · rcases shown with exact | written
        · exact testedAlike_of_blind c.blind_near (Value.near_self number) (near exact)
        · exact testedAlike_of_blind c.blind_alike (.refl q) (alike written)
  · intro cased v w same differ k
    rw [order]
    obtain ⟨m, absorbs, matched, left⟩ := absorbs_suffixed c.compare same k
    refine ⟨m, absorbs, matched, left, ?_⟩
    intro a
    obtain ⟨presentLeft, presentRight⟩ := present_of_text_ne same differ
    refine ⟨_, _, fst_suffixed presentLeft a e, fst_suffixed presentRight a e, ?_⟩
    refine compare_varchar_ne cased ?_
    intro texts
    exact differ ((String.append_right_inj a).1 texts)

/-- A sum over an integer column is one number whichever way one is written in it. -/
theorem matched_operands_equal_sums :
    let side := Expr.binary .plus (.column none "A") (.literal (.decimal ⟨false, 100, 2, by decide, by decide⟩))
    let operand := Expr.binary .plus (.column none "A") (.literal (.decimal ⟨false, 10, 1, by decide, by decide⟩))
    let m : Membership := ⟨operand, .anyDecimal, false, false, [], {}, false⟩
    let x := Expr.binary .equal side (.literal (.integer 4))
    let u : Value := .decimal ⟨false, 400, 2, by decide, by decide⟩
    let u' : Value := .decimal ⟨false, 40, 1, by decide, by decide⟩
    m.mergeable? x = some (.literal (.integer 4)) ∧ x.matched? m.left = some side ∧ m.left.isCallFree = true ∧
      side.ExactOn integerScope [.integer 3] ∧
      ((side.evalAt integerScope [.integer 3] 1).outcome {}).1 = .ok u ∧
      ((m.left.evalAt integerScope [.integer 3] 0).outcome {}).1 = .ok u' ∧
      Collation.compare {} u u' = .eq := by
  intro side operand m x u u'
  have exact : side.ExactOn integerScope [.integer 3] := by
    refine ⟨by decide, ?_, rfl⟩
    intro v found
    cases found
    rfl
  have value : ((side.evalAt integerScope [.integer 3] 1).outcome {}).1 = .ok u := by
    with_unfolding_all rfl
  have value' : ((m.left.evalAt integerScope [.integer 3] 0).outcome {}).1 = .ok u' := by
    with_unfolding_all rfl
  have matched := matched_operands_equal (c := {}) (e := {}) rfl
  have equal := matched.1 m x _ side integerScope [.integer 3] 1 0 u u' rfl rfl rfl (.inl exact) value
    value'
  exact ⟨rfl, rfl, rfl, exact, value, value', equal.1⟩

/-- A test with `A || 1.0` takes in the equality `A || 1.00 = 'x1.00'`, and on `x` it misses then what the
equality matches. -/
theorem matched_operands_differ :
    let v : Value := .decimal ⟨false, 100, 2, by decide, by decide⟩
    let w : Value := .decimal ⟨false, 10, 1, by decide, by decide⟩
    let x := suffixedIs v "x1.00"
    let disjunction := Expr.binary .or (suffixedListed w) x
    ∃ m cond,
      Absorbs (Collation.compare {}) true textScope (suffixedListed w) x m x
        (.literal (.varchar "x1.00")) ∧
      x.matched? m.left = some (suffixed v) ∧ m.left.isCallFree = true ∧
      (((suffixed v).eval textScope [.varchar "x"]).outcome {}).1 = .ok (.varchar "x1.00") ∧
      ((m.left.eval textScope [.varchar "x"]).outcome {}).1 = .ok (.varchar "x1.0") ∧
      Collation.compare {} (.varchar "x1.00") (.varchar "x1.0") ≠ .eq ∧
      ((disjunction.eval textScope [.varchar "x"]).outcome {}).1 = .ok (.boolean true) ∧
      ((ofExpr textScope disjunction).outcome {}).1 = .ok cond ∧
      ((cond.evaluate textScope [.varchar "x"]).outcome {}).1 = .ok (.boolean false) := by
  dsimp only
  refine ⟨_, _, ⟨rfl, ⟨_, _, rfl, rfl, rfl⟩, rfl⟩, rfl, rfl, ?_, ?_, ?_, ?_, rfl, ?_⟩
  · with_unfolding_all rfl
  · with_unfolding_all rfl
  · decide
  · with_unfolding_all rfl
  · with_unfolding_all rfl

end Expr

end SqlEngine
