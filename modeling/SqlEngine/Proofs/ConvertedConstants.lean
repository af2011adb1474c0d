import SqlEngine.Proofs.EqualityMerging
import SqlEngine.Proofs.MembershipHistory

/-!
# Constants in the type of their column

A list of constants is searched for the value of a column with the constants as they were written, and
tested for it with the constants in the type of the column. The two have one answer exactly where
conversion has turned no miss into a match and no match into a miss, and, in arrays, nulls mean the same.
-/

namespace SqlEngine

namespace Answers

variable {negated : Bool} {F F' N N' : Prop} {r r' : Value}

theorem eq_null_iff (h : Answers negated F N r) : r = .null ↔ ¬ F ∧ N := by
  by_cases found : F
  · rw [h.hit found]
    exact ⟨nofun, fun missed => absurd found missed.1⟩
  · by_cases mayBe : N
    · exact ⟨fun _ => ⟨found, mayBe⟩, fun _ => h.leftOpen found mayBe⟩
    · rw [h.miss found mayBe]
      exact ⟨nofun, fun missed => absurd missed.2 mayBe⟩

theorem eq_hit_iff (h : Answers negated F N r) : r = .boolean (!negated) ↔ F := by
  by_cases found : F
  · exact ⟨fun _ => found, fun _ => h.hit found⟩
  · by_cases mayBe : N
    · rw [h.leftOpen found mayBe]
      exact ⟨nofun, fun hit => absurd hit found⟩
    · rw [h.miss found mayBe]
      cases negated <;> exact ⟨nofun, fun hit => absurd hit found⟩

/-- Two answers are the same if they go by the same match and, without one, by the same doubt. -/
theorem eq_iff (h : Answers negated F N r) (h' : Answers negated F' N' r') :
    r = r' ↔ (F ↔ F') ∧ (¬ F → (N ↔ N')) := by
  constructor
  · rintro rfl
    have found : F ↔ F' := h.eq_hit_iff.symm.trans h'.eq_hit_iff
    refine ⟨found, fun missed => ?_⟩
    have unknown := h.eq_null_iff.symm.trans h'.eq_null_iff
    exact ⟨fun n => (unknown.1 ⟨missed, n⟩).2, fun n => (unknown.2 ⟨mt found.2 missed, n⟩).2⟩
  · rintro ⟨found, mayBe⟩
    by_cases hit : F
    · rw [h.hit hit, h'.hit (found.1 hit)]
    · by_cases doubt : N
      · rw [h.leftOpen hit doubt, h'.leftOpen (mt found.2 hit) ((mayBe hit).1 doubt)]
      · rw [h.miss hit doubt, h'.miss (mt found.2 hit) (mt (mayBe hit).2 doubt)]

end Answers

namespace Expr

variable (cmp : Value → Value → Ordering) (session : Nat)

/-- The constant equals the value as it was written. -/
def MatchesWritten (v : Value) (k : Expr) : Prop :=
  ∃ a, k.valueAt cmp (.constants session) [] 0 = .ok a ∧
    Value.compareBy cmp .equal v a = .ok (.boolean true)

def NullWritten (k : Expr) : Prop :=
  ∃ a, k.valueAt cmp (.constants session) [] 0 = .ok a ∧ a.isNull = true

/-- The constant equals the value once it is in the type. -/
def MatchesIn (type : DataType) (v : Value) (k : Expr) : Prop :=
  ∃ w, k.constantIn cmp session type = .ok w ∧ w.containsNull = false ∧ cmp w v = .eq

def NullIn (type : DataType) (k : Expr) : Prop :=
  ∃ w, k.constantIn cmp session type = .ok w ∧ w.containsNull = true

variable {cmp session} {s : Scope} {row : Row} {v r : Value} {ks : List Expr} {negated : Bool}

/-- A search that ends well goes by the constants as they were written, up to the first match. -/
theorem answers_search (constant : ∀ k ∈ ks, k.isConstant = true)
    (each : ∀ k ∈ ks, ∃ a, k.valueAt cmp (.constants session) [] 0 = .ok a) {depth : Nat} (sawNull : Bool)
    (h : Outcome.search cmp negated v sawNull (valuesAt cmp s row depth ks) = .ok r) :
    Answers negated (∃ k ∈ ks, k.MatchesWritten cmp session v)
      (sawNull = true ∨ ∃ k ∈ ks, k.NullWritten cmp session) r := by
  induction ks generalizing sawNull with
  | nil =>
    cases pure_eq_ok.1 h
    cases sawNull with
    | true => exact ⟨nofun, fun _ _ => rfl, fun _ none => absurd (.inl rfl) none⟩
    | false => exact ⟨nofun, fun _ some => by simp at some, fun _ _ => rfl⟩
  | cons k rest ih =>
    have onRest := ih (fun x hx => constant x (List.mem_cons_of_mem k hx))
      (fun x hx => each x (List.mem_cons_of_mem k hx))
    obtain ⟨a, found, next⟩ := bind_eq_ok.1 h
    obtain ⟨a', alone⟩ := each k List.mem_cons_self
    obtain rfl := constant_unique (constant k List.mem_cons_self) found alone
    have written (b : Value) (hb : k.valueAt cmp (.constants session) [] 0 = .ok b) : b = a :=
      Except.ok.inj (hb.symm.trans alone)
    simp only [List.exists_mem_cons_iff]
    cases null : a.isNull with
    | true =>
      rw [if_pos null] at next
      have noMatch : ¬ k.MatchesWritten cmp session v := by
        rintro ⟨b, hb, compared⟩
        rw [written b hb, Value.compareBy_of_null (.inr null)] at compared
        cases compared
      have isNull : k.NullWritten cmp session := ⟨a, alone, null⟩
      exact (onRest true next).congr (by simp [noMatch]) (by simp [isNull])
    | false =>
      rw [if_neg (by simp [null])] at next
      have notNull : ¬ k.NullWritten cmp session := by
        rintro ⟨b, hb, isNull⟩
        rw [written b hb, null] at isNull
        cases isNull
      obtain ⟨q, compared, next⟩ := bind_eq_ok.1 next
      by_cases same : q.same (.boolean true) = true
      · rw [if_pos same] at next
        obtain rfl := Value.eq_boolean_of_same same
        -- What stands behind the match is not looked at, and may not even compare with the value.
        have hit : k.MatchesWritten cmp session v := ⟨a, alone, compared⟩
        refine ⟨fun _ => (pure_eq_ok.1 next).symm, fun missed => ?_, fun missed => ?_⟩
        · exact absurd (.inl hit) missed
        · exact absurd (.inl hit) missed
      · rw [if_neg same] at next
        have noMatch : ¬ k.MatchesWritten cmp session v := by
          rintro ⟨b, hb, matched⟩
          rw [written b hb, compared] at matched
          cases matched
          exact same rfl
        exact (onRest sawNull next).congr (by simp [noMatch]) (by simp [notNull])

end Expr

namespace Membership

variable {cmp : Value → Value → Ordering} {s : Scope} {m : Membership} {ws : List Value} {v : Value}

/-- Rows that the schema gives a value of the column have it for the operand, and its type is that of the
test. -/
theorem Planned.column_value {row : Row} {t : Option String} {n : String} {i : Nat} {info : Column}
    (planned : m.Planned cmp s) (operand : m.left = .column t n) (place : s.schema.indexOf? n = some i)
    (column : s.schema.columns[i]? = some info) (item : row[i]? = some v) :
    info.type = m.leftType ∧ s.column row t n = .ok v := by
  have type := planned.type t n operand
  change (s.columnIndex t n).toOption.bind _ = some m.leftType at type
  cases index : s.columnIndex t n with
  | error x =>
    rw [index] at type
    cases type
  | ok j =>
    obtain ⟨own, known⟩ := Expr.columnIndex_eq_ok.1 index
    cases place.symm.trans known
    rw [index] at type
    change s.schema.columns[i]?.map (·.type) = some m.leftType at type
    rw [column] at type
    refine ⟨Option.some.inj type, bind_eq_ok.2 ⟨i, index, ?_⟩⟩
    rw [item]
    rfl

/-- What can be said of the values of constants one by one can be said of the constants. -/
theorem exists_constant_iff {session : Nat} {Q : Value → Prop}
    (h : Reached cmp (Fixed cmp session) m ws) :
    (∃ w ∈ ws, Q w) ↔ ∃ k ∈ m.constants, ∃ w, k.constantIn cmp session m.leftType = .ok w ∧ Q w := by
  have values := h.values
  clear h
  generalize m.constants = ks at values
  induction values with
  | nil => simp
  | @cons k w ks ws first _ ih =>
    have only : (∃ u, k.constantIn cmp session m.leftType = .ok u ∧ Q u) ↔ Q w := by
      rw [first.2]
      simp
    simp only [List.exists_mem_cons_iff, ih, only]

theorem hasNull_iff_nullIn {session : Nat} (h : Reached cmp (Fixed cmp session) m ws) :
    m.hasNull = true ↔ ∃ k ∈ m.constants, k.NullIn cmp session m.leftType :=
  h.hasNull_iff.trans (exists_constant_iff h)

/-- The set is searched with success for what a constant in the type equals, if all are ordered. -/
theorem contains_iff_matchesIn {session : Nat} {P : Value → Prop} (order : OrderedOn P cmp)
    (h : Reached cmp (Fixed cmp session) m ws) (inside : ∀ w ∈ ws, w.containsNull = false → P w)
    (hv : P v) :
    m.set.contains cmp v = true ↔ ∃ k ∈ m.constants, k.MatchesIn cmp session m.leftType v :=
  (h.contains_iff order inside hv).trans (exists_constant_iff h)

theorem ofType_values {session : Nat} (h : Reached cmp (Fixed cmp session) m ws) :
    ∀ w ∈ ws, w.containsNull = false → Value.OfType m.leftType w := by
  intro w hw present
  obtain ⟨k, _, _, gives⟩ := h.exists_constant w hw
  exact Expr.ofType_constantIn gives present

end Membership

namespace Condition

open Value

variable {cmp : Value → Value → Ordering} {s : Scope} {row : Row} {m : Membership} {t : Option String}
  {n : String}
  {ks : List Expr} {negated : Bool} {type : DataType} {v r r' : Value}

/-- The constants have the same say on the value as they were written and in the type. `found` is whether
the converted ones were searched with success. -/
def SameSay (cmp : Value → Value → Ordering) (session : Nat) (type : DataType) (ks : List Expr)
    (v : Value) (found : Prop) : Prop :=
  v.isNull = true ∨
    (v.containsNull = false ∧ (found ↔ ∃ k ∈ ks, k.MatchesWritten cmp session v) ∧
      (¬ found → ((∃ k ∈ ks, k.NullIn cmp session type) ↔ ∃ k ∈ ks, k.NullWritten cmp session))) ∨
    (v.isNull = false ∧ v.containsNull = true ∧ (¬ ∃ k ∈ ks, k.MatchesWritten cmp session v) ∧
      ∃ k ∈ ks, k.NullWritten cmp session)

/-- The test of a list over a column, and the constants that it was made of. -/
theorem test_of_list {e f : Engine}
    (built : (ofExpr s (.inList (.column t n) ks negated)).outcome e = (.ok (member m), f)) :
    (m.left = .column t n ∧ m.negated = negated ∧ m.constants = ks ∧ Expr.allConstant ks = true) ∧
      m.Planned e.compare s := by
  have planned := (planned_ofExpr s _ built).2 m List.mem_cons_self
  have constant : Expr.allConstant ks = true := by
    rw [ofExpr] at built
    split at built
    · next listed => exact listed.2
    · cases built
  have free : (Expr.inList (.column t n) ks negated).isCallFree = true :=
    Expr.allCallFree_of_allConstant ks constant
  have plan := fst_ofExpr (s := s) free e
  rw [built] at plan
  rcases plan_inList rfl plan.symm with ⟨m', test, left, opposite, listed, _⟩ | written
  · cases test
    exact ⟨⟨left, opposite, listed, constant⟩, planned⟩
  · cases written

theorem answer_of_test (operand : m.left = .column t n) (value : s.column row t n = .ok v)
    (test : (member m).valueIn cmp s row = .ok r) : r = m.evaluate cmp v := by
  obtain ⟨u, left, rfl⟩ := valueIn_member_eq_ok.1 test
  rw [operand] at left
  have inside := Outcome.atDepth_refines s 0 _ u left
  rw [value] at inside
  cases inside
  rfl

theorem answer_of_search (value : s.column row t n = .ok v)
    (search : (Expr.inList (.column t n) ks negated).valueAt cmp s row 0 = .ok r') :
    (v.isNull = true ∧ r' = .null) ∨ (v.isNull = false ∧
      Outcome.search cmp negated v false (Expr.valuesAt cmp s row 1 ks) = .ok r') := by
  have inside := Outcome.atDepth_refines s 0 _ r' search
  obtain ⟨u, left, rest⟩ := bind_eq_ok.1 inside
  have column := Outcome.atDepth_refines s 1 _ u left
  rw [value] at column
  cases column
  cases null : v.isNull with
  | true =>
    rw [if_pos null] at rest
    exact .inl ⟨rfl, (pure_eq_ok.1 rest).symm⟩
  | false =>
    rw [if_neg (by simp [null])] at rest
    exact .inr ⟨rfl, rest⟩

theorem answers_agree_iff {ws : List Value} (operand : m.left = .column t n)
    (constant : Expr.allConstant m.constants = true)
    (history : Membership.Reached cmp (Membership.Fixed cmp s.session) m ws)
    (value : s.column row t n = .ok v) (test : (member m).valueIn cmp s row = .ok r)
    (search : (Expr.inList (.column t n) m.constants m.negated).valueAt cmp s row 0 = .ok r') :
    r = r' ↔ SameSay cmp s.session m.leftType m.constants v (m.set.contains cmp v = true) := by
  obtain rfl := answer_of_test operand value test
  have each (k : Expr) (hk : k ∈ m.constants) :
      ∃ a, k.valueAt cmp (.constants s.session) [] 0 = .ok a := by
    obtain ⟨w, _, _, gives⟩ := history.exists_value k hk
    obtain ⟨a, alone, _⟩ := Expr.constantIn_eq_ok.1 gives
    exact ⟨a, alone⟩
  rcases answer_of_search value search with ⟨null, rfl⟩ | ⟨notNull, found⟩
  · obtain rfl := eq_null_of_isNull null
    exact ⟨fun _ => .inl rfl, fun _ => rfl⟩
  · have written : Answers m.negated (∃ k ∈ m.constants, k.MatchesWritten cmp s.session v)
        (∃ k ∈ m.constants, k.NullWritten cmp s.session) r' := by
      have search := Expr.answers_search ((Expr.allConstant_iff _).1 constant) each false found
      exact search.congr .rfl ⟨fun null => null.resolve_left nofun, .inr⟩
    cases whole : v.containsNull with
    | true =>
      have unknown : m.evaluate cmp v = .null := by rw [Membership.evaluate, if_pos whole]
      rw [unknown, eq_comm, written.eq_null_iff]
      constructor
      · rintro ⟨missed, null⟩
        exact .inr (.inr ⟨notNull, whole, missed, null⟩)
      · rintro (null | ⟨present, _⟩ | ⟨_, _, missed, null⟩)
        · exact absurd null (by simp [notNull])
        · exact absurd present (by simp [whole])
        · exact ⟨missed, null⟩
    | false =>
      have tested := (m.answers_evaluate cmp whole).congr .rfl
        (Membership.hasNull_iff_nullIn history)
      rw [tested.eq_iff written]
      constructor
      · intro same
        exact .inr (.inl ⟨whole, same⟩)
      · rintro (null | ⟨_, same⟩ | ⟨_, inside, _⟩)
        · exact absurd null (by simp [notNull])
        · exact same
        · exact absurd inside (by simp [whole])

section scalars

theorem nullIn_iff {session : Nat} {k : Expr} {w : Value} (scalar : type ≠ .array)
    (gives : k.constantIn cmp session type = .ok w) :
    k.NullIn cmp session type ↔ k.NullWritten cmp session := by
  obtain ⟨a, alone, converted⟩ := Expr.constantIn_eq_ok.1 gives
  have null : w.containsNull = a.isNull :=
    (containsNull_of_hasType scalar (hasType_convert converted)).trans (isNull_convert converted)
  have inType : k.NullIn cmp session type ↔ w.containsNull = true := by
    simp [Expr.NullIn, gives]
  have written : k.NullWritten cmp session ↔ a.isNull = true := by
    simp [Expr.NullWritten, alone]
  rw [inType, written, null]

/-- A constant that survives conversion equals the value in the type if it does so as it was written. -/
theorem matchesIn_iff {session : Nat} {k : Expr} {w : Value} (orders : OrdersTypes cmp)
    (scalar : type ≠ .array)
    (typed : v.HasType type) (present : v.isNull = false) (gives : k.constantIn cmp session type = .ok w)
    (survives : k.Survives cmp session type) :
    k.MatchesIn cmp session type v ↔ k.MatchesWritten cmp session v := by
  obtain ⟨a, alone, converted⟩ := Expr.constantIn_eq_ok.1 gives
  have like := (comparesLike_of_kept orders scalar typed converted (survives a w alone converted)).1
  have whole : v.containsNull = false := (containsNull_of_hasType scalar typed).trans present
  have inType : k.MatchesIn cmp session type v ↔ w.containsNull = false ∧ cmp w v = .eq := by
    simp [Expr.MatchesIn, gives]
  have written : k.MatchesWritten cmp session v ↔ (equality cmp w v).toValue = .boolean true := by
    simp [Expr.MatchesWritten, alone, like.equal]
  rw [inType, written]
  cases null : w.containsNull with
  | true =>
    rw [equality_of_null null]
    simp [Truth.toValue]
  | false =>
    rw [equality_of_present null whole]
    cases cmp w v <;> simp [Truth.ofBool, Truth.toValue]

/-- For scalars nulls mean the same in any case, so that only matches count. -/
theorem sameSay_scalar {session : Nat} {found : Prop} (scalar : type ≠ .array) (typed : v.HasType type)
    (each : ∀ k ∈ ks, ∃ w, k.constantIn cmp session type = .ok w) :
    SameSay cmp session type ks v found ↔
      v.isNull = true ∨ (found ↔ ∃ k ∈ ks, k.MatchesWritten cmp session v) := by
  have whole := containsNull_of_hasType scalar typed
  have nulls : (∃ k ∈ ks, k.NullIn cmp session type) ↔ ∃ k ∈ ks, k.NullWritten cmp session := by
    refine exists_congr fun k => and_congr_right fun hk => ?_
    obtain ⟨w, gives⟩ := each k hk
    exact nullIn_iff scalar gives
  simp only [SameSay]
  rw [whole, nulls]
  constructor
  · rintro (null | ⟨_, same, _⟩ | ⟨present, null, _⟩)
    · exact .inl null
    · exact .inr same
    · exact .inl null
  · rintro (null | same)
    · exact .inl null
    · cases null : v.isNull with
      | true => exact .inl rfl
      | false => exact .inr (.inl ⟨rfl, same, fun _ => .rfl⟩)

end scalars

/-- Conversion of the constants keeps the answer to a value of the column exactly if they have the same
say on it; for scalars, where those of one type are ordered, if one of them equals it in the type exactly
if one does as it was written, as when all of them survive the conversion. -/
theorem conversion_keeps_answer_iff {s : Scope} {t : Option String} {n : String} {ks : List Expr}
    {negated : Bool} {m : Membership} {i : Nat} {info : Column} {row : Row} {v r r' : Value}
    {e f g : Engine}
    (built : (ofExpr s (.inList (.column t n) ks negated)).outcome e = (.ok (member m), f))
    (place : s.schema.indexOf? n = some i) (column : s.schema.columns[i]? = some info)
    (item : row[i]? = some v) (typed : v.HasType info.type) (comparison : g.compare = e.compare)
    (test : (((member m).evaluate s row).outcome g).1 = .ok r)
    (search : (((Expr.inList (.column t n) ks negated).eval s row).outcome g).1 = .ok r') :
    (r = r' ↔ SameSay e.compare s.session info.type ks v
        (m.set.contains e.compare v = true)) ∧
      (OrdersTypes e.compare → info.type ≠ .array →
        (r = r' ↔ v.isNull = true ∨
          ((∃ k ∈ ks, k.MatchesIn e.compare s.session info.type v) ↔
            ∃ k ∈ ks, k.MatchesWritten e.compare s.session v)) ∧
        ((∀ k ∈ ks, k.Survives e.compare s.session info.type) → r = r')) := by
  obtain ⟨⟨operand, rfl, rfl, constant⟩, planned⟩ := test_of_list built
  obtain ⟨ws, history⟩ := planned.history
  obtain ⟨type, value⟩ := planned.column_value operand place column item
  have free : (member m).isCallFree = true := by
    change m.left.isCallFree = true
    rw [operand]
    rfl
  have freeList : (Expr.inList (.column t n) m.constants m.negated).isCallFree = true :=
    Expr.allCallFree_of_allConstant m.constants constant
  rw [fst_evaluate free, comparison] at test
  rw [fst_eval freeList, comparison] at search
  have agree := answers_agree_iff operand constant history value test search
  rw [← type] at agree
  refine ⟨agree, fun orders scalar => ?_⟩
  have each (k : Expr) (hk : k ∈ m.constants) :
      ∃ w, k.constantIn e.compare s.session info.type = .ok w := by
    obtain ⟨w, _, _, gives⟩ := history.exists_value k hk
    exact ⟨w, type ▸ gives⟩
  rw [sameSay_scalar scalar typed each] at agree
  cases null : v.isNull with
  | true =>
    have same := agree.2 (.inl null)
    exact ⟨⟨fun _ => .inl rfl, fun _ => same⟩, fun _ => same⟩
  | false =>
    have present : OfType m.leftType v := by
      rw [← type]
      exact ofType_of_present typed ((containsNull_of_hasType scalar typed).trans null)
    have order := orders.orderedOn_type (t := m.leftType) (type ▸ scalar)
    have contains := Membership.contains_iff_matchesIn order history (Membership.ofType_values history)
      present
    rw [contains, ← type, null] at agree
    refine ⟨agree, fun survive => agree.2 (.inr (exists_congr fun k => and_congr_right fun hk => ?_))⟩
    obtain ⟨w, gives⟩ := each k hk
    exact matchesIn_iff orders scalar typed null gives (survive k hk)

/-- `A IN (1, 2.5)` over an integer column. -/
def fractionListed : Expr :=
  .inList (.column none "A") [.literal (.integer 1), twoAndAHalf] false

/-- The test that it becomes, with the fraction rounded. -/
def fractionTest : Membership :=
  { left := .column none "A", leftType := .integer, negated := false, whenOperand := false,
    constants := [.literal (.integer 1), twoAndAHalf],
    set := ⟨[.integer 1, .integer 3]⟩ }

theorem built_fractionListed :
    (ofExpr Expr.integerScope fractionListed).outcome {} = (.ok (member fractionTest), {}) := by
  with_unfolding_all rfl

/-- On one, which is in the list, the rounding does no harm. -/
theorem conversion_keeps_answer_iff_one :
    (Value.integer 1).HasType .integer ∧
      ((∃ k ∈ fractionTest.constants, k.MatchesIn (Collation.compare {}) 1 .integer (.integer 1)) ↔
        ∃ k ∈ fractionTest.constants, k.MatchesWritten (Collation.compare {}) 1 (.integer 1)) := by
  have typed : (Value.integer 1).HasType .integer := hasType_of_ofType (.integer 1)
  have item : ([.integer 1] : Row)[0]? = some (.integer 1) := rfl
  have test : (((member fractionTest).evaluate Expr.integerScope [.integer 1]).outcome {}).1 =
      .ok (.boolean true) := by
    with_unfolding_all rfl
  have search : ((fractionListed.eval Expr.integerScope [.integer 1]).outcome {}).1 =
      .ok (.boolean true) := by
    with_unfolding_all rfl
  have both := conversion_keeps_answer_iff built_fractionListed rfl rfl item typed rfl test search
  have agree := both.2 (Collation.ordersTypes {}) nofun
  exact ⟨typed, (agree.1.1 rfl).resolve_left nofun⟩

/-- Three is found, since the fraction was rounded to three, though no constant equals three. -/
theorem conversion_adds_match :
    Expr.integerScope.schema.RowTyped [.integer 3] ∧
      (ofExpr Expr.integerScope fractionListed).outcome {} = (.ok (member fractionTest), {}) ∧
      (((member fractionTest).evaluate Expr.integerScope [.integer 3]).outcome {}).1 =
        .ok (.boolean true) ∧
      ((fractionListed.eval Expr.integerScope [.integer 3]).outcome {}).1 = .ok (.boolean false) := by
  refine ⟨Expr.rowTyped_integer 3, built_fractionListed, ?_, ?_⟩
  · with_unfolding_all rfl
  · with_unfolding_all rfl

end Condition

end SqlEngine
