import SqlEngine.Proofs.Retention
import SqlEngine.Proofs.TypedValues

/-!
# Static types

An expression that was given a type has only values of that type on rows that follow the schema. The
promotion of operand types matches that of operand values, and calls bind to the candidate that they
were typed by.
-/

namespace SqlEngine

/-- Each value of the row that is behind a column has the type of the column. -/
def Schema.RowTyped (s : Schema) (row : Row) : Prop :=
  ∀ (i : Nat) (c : Column) (v : Value), s.columns[i]? = some c → row[i]? = some v → v.HasType c.type

namespace Value

theorem hasType_boolean (b : Bool) : (boolean b).HasType .boolean :=
  hasType_of_ofType (.boolean b)

theorem hasType_truth (t : Truth) : t.toValue.HasType .boolean := by
  cases t with
  | fails => exact hasType_boolean false
  | unknown => exact hasType_null .boolean
  | holds => exact hasType_boolean true

theorem hasType_logicalNot {v w : Value} (h : v.logicalNot = .ok w) : w.HasType .boolean := by
  obtain ⟨t, _, rest⟩ := bind_eq_ok.1 h
  cases rest
  exact hasType_truth t.not

theorem hasType_conjoin {l r v : Value} (h : l.conjoin r = .ok v) : v.HasType .boolean := by
  obtain ⟨s, _, rest⟩ := bind_eq_ok.1 h
  obtain ⟨t, _, rest⟩ := bind_eq_ok.1 rest
  cases rest
  exact hasType_truth (s.and t)

theorem hasType_disjoin {l r v : Value} (h : l.disjoin r = .ok v) : v.HasType .boolean := by
  obtain ⟨s, _, rest⟩ := bind_eq_ok.1 h
  obtain ⟨t, _, rest⟩ := bind_eq_ok.1 rest
  cases rest
  exact hasType_truth (s.or t)

theorem eq_boolean_of_same {v : Value} {b : Bool} (h : v.same (.boolean b) = true) :
    v = .boolean b := by
  cases v <;> simp [same] at h
  rw [h]

theorem hasType_compareBy {cmp : Value → Value → Ordering} {op : BinaryOp} {l r v : Value}
    (h : compareBy cmp op l r = .ok v) : v.HasType .boolean := by
  simp only [compareBy] at h
  split at h
  · cases h
    exact hasType_null .boolean
  · obtain ⟨o, _, rest⟩ := bind_eq_ok.1 h
    split at rest
    · cases rest
      exact hasType_boolean _
    · cases rest

theorem hasType_concatenated (l r : Value) : (l.concatenated r).HasType .anyVarchar := by
  simp only [concatenated]
  split
  · exact hasType_null .anyVarchar
  · exact hasType_of_ofType (.varchar fun n hn => nomatch hn)

theorem isIntegral_of_ofType {t : DataType} {v : Value} (h : OfType t v) :
    v.isIntegral = t.isWhole := by
  cases h <;> rfl

theorem isApproximate_of_ofType {t : DataType} {v : Value} (h : OfType t v) :
    v.isApproximate = t.isApproximate := by
  cases h <;> rfl

theorem isBigint_of_ofType {t : DataType} {v : Value} (h : OfType t v) :
    v.isBigint = (t == .bigint) := by
  cases h <;> rfl

theorem orElseThrow_eq_ok {α : Type} {e : EngineError} {o : Option α} {a : α} :
    orElseThrow e o = .ok a ↔ o = some a := by
  cases o <;> simp [orElseThrow]

theorem ofType_wholeArithmetic {op : BinaryOp} {l r v : Value}
    (h : wholeArithmetic op l r = .ok v) :
    OfType (if l.isBigint || r.isBigint then .bigint else .integer) v := by
  obtain ⟨compute, _, rest⟩ := bind_eq_ok.1 h
  obtain ⟨a, _, rest⟩ := bind_eq_ok.1 rest
  obtain ⟨b, _, rest⟩ := bind_eq_ok.1 rest
  have some := orElseThrow_eq_ok.1 rest
  by_cases big : (l.isBigint || r.isBigint) = true
  · rw [if_pos big] at some ⊢
    simp only [ofBigint?] at some
    split at some
    · cases some
      exact .bigint _
    · cases some
  · rw [if_neg big] at some ⊢
    simp only [ofInteger?] at some
    split at some
    · cases some
      exact .integer _
    · cases some

theorem ofType_approximateArithmetic {op : BinaryOp} {l r v : Value}
    (h : approximateArithmetic op l r = .ok v) : OfType .double v := by
  obtain ⟨compute, _, rest⟩ := bind_eq_ok.1 h
  obtain ⟨a, _, rest⟩ := bind_eq_ok.1 rest
  obtain ⟨b, _, rest⟩ := bind_eq_ok.1 rest
  cases rest
  exact .double _

theorem ofType_exactArithmetic {op : BinaryOp} {l r v : Value}
    (h : exactArithmetic op l r = .ok v) : OfType .anyDecimal v := by
  obtain ⟨compute, _, rest⟩ := bind_eq_ok.1 h
  obtain ⟨a, _, rest⟩ := bind_eq_ok.1 rest
  obtain ⟨b, _, rest⟩ := bind_eq_ok.1 rest
  obtain ⟨d, _, rest⟩ := bind_eq_ok.1 rest
  cases rest
  exact .decimal (fitDecimal_eq_ok.2 ⟨rfl, fun p hp => nomatch hp⟩) d.compare_self

/-- The promotion of types is that of values. -/
theorem hasType_arithmetic {op : BinaryOp} {l r v : Value} {s t u : DataType}
    (left : l.HasType s) (right : r.HasType t) (promoted : s.ofArithmetic? t = some u)
    (h : arithmetic op l r = .ok v) : v.HasType u := by
  simp only [arithmetic] at h
  split at h
  · cases h
    exact hasType_null u
  next present =>
  simp only [Bool.or_eq_true, not_or, Bool.not_eq_true] at present
  have leftOf : OfType s l := by
    rcases ofType_of_hasType left with rfl | ofType
    · cases present.1
    · exact ofType
  have rightOf : OfType t r := by
    rcases ofType_of_hasType right with rfl | ofType
    · cases present.2
    · exact ofType
  refine hasType_of_ofType ?_
  rw [isIntegral_of_ofType leftOf, isIntegral_of_ofType rightOf, isApproximate_of_ofType leftOf,
    isApproximate_of_ofType rightOf] at h
  simp only [DataType.ofArithmetic?] at promoted
  split at promoted
  · cases promoted
  by_cases whole : (s.isWhole && t.isWhole) = true
  · rw [if_pos whole] at h promoted
    have computed := ofType_wholeArithmetic h
    rw [isBigint_of_ofType leftOf, isBigint_of_ofType rightOf] at computed
    cases promoted
    exact computed
  · rw [if_neg whole] at h promoted
    by_cases approximate : (s.isApproximate || t.isApproximate) = true
    · rw [if_pos approximate] at h promoted
      cases promoted
      exact ofType_approximateArithmetic h
    · rw [if_neg approximate] at h promoted
      cases promoted
      exact ofType_exactArithmetic h

end Value

namespace Run

theorem atDepth_ok {α : Type} {s : Scope} {depth : Nat} {r : Run α} {e f : Engine} {a : α}
    (h : (s.atDepth depth r).outcome e = (.ok a, f)) : r.outcome e = (.ok a, f) := by
  simp only [Scope.atDepth] at h
  split at h
  · split at h
    · cases h
    · exact h
  · exact h

theorem hasType_compare {op : BinaryOp} {l r v : Value} {e f : Engine}
    (h : (compare op l r).outcome e = (.ok v, f)) : v.HasType .boolean := by
  obtain ⟨g, e', _, rest⟩ := bind_ok.1 h
  exact Value.hasType_compareBy (ofExcept_ok.1 rest).1

theorem hasType_conjoin {left right : Run Value} {v : Value} {e f : Engine}
    (h : (conjoin left right).outcome e = (.ok v, f)) : v.HasType .boolean := by
  obtain ⟨l, e', _, rest⟩ := bind_ok.1 h
  split at rest
  · next false =>
    cases (pure_ok.1 rest).1
    rw [Value.eq_boolean_of_same false]
    exact Value.hasType_boolean _
  · obtain ⟨r, e'', _, rest⟩ := bind_ok.1 rest
    exact Value.hasType_conjoin (ofExcept_ok.1 rest).1

theorem hasType_disjoin {left right : Run Value} {v : Value} {e f : Engine}
    (h : (disjoin left right).outcome e = (.ok v, f)) : v.HasType .boolean := by
  obtain ⟨l, e', _, rest⟩ := bind_ok.1 h
  split at rest
  · next true =>
    cases (pure_ok.1 rest).1
    rw [Value.eq_boolean_of_same true]
    exact Value.hasType_boolean _
  · obtain ⟨r, e'', _, rest⟩ := bind_ok.1 rest
    exact Value.hasType_disjoin (ofExcept_ok.1 rest).1

theorem hasType_search {negated : Bool} {v w : Value} {items : List (Run Value)} {sawNull : Bool}
    {e f : Engine} (h : (search negated v sawNull items).outcome e = (.ok w, f)) :
    w.HasType .boolean := by
  induction items generalizing sawNull e with
  | nil =>
    cases (pure_ok.1 h).1
    split
    · exact Value.hasType_null .boolean
    · exact Value.hasType_boolean negated
  | cons item rest ih =>
    obtain ⟨u, e', _, next⟩ := bind_ok.1 h
    split at next
    · exact ih next
    · obtain ⟨b, e'', _, next⟩ := bind_ok.1 next
      split at next
      · cases (pure_ok.1 next).1
        exact Value.hasType_boolean _
      · exact ih next

theorem hasType_inList {negated : Bool} {left : Run Value} {items : List (Run Value)} {v : Value}
    {e f : Engine} (h : (inList negated left items).outcome e = (.ok v, f)) :
    v.HasType .boolean := by
  obtain ⟨l, e', _, rest⟩ := bind_ok.1 h
  split at rest
  · cases (pure_ok.1 rest).1
    exact Value.hasType_null .boolean
  · exact hasType_search rest

end Run

namespace CallRun

variable {α : Type} {r : CallRun α} {adopted later : List Connection} {e f : Engine} {a : α}

theorem closing_ok (h : (closing r).outcome e = (.ok a, f)) :
    ∃ adopted g, r.outcome [] e = (.ok a, adopted, g) := by
  rw [outcome_closing] at h
  generalize r.outcome [] e = o at h ⊢
  obtain ⟨x, adopted, g⟩ := o
  cases h
  exact ⟨adopted, g, rfl⟩

theorem isolated_ok {id : Nat} (h : (isolated id r).outcome adopted e = (.ok a, later, f)) :
    ∃ e' g, r.outcome adopted e' = (.ok a, later, g) := by
  rw [outcome_isolated] at h
  generalize inside : r.outcome adopted _ = o at h
  obtain ⟨x, _, g⟩ := o
  cases h
  exact ⟨_, g, inside⟩

end CallRun

namespace Candidate

/-- A call gives a value of the type that its method returns, whatever the body did. -/
theorem hasType_finish {c : Candidate} {serializer : Serializer} {result : NativeValue} {v : Value}
    {t : DataType} (typed : c.dataType? = some t) (h : c.finish serializer result = .ok v) :
    v.HasType t := by
  simp only [finish] at h
  split at h
  · cases h
    exact Value.hasType_null t
  · rw [typed] at h
    obtain ⟨w, _, converted⟩ := bind_eq_ok.1 h
    exact Value.hasType_convert (Value.convertOrFail_eq_ok.1 converted)

theorem hasType_callMethod {c : Candidate} {k : Caller} {frame : CallFrame} {v : Value}
    {t : DataType} {e f : Engine} (typed : c.dataType? = some t)
    (h : (c.callMethod k frame).outcome e = (.ok v, f)) : v.HasType t := by
  obtain ⟨conducted, e₁, _, rest⟩ := Run.bind_ok.1 h
  split at rest
  · cases rest
  · obtain ⟨e₂, e₃, _, rest⟩ := Run.bind_ok.1 rest
    exact hasType_finish typed (Run.ofExcept_ok.1 rest).1

theorem hasType_invoke {c : Candidate} {k : Caller} {args : List (Run Value)} {v : Value}
    {t : DataType} {e f : Engine} (typed : c.dataType? = some t)
    (h : (c.invoke k args).outcome e = (.ok v, f)) : v.HasType t := by
  obtain ⟨adopted, g, through⟩ := CallRun.closing_ok h
  obtain ⟨params, _, e', _, rest⟩ := RunWith.bind_ok.1 through
  cases params with
  | none =>
    cases rest
    exact Value.hasType_null t
  | some params =>
    simp only [run_eq] at rest
    obtain ⟨e'', g', isolated⟩ := CallRun.isolated_ok rest
    obtain ⟨default, _, begun, _, body⟩ := RunWith.bind_ok.1 isolated
    exact hasType_callMethod typed (RunWith.onEngine_ok.1 body).1

end Candidate

namespace Expr

theorem run_callType (name : String) (count : Nat) (e : Engine) :
    (Run.callType name count).run e =
      match (Run.resolve name count).outcome e with
      | (.ok c, f) => (c.dataType?, f)
      | (.error _, f) => (none, f) := by
  simp only [Run.callType, Run.outcome]
  rw [StateT.run_bind]
  generalize (ExceptT.run (Run.resolve name count)).run e = o
  obtain ⟨x, f⟩ := o
  cases x <;> rfl

theorem run_arithmeticType (left right : StateM Engine (Option DataType)) (e : Engine) :
    (arithmeticType left right).run e =
      match left.run e with
      | (none, f) => (none, f)
      | (some l, f) => ((right.run f).1.bind l.ofArithmetic?, (right.run f).2) := by
  simp only [arithmeticType]
  rw [StateT.run_bind]
  generalize left.run e = o
  obtain ⟨x, f⟩ := o
  cases x <;> rfl

theorem relates_arithmeticType {R : Engine → Engine → Prop} (h : EffectOrder R)
    {left right : StateM Engine (Option DataType)} (e : Engine) (onLeft : ∀ e, R e (left.run e).2)
    (onRight : ∀ e, R e (right.run e).2) : R e ((arithmeticType left right).run e).2 := by
  rw [run_arithmeticType]
  have kept := onLeft e
  generalize left.run e = o at kept
  obtain ⟨x, f⟩ := o
  cases x with
  | none => exact kept
  | some l => exact h.trans kept (onRight f)

/-- Typing loads aliases and does nothing else. -/
theorem relates_typeIn {R : Engine → Engine → Prop} {s : Scope} (h : CallRelation s.session R) :
    ∀ (x : Expr) (e : Engine), R e ((x.typeIn s).run e).2
  | .literal _, e | .column .., e | .not _, e | .isNull .., e | .inList .., e | .cast .., e => h.refl e
  | .negate x, e => relates_typeIn h x e
  | .call name args, e => by
    have kept := h.resolve name args.length e
    simp only [typeIn]
    rw [run_callType]
    generalize (Run.resolve name args.length).outcome e = o at kept
    obtain ⟨x, f⟩ := o
    cases x <;> exact kept
  | .binary op l r, e => by
    cases op with
    | plus | minus | times =>
      exact relates_arithmeticType h.toEffectOrder e (relates_typeIn h l) (relates_typeIn h r)
    | _ => exact h.refl e

/-- Both operands of typed arithmetic have types, which are promoted. -/
theorem typed_operands {left right : StateM Engine (Option DataType)} {e f : Engine} {u : DataType}
    (h : (arithmeticType left right).run e = (some u, f)) :
    ∃ s t g, left.run e = (some s, g) ∧ right.run g = (some t, f) ∧ s.ofArithmetic? t = some u := by
  rw [run_arithmeticType] at h
  cases onLeft : left.run e with
  | mk x g =>
    rw [onLeft] at h
    cases x with
    | none => cases h
    | some s =>
      cases onRight : right.run g with
      | mk y g' =>
        simp only [onRight] at h
        cases y with
        | none => cases h
        | some t =>
          obtain ⟨promoted, rfl⟩ := Prod.mk.injEq .. ▸ h
          exact ⟨s, t, g, rfl, onRight, promoted⟩

theorem length_evalEach (s : Scope) (row : Row) (depth : Nat) (values : List Expr) :
    (evalEach s row depth values).length = values.length := by
  induction values with
  | nil => rfl
  | cons x rest ih => exact congrArg (· + 1) ih

/-- On a row that follows the schema an expression has values of its type alone, if the registry has
lost nothing since the typing. -/
theorem typeIn_sound {s : Scope} {row : Row} (typed : s.schema.RowTyped row) :
    ∀ (x : Expr) (depth : Nat) {t : DataType} {v : Value} {e e' f f' : Engine},
      (x.typeIn s).run e = (some t, e') → Retains e' f →
        (x.evalAt s row depth).outcome f = (.ok v, f') → v.HasType t
  | .literal w, depth, t, v, e, e', f, f', type, kept, value => by
    cases (Run.pure_ok.1 (Run.atDepth_ok value)).1
    have type := congrArg Prod.fst type
    change (if w.isNull then none else some w.type) = some t at type
    split at type
    · cases type
    · next present =>
      cases type
      exact Value.hasType_of_ofType (Value.ofType_type (by simpa using present))
  | .column table name, depth, t, v, e, e', f, f', type, kept, value => by
    obtain ⟨i, place, found⟩ := bind_eq_ok.1 (Run.ofExcept_ok.1 (Run.atDepth_ok value)).1
    have type := congrArg Prod.fst type
    change (s.columnIndex table name).toOption.bind _ = some t at type
    rw [place] at type
    obtain ⟨c, column, rfl⟩ := Option.map_eq_some_iff.1 type
    cases there : row[i]? with
    | none => simp [there] at found
    | some w =>
      simp only [there] at found
      cases found
      exact typed i c v column there
  | .cast x u, depth, t, v, e, e', f, f', type, kept, value => by
    cases type
    obtain ⟨w, g, _, rest⟩ := Run.bind_ok.1 (Run.atDepth_ok value)
    exact Value.hasType_convert (Value.convertOrFail_eq_ok.1 (Run.ofExcept_ok.1 rest).1)
  | .not x, depth, t, v, e, e', f, f', type, kept, value => by
    cases type
    obtain ⟨w, g, _, rest⟩ := Run.bind_ok.1 (Run.atDepth_ok value)
    exact Value.hasType_logicalNot (Run.ofExcept_ok.1 rest).1
  | .negate x, depth, t, v, e, e', f, f', type, kept, value => by
    obtain ⟨w, g, inner, rest⟩ := Run.bind_ok.1 (Run.atDepth_ok value)
    have operand := typeIn_sound typed x (depth + 1) type kept inner
    exact Value.hasType_negated operand (Run.ofExcept_ok.1 rest).1
  | .isNull x _, depth, t, v, e, e', f, f', type, kept, value => by
    cases type
    obtain ⟨w, g, _, rest⟩ := Run.bind_ok.1 (Run.atDepth_ok value)
    cases (Run.pure_ok.1 rest).1
    exact Value.hasType_boolean _
  | .inList x values _, depth, t, v, e, e', f, f', type, kept, value => by
    cases type
    exact Run.hasType_inList (Run.atDepth_ok value)
  | .call name args, depth, t, v, e, e', f, f', type, kept, value => by
    have count : (evalEach s row (depth + 1) args).length = args.length :=
      length_evalEach s row (depth + 1) args
    simp only [typeIn] at type
    rw [run_callType] at type
    cases bound : (Run.resolve name args.length).outcome e with
    | mk x g =>
      rw [bound] at type
      cases x with
      | error x => cases type
      | ok c =>
        obtain ⟨returns, rfl⟩ := Prod.mk.injEq .. ▸ type
        have binds := (binds_of_resolve bound).retained kept
        obtain ⟨c', f₁, resolved, invoked⟩ := Run.bind_ok.1 (Run.atDepth_ok value)
        rw [count] at resolved
        have same := resolve_of_binds binds
        rw [resolved] at same
        cases same
        exact Candidate.hasType_invoke returns invoked
  | .binary op l r, depth, t, v, e, e', f, f', type, kept, value => by
    have arithmetic (type : (arithmeticType (l.typeIn s) (r.typeIn s)).run e = (some t, e'))
        (value : (do
          let a ← evalAt s row (depth + 1) l
          let b ← evalAt s row (depth + 1) r
          Run.ofExcept (Value.arithmetic op a b)).outcome f = (.ok v, f')) : v.HasType t := by
      obtain ⟨leftType, rightType, g, onLeft, onRight, promoted⟩ := typed_operands type
      obtain ⟨a, f₁, left, rest⟩ := Run.bind_ok.1 value
      obtain ⟨b, f₂, right, rest⟩ := Run.bind_ok.1 rest
      -- the right operand was typed after the left one and is evaluated after it, too
      have typing := relates_typeIn (retains_calls s.session) r g
      rw [onRight] at typing
      have evaluation := (retains_calls s.session).evalAt row (depth + 1) l f
      rw [left] at evaluation
      have aTyped := typeIn_sound typed l (depth + 1) onLeft (typing.trans kept) left
      have bTyped := typeIn_sound typed r (depth + 1) onRight (kept.trans evaluation) right
      exact Value.hasType_arithmetic aTyped bTyped promoted (Run.ofExcept_ok.1 rest).1
    cases op with
    | plus => exact arithmetic type (Run.atDepth_ok value)
    | minus => exact arithmetic type (Run.atDepth_ok value)
    | times => exact arithmetic type (Run.atDepth_ok value)
    | concat =>
      cases type
      obtain ⟨a, g, _, rest⟩ := Run.bind_ok.1 (Run.atDepth_ok value)
      obtain ⟨b, g', _, rest⟩ := Run.bind_ok.1 rest
      cases (Run.pure_ok.1 rest).1
      exact Value.hasType_concatenated a b
    | and =>
      cases type
      exact Run.hasType_conjoin (Run.atDepth_ok value)
    | or =>
      cases type
      exact Run.hasType_disjoin (Run.atDepth_ok value)
    | _ =>
      cases type
      obtain ⟨a, g, _, rest⟩ := Run.bind_ok.1 (Run.atDepth_ok value)
      obtain ⟨b, g', _, rest⟩ := Run.bind_ok.1 rest
      exact Run.hasType_compare rest

/-- What an expression evaluates to has the type that the expression was given before, whatever native
bodies did on the way. -/
theorem eval_hasType {s : Scope} {row : Row} {x : Expr} {t : DataType} {v : Value}
    {e e' f f' : Engine} (typed : s.schema.RowTyped row) (type : (x.typeIn s).run e = (some t, e'))
    (kept : Retains e' f) (value : (x.eval s row).outcome f = (.ok v, f')) : v.HasType t :=
  typeIn_sound typed x 0 type kept value

/-- A session with an alias for a method that returns a long integer. -/
def fiveEngine : Engine :=
  let method : NativeMethod := ⟨"five", [], .long, false, true, fun _ => .done (.long 5)⟩
  { aliases := [{ schema := "PUBLIC", id := 1, name := "FIVE", target := none,
                  candidates := some [⟨"demo.Five", method, 0⟩] }],
    names := [("FIVE", 0)],
    sessions := [{ id := 1, user := "SA" }] }

/-- A scope over one integer column. -/
def integerScope : Scope := { session := 1, schema := ⟨"T", [⟨"A", .integer, true⟩]⟩ }

theorem rowTyped_integer (n : Int32) : integerScope.schema.RowTyped [.integer n] := by
  intro i c v column value
  match i with
  | 0 =>
    cases column
    cases value
    exact Value.hasType_of_ofType (.integer n)
  | i + 1 => cases column

/-- An integer column and a long result are added as long integers. -/
theorem eval_hasType_five :
    (((Expr.binary .plus (.column none "A") (.call "FIVE" [])).typeIn integerScope).run
        fiveEngine).1 = some .bigint ∧
      (((Expr.binary .plus (.column none "A") (.call "FIVE" [])).eval integerScope
        [.integer 3]).outcome fiveEngine).1 = .ok (.bigint 8) ∧
      (Value.bigint 8).HasType .bigint := by
  refine ⟨rfl, rfl, ?_⟩
  exact eval_hasType (x := .binary .plus (.column none "A") (.call "FIVE" [])) (e := fiveEngine)
    (rowTyped_integer 3) rfl (retains_writes.refl _) rfl

end Expr

end SqlEngine
