import SqlEngine.Proofs.CallFrames
import SqlEngine.Proofs.OverloadSelection

/-!
# Marshaled frames

What comes of marshaling as many arguments as a method accepts. Either it stops at one of them, whose
evaluation or conversion fails or whose null skips the call, or it gets through, and then the frame has an
entry for each declared parameter. The numbers of arguments and of parameters are no reason to fail.
-/

namespace SqlEngine

namespace Candidate

section Counts

variable {c : Candidate} {count index : Nat}

/-- A parameter takes the rest of the arguments, and it is not the connection in front. -/
theorem paramCount_of_variadic (variadic : c.isVariadic = true) : c.paramCount = c.fixedCount + 1 := by
  have some : c.paramCount ≠ 0 := by
    intro none
    obtain ⟨element, gathers⟩ := Option.isSome_iff_exists.1 variadic
    obtain ⟨_, outer, last⟩ := tailSpec?_eq_some.1 gathers
    have declared := c.length_params
    unfold ahead at declared
    by_cases takes : c.takesConnection = true
    · obtain ⟨p, rest, params, connection⟩ := takesConnection_iff.1 takes
      rw [if_pos takes, none, params] at declared
      have alone : rest = [] := List.length_eq_zero_iff.1 (Nat.succ.inj declared)
      rw [params, alone, List.getLast?_singleton, Option.some_inj] at last
      rw [last] at connection
      cases connection
    · rw [if_neg takes, none] at declared
      rw [List.length_eq_zero_iff.1 declared] at last
      cases last
  rw [fixedCount, if_pos variadic]
  omega

theorem paramCount_of_plain (plain : c.isVariadic = false) : c.paramCount = c.fixedCount := by
  rw [fixedCount, plain]
  rfl

theorem fixedCount_le_paramCount (c : Candidate) : c.fixedCount ≤ c.paramCount := by
  unfold fixedCount
  split
  · exact Nat.sub_le _ 1
  · exact Nat.le_refl _

theorem fixedCount_le (accepts : c.accepts count = true) : c.fixedCount ≤ count := by
  cases variadic : c.isVariadic with
  | true =>
    have fits := (accepts_of_variadic variadic).1 accepts
    have gathers := paramCount_of_variadic variadic
    omega
  | false =>
    have takes := (accepts_of_plain variadic).1 accepts
    have fixed := paramCount_of_plain variadic
    omega

theorem fixedCount_eq (plain : c.isVariadic = false) (accepts : c.accepts count = true) :
    c.fixedCount = count :=
  (paramCount_of_plain plain).symm.trans ((accepts_of_plain plain).1 accepts)

/-- A declared parameter is the connection in front, takes one argument, or takes the rest of them. -/
theorem place_cases {j : Nat} (within : j < c.method.params.length) :
    (c.takesConnection = true ∧ j = 0) ∨ (∃ i < c.fixedCount, j = c.ahead + i) ∨
      (c.isVariadic = true ∧ j = c.ahead + c.fixedCount) := by
  have declared := c.length_params
  by_cases inFront : j < c.ahead
  · refine .inl ?_
    unfold ahead at inFront
    by_cases takes : c.takesConnection = true
    · rw [if_pos takes] at inFront
      exact ⟨takes, by omega⟩
    · rw [if_neg takes] at inFront
      omega
  · refine .inr ?_
    by_cases early : j < c.ahead + c.fixedCount
    · exact .inl ⟨j - c.ahead, by omega, by omega⟩
    · refine .inr ?_
      cases variadic : c.isVariadic with
      | true =>
        have gathers := paramCount_of_variadic variadic
        exact ⟨rfl, by omega⟩
      | false =>
        have fixed := paramCount_of_plain variadic
        omega

theorem specAt?_of_fixed (early : index < c.fixedCount) :
    c.specAt? index = c.method.params[c.ahead + index]? := by
  rw [specAt?, ← getElem?_columns]
  split
  · rw [if_neg (by omega)]
  · rfl

theorem specAt?_of_tail {element : ParamSpec} (gathers : c.tailSpec? = some element)
    (late : c.fixedCount ≤ index) : c.specAt? index = some element := by
  simp only [specAt?, gathers, if_pos late]

/-- Every argument of an accepted number meets a parameter. -/
theorem exists_spec (accepts : c.accepts count = true) (within : index < count) :
    ∃ spec, c.specAt? index = some spec := by
  by_cases early : index < c.fixedCount
  · have known : index < c.columns.length := Nat.lt_of_lt_of_le early c.fixedCount_le_paramCount
    rw [specAt?_of_fixed early, ← getElem?_columns]
    exact ⟨_, List.getElem?_eq_getElem known⟩
  · cases variadic : c.isVariadic with
    | true =>
      obtain ⟨element, gathers⟩ := Option.isSome_iff_exists.1 variadic
      exact ⟨element, specAt?_of_tail gathers (by omega)⟩
    | false =>
      have all := fixedCount_eq variadic accepts
      omega

/-- The connection is in front exactly where the method declares one. -/
theorem length_front {k : Caller} {front : Option Connection} {adopted later : List Connection}
    {e f : Engine} (inFront : (c.openFront k).outcome adopted e = (.ok front, later, f)) :
    front.toList.length = c.ahead := by
  unfold ahead
  rcases openFront_cases inFront with ⟨takes, conn, rfl, _⟩ | ⟨takes, rfl, _⟩
  · rw [if_pos takes]
    rfl
  · rw [takes]
    rfl

theorem Course.lengths {k : Caller} {adopted last : List Connection} {e f : Engine}
    {args : List (Run Value)} {values : List Value} {natives : List NativeValue}
    (course : Course c k index adopted e args values natives last f) :
    values.length = args.length ∧ natives.length = args.length := by
  induction course with
  | nil => exact ⟨rfl, rfl⟩
  | cons _ _ _ _ ih => exact ⟨congrArg Nat.succ ih.1, congrArg Nat.succ ih.2⟩

/-- Parameters in the shape that the method declares: the connection, the arguments that have a parameter
each, and an array of all others where the last parameter takes the rest. -/
structure Shaped (c : Candidate) (front : Option Connection) (natives params : List NativeValue) :
    Prop where
  count : params.length = c.method.params.length
  connected : c.takesConnection = true →
    ∃ conn, front = some conn ∧ params[0]? = some (.connection conn)
  enough : c.fixedCount ≤ natives.length
  fixed : ∀ i < c.fixedCount, params[c.ahead + i]? = natives[i]?
  plain : c.isVariadic = false → natives.length = c.fixedCount
  rest : c.isVariadic = true → params.length = c.ahead + c.fixedCount + 1 ∧
    params[c.ahead + c.fixedCount]? = some (.array (natives.drop c.fixedCount))

/-- There is one list of parameters of that shape. -/
theorem Shaped.unique {front : Option Connection} {natives params others : List NativeValue}
    (first : Shaped c front natives params) (second : Shaped c front natives others) :
    params = others := by
  apply List.ext_getElem?
  intro j
  by_cases within : j < c.method.params.length
  · rcases place_cases within with ⟨takes, rfl⟩ | ⟨i, early, rfl⟩ | ⟨variadic, rfl⟩
    · obtain ⟨conn, given, there⟩ := first.connected takes
      obtain ⟨conn', given', there'⟩ := second.connected takes
      cases given.symm.trans given'
      rw [there, there']
    · rw [first.fixed i early, second.fixed i early]
    · rw [(first.rest variadic).2, (second.rest variadic).2]
  · have size := first.count
    have size' := second.count
    rw [List.getElem?_eq_none (by omega), List.getElem?_eq_none (by omega)]

section Arranged

variable {front : Option Connection} {natives : List NativeValue}

theorem length_connected (front : Option Connection) :
    (front.map NativeValue.connection).toList.length = front.toList.length := by
  cases front <;> rfl

theorem length_arrange (filled : front.toList.length = c.ahead) :
    (c.arrange front natives).length =
      c.ahead + if c.isVariadic then (natives.take c.fixedCount).length + 1 else natives.length := by
  rw [arrange, List.length_append, length_connected, filled]
  split
  · rw [List.length_append, List.length_singleton]
  · rfl

/-- Behind the connection in front, a place of the frame is a place in what the arguments make. -/
theorem getElem?_arrange (filled : front.toList.length = c.ahead) (i : Nat) :
    (c.arrange front natives)[c.ahead + i]? =
      (if c.isVariadic then natives.take c.fixedCount ++ [.array (natives.drop c.fixedCount)]
        else natives)[i]? := by
  have same := (length_connected front).trans filled
  rw [arrange, List.getElem?_append_right (by omega), same, Nat.add_sub_cancel_left]

theorem shaped_arrange {k : Caller} {adopted later : List Connection} {e f : Engine}
    (accepts : c.accepts natives.length = true)
    (inFront : (c.openFront k).outcome adopted e = (.ok front, later, f)) :
    Shaped c front natives (c.arrange front natives) := by
  have filled := length_front inFront
  have declared := c.length_params
  have enough := fixedCount_le accepts
  have first : (natives.take c.fixedCount).length = c.fixedCount := by
    rw [List.length_take]
    omega
  have size : (c.arrange front natives).length = c.method.params.length := by
    rw [length_arrange filled, first]
    cases variadic : c.isVariadic with
    | true =>
      have gathers := paramCount_of_variadic variadic
      rw [if_pos rfl]
      omega
    | false =>
      have takes := (accepts_of_plain variadic).1 accepts
      rw [if_neg nofun]
      omega
  refine ⟨size, ?_, enough, ?_, ?_, ?_⟩
  · intro takes
    obtain ⟨conn, rfl⟩ := front_of_takesConnection inFront takes
    exact ⟨conn, rfl, rfl⟩
  · intro i early
    rw [getElem?_arrange filled]
    split
    · rw [List.getElem?_append_left (by omega), List.getElem?_take_of_lt early]
    · rfl
  · intro plain
    exact (fixedCount_eq plain accepts).symm
  · intro variadic
    have gathers := paramCount_of_variadic variadic
    refine ⟨by omega, ?_⟩
    rw [getElem?_arrange filled, if_pos variadic, List.getElem?_append_right (le_of_eq first), first,
      Nat.sub_self]
    rfl

end Arranged

end Counts

/-- What stops marshaling at an argument: it cannot be evaluated, it cannot be converted, or it is null
and the parameter takes no null, which is no failure. -/
inductive Refused (k : Caller) (adopted : List Connection) (spec : ParamSpec) (arg : Run Value)
    (e : Engine) : Option EngineError → List Connection → Engine → Prop
  | failed {x f} (fails : arg.outcome e = (.error x, f)) : Refused k adopted spec arg e (some x) adopted f
  | unconverted {v evaluated x later f} (evaluates : arg.outcome e = (.ok v, evaluated))
      (fails : (marshalValue k v spec).outcome adopted evaluated = (.error x, later, f)) :
      Refused k adopted spec arg e (some x) later f
  | skipped {v f} (evaluates : arg.outcome e = (.ok v, f)) (null : v.isNull = true)
      (required : spec.nullable = false) (apart : spec.type ≠ .value) (full : k.columnList = false) :
      Refused k adopted spec arg e none adopted f

/-- Marshaling from an index on that stops at the argument of that place, after all before it got
through. -/
inductive StopsFrom (c : Candidate) (k : Caller) (index : Nat) (adopted : List Connection) (e : Engine)
    (args : List (Run Value)) : Nat → Option EngineError → List Connection → Engine → Prop
  | intro {i arg spec values natives last reached why later f}
      (before : Course c k index adopted e (args.take i) values natives last reached)
      (here : args[i]? = some arg) (met : c.specAt? (index + i) = some spec)
      (refused : Refused k last spec arg reached why later f) :
      StopsFrom c k index adopted e args i why later f

/-- Marshaling that stops at the argument of that place, with these connections adopted. -/
inductive StopsAt (c : Candidate) (k : Caller) (args : List (Run Value)) (e : Engine) :
    Nat → Option EngineError → List Connection → Engine → Prop
  | intro {front first opened i why adopted f}
      (inFront : (c.openFront k).outcome [] e = (.ok front, first, opened))
      (stops : StopsFrom c k 0 first opened args i why adopted f) : StopsAt c k args e i why adopted f

/-- What marshaling gives where it stops: nothing, or a failure. -/
def halted {α : Type} : Option EngineError → Except EngineError (Option α)
  | none => .ok none
  | some x => .error x

section Stops

variable {c : Candidate} {k : Caller} {arg : Run Value} {args : List (Run Value)} {e f g : Engine}
  {index i : Nat} {front : Option Connection} {adopted later last : List Connection} {v : Value}
  {spec : ParamSpec} {n : NativeValue} {why : Option EngineError} {values : List Value}
  {natives : List NativeValue}

theorem marshalValue_skips : (marshalValue k v spec).outcome adopted e = (.ok none, later, f) ↔
    v.isNull = true ∧ spec.nullable = false ∧ spec.type ≠ .value ∧ k.columnList = false ∧
      adopted = later ∧ e = f := by
  unfold marshalValue
  constructor
  · intro h
    split at h
    · cases h
    · next apart =>
      split at h
      · next null =>
        split at h
        · cases h
        · next required =>
          split at h
          · cases h
          · next full =>
            cases h
            exact ⟨null, by simpa using required, apart, by simpa using full, rfl, rfl⟩
      · rw [← bind_pure_comp] at h
        obtain ⟨made, _, g, _, rest⟩ := RunWith.bind_ok.1 h
        cases rest
  · rintro ⟨null, required, apart, full, rfl, rfl⟩
    rw [if_neg apart, if_pos null, required, full]
    rfl

/-- Past an argument, marshaling goes on with the others. -/
theorem outcome_marshalFrom_cons (met : c.specAt? index = some spec)
    (evaluates : arg.outcome e = (.ok v, f))
    (marshals : (marshalValue k v spec).outcome adopted f = (.ok (some n), later, g)) :
    (c.marshalFrom k index (arg :: args)).outcome adopted e =
      match (c.marshalFrom k (index + 1) args).outcome later g with
      | (.ok natives, last, h) => (.ok (natives.map (n :: ·)), last, h)
      | (.error x, last, h) => (.error x, last, h) := by
  simp only [marshalFrom, met]
  rw [RunWith.outcome_bind, RunWith.outcome_onEngine, evaluates]
  dsimp only
  rw [RunWith.outcome_bind, marshals]
  dsimp only
  rw [RunWith.outcome_bind]
  generalize (c.marshalFrom k (index + 1) args).outcome later g = o
  obtain ⟨x | natives, last, h⟩ := o <;> rfl

theorem Refused.outcome (refused : Refused k adopted spec arg e why later f)
    (met : c.specAt? index = some spec) :
    (c.marshalFrom k index (arg :: args)).outcome adopted e = (halted why, later, f) := by
  simp only [marshalFrom, met]
  cases refused with
  | failed fails => rw [RunWith.outcome_bind, RunWith.outcome_onEngine, fails]; rfl
  | unconverted evaluates fails =>
    rw [RunWith.outcome_bind, RunWith.outcome_onEngine, evaluates]
    dsimp only
    rw [RunWith.outcome_bind, fails]
    rfl
  | skipped evaluates null required apart full =>
    rw [RunWith.outcome_bind, RunWith.outcome_onEngine, evaluates]
    dsimp only
    rw [RunWith.outcome_bind, marshalValue_skips.2 ⟨null, required, apart, full, rfl, rfl⟩]
    rfl

/-- To stop at an argument is to have got through all before it, by induction on these. -/
theorem StopsFrom.outcome (stops : StopsFrom c k index adopted e args i why later f) :
    (c.marshalFrom k index args).outcome adopted e = (halted why, later, f) := by
  induction args generalizing index adopted e i with
  | nil =>
    cases stops with
    | intro _ here => cases here
  | cons arg rest ih =>
    cases stops with
    | intro before here met refused =>
      cases i with
      | zero =>
        cases before
        cases here
        exact refused.outcome met
      | succ i =>
        cases before with
        | cons met' evaluates marshals before =>
          rw [Nat.add_comm i 1, ← Nat.add_assoc] at met
          rw [outcome_marshalFrom_cons met' evaluates marshals, ih ⟨before, here, met, refused⟩]
          cases why <;> rfl

/-- An argument gets through or is refused. -/
theorem passes_or_refused (k : Caller) (adopted : List Connection) (spec : ParamSpec) (arg : Run Value)
    (e : Engine) :
    (∃ v f n later g, arg.outcome e = (.ok v, f) ∧
      (marshalValue k v spec).outcome adopted f = (.ok (some n), later, g)) ∨
      ∃ why later f, Refused k adopted spec arg e why later f := by
  rcases evaluates : arg.outcome e with ⟨x | v, f⟩
  · exact .inr ⟨some x, adopted, f, .failed evaluates⟩
  · rcases marshals : (marshalValue k v spec).outcome adopted f with ⟨x | _ | n, later, g⟩
    · exact .inr ⟨some x, later, g, .unconverted evaluates marshals⟩
    · obtain ⟨null, required, apart, full, _⟩ := marshalValue_skips.1 marshals
      exact .inr ⟨none, adopted, f, .skipped evaluates null required apart full⟩
    · exact .inl ⟨v, f, n, later, g, rfl, marshals⟩

/-- Marshaling gets through or stops at an argument, if each of them meets a parameter. The index counts
on as the arguments are taken off. -/
theorem course_or_stops (k : Caller) (adopted : List Connection) (e : Engine)
    (met : ∀ i < args.length, ∃ spec, c.specAt? (index + i) = some spec) :
    (∃ values natives last f, Course c k index adopted e args values natives last f) ∨
      ∃ i why last f, StopsFrom c k index adopted e args i why last f := by
  induction args generalizing index adopted e with
  | nil => exact .inl ⟨[], [], _, _, .nil⟩
  | cons arg rest ih =>
    obtain ⟨spec, here⟩ := met 0 (Nat.succ_pos _)
    rcases passes_or_refused k adopted spec arg e with
      ⟨v, f, n, later, g, evaluates, marshals⟩ | ⟨why, later, f, refused⟩
    · have others : ∀ i < rest.length, ∃ spec, c.specAt? (index + 1 + i) = some spec := by
        intro i within
        rw [Nat.add_assoc, Nat.add_comm 1 i]
        exact met (i + 1) (Nat.succ_lt_succ within)
      rcases ih later g others with ⟨values, natives, last, h, course⟩ | ⟨i, why, last, h, stops⟩
      · exact .inl ⟨v :: values, n :: natives, last, h, .cons here evaluates marshals course⟩
      · cases stops with
        | intro before place met' refused =>
          rw [Nat.add_assoc, Nat.add_comm 1 i] at met'
          exact .inr
            ⟨i + 1, why, last, h, .intro (.cons here evaluates marshals before) place met' refused⟩
    · exact .inr ⟨0, why, later, f, .intro .nil rfl here refused⟩

/-- Marshaling that gets through, with these connections adopted. -/
inductive Fills (c : Candidate) (k : Caller) (args : List (Run Value)) (e : Engine) :
    Option Connection → List Value → List NativeValue → List Connection → Engine → Prop
  | intro {front first opened values natives last f}
      (inFront : (c.openFront k).outcome [] e = (.ok front, first, opened))
      (course : Course c k 0 first opened args values natives last f) :
      Fills c k args e front values natives last f

theorem Fills.length (fills : c.Fills k args e front values natives last f) :
    values.length = args.length ∧ natives.length = args.length := by
  cases fills with
  | intro _ course => exact course.lengths

theorem Fills.shaped (fills : c.Fills k args e front values natives last f)
    (accepts : c.accepts args.length = true) : Shaped c front natives (c.arrange front natives) := by
  rw [← fills.length.2] at accepts
  cases fills with
  | intro inFront => exact shaped_arrange accepts inFront

/-- A frame is built exactly if marshaling gets through and the number of arguments is accepted. -/
theorem marshal_eq_frame {params : List NativeValue} :
    (c.marshal k args).outcome [] e = (.ok (some params), last, f) ↔
      c.accepts args.length = true ∧
        ∃ front values natives, c.Fills k args e front values natives last f ∧
          params = c.arrange front natives := by
  rw [marshal_eq]
  constructor
  · intro h
    obtain ⟨front, first, opened, inFront, behind⟩ := RunWith.bind_ok.1 h
    obtain ⟨enough, natives, through, rfl, fits⟩ := marshalBehind_ok.1 behind
    obtain ⟨values, course⟩ := course_iff.1 through
    refine ⟨?_, front, values, natives, ⟨inFront, course⟩, rfl⟩
    cases variadic : c.isVariadic with
    | true =>
      have gathers := paramCount_of_variadic variadic
      have all : c.fixedCount ≤ args.length := by
        by_contra short
        exact enough ⟨variadic, by omega⟩
      exact (accepts_of_variadic variadic).2 (by omega)
    | false =>
      have width : (c.arrange front natives).length = _ := length_arrange (length_front inFront)
      rw [variadic, if_neg nofun, course.lengths.2] at width
      have declared := c.length_params
      exact (accepts_of_plain variadic).2 (by omega)
  · rintro ⟨accepts, front, values, natives, fills, rfl⟩
    have shaped := fills.shaped accepts
    cases fills with
    | intro inFront course =>
      refine RunWith.bind_ok.2
        ⟨front, _, _, inFront, marshalBehind_ok.2 ⟨?_, natives, ?_, rfl, shaped.count⟩⟩
      · rintro ⟨_, short⟩
        have enough := fixedCount_le accepts
        omega
      · exact course_iff.2 ⟨values, course⟩

theorem StopsAt.outcome (stops : c.StopsAt k args e i why last f)
    (accepts : c.accepts args.length = true) :
    (c.marshal k args).outcome [] e = (halted why, last, f) := by
  cases stops with
  | intro inFront stops =>
    have enough := fixedCount_le accepts
    rw [marshal_eq, RunWith.outcome_bind, inFront]
    dsimp only
    rw [marshalBehind, if_neg (by omega), RunWith.outcome_bind, stops.outcome]
    cases why <;> rfl

/-- Marshaling of an accepted number of arguments gets through or stops at one of them. -/
theorem fills_or_stops (accepts : c.accepts args.length = true) :
    (∃ front values natives last f, c.Fills k args e front values natives last f) ∨
      ∃ i why last f, c.StopsAt k args e i why last f := by
  obtain ⟨front, first, opened, inFront⟩ := c.outcome_openFront k [] e
  have met : ∀ i < args.length, ∃ spec, c.specAt? (0 + i) = some spec := by
    intro i within
    rw [Nat.zero_add]
    exact exists_spec accepts within
  rcases course_or_stops k first opened met with
    ⟨values, natives, last, f, course⟩ | ⟨i, why, last, f, stops⟩
  · exact .inl ⟨front, values, natives, last, f, .intro inFront course⟩
  · exact .inr ⟨i, why, last, f, .intro inFront stops⟩

/-- What marshaling gives besides a frame tells that it stopped, and why. -/
theorem marshal_eq_halted (accepts : c.accepts args.length = true) :
    (c.marshal k args).outcome [] e = (halted why, last, f) ↔ ∃ i, c.StopsAt k args e i why last f := by
  constructor
  · intro h
    rcases fills_or_stops (k := k) (e := e) accepts with
      ⟨front, values, natives, _, g, fills⟩ | ⟨i, why', _, g, stops⟩
    · have through := marshal_eq_frame.2 ⟨accepts, _, _, _, fills, rfl⟩
      rw [h] at through
      cases why <;> cases through
    · have halts := stops.outcome accepts
      rw [h] at halts
      cases why <;> cases why' <;> cases halts <;> exact ⟨i, stops⟩
  · rintro ⟨i, stops⟩
    exact stops.outcome accepts

end Stops

section Failures

/-- The errors of values that have no form of a type. -/
inductive Unfit : EngineError → Prop
  | value (x : ValueError) : Unfit (.value x)
  | unsupported (what : String) : Unfit (.unsupportedConversion what)

variable {v : Value} {type : NativeType} {x : EngineError}

theorem unfit_of_convertFor (h : v.convertFor type = .error x) : Unfit x := by
  unfold Value.convertFor at h
  split at h
  · next t _ =>
    unfold Value.convertOrFail at h
    cases converted : v.convert t with
    | error y =>
      rw [converted] at h
      cases h
      exact .value y
    | ok w =>
      rw [converted] at h
      cases h
  · cases h
    exact .unsupported _

theorem unfit_of_scalarFor (h : v.scalarFor type = .error x) : Unfit x := by
  rcases bind_eq_error.1 h with failed | ⟨w, _, h⟩
  · exact unfit_of_convertFor failed
  · split at h
    · cases h
    · split at h
      · cases h
        exact .value _
      · cases h
        exact .unsupported _

theorem unfit_of_bridgeFor (h : v.bridgeFor type = .error x) : Unfit x := by
  rcases bind_eq_error.1 h with failed | ⟨w, _, h⟩
  · exact unfit_of_convertFor failed
  · split at h
    · cases h
    · cases h
      exact .unsupported _

theorem unfit_of_plainFor (h : v.plainFor type = .error x) : Unfit x := by
  induction type generalizing v with
  | array element nullable ih =>
    rw [Value.plainFor] at h
    rcases bind_eq_error.1 h with failed | ⟨items, _, h⟩
    · rcases bind_eq_error.1 failed with failed | ⟨w, _, h⟩
      · exact unfit_of_convertFor failed
      · split at h
        · cases h
        · cases h
          exact .unsupported _
    · rcases bind_eq_error.1 h with failed | ⟨ns, _, h⟩
      · obtain ⟨item, _, failed⟩ := mapM_eq_error failed
        unfold Value.elementFor at failed
        split at failed
        · exact ih failed
        · split at failed
          · cases failed
          · cases failed
            exact .unsupported _
      · cases h
  | value | any => cases h
  | _ =>
    unfold Value.plainFor at h
    first
      | exact unfit_of_scalarFor h
      | cases h
        exact .unsupported _

/-- Besides, bytes may hold no object, for the reason that the serializer gives. -/
def Unreadable (serializer : Serializer) (x : EngineError) : Prop :=
  ∃ b failure, serializer.deserialize b = .error failure ∧ x = .invocation failure.message

theorem unfit_of_readObject {serializer : Serializer} {className : String} {b : List UInt8}
    (h : readObject serializer className b = .error x) : Unfit x ∨ Unreadable serializer x := by
  unfold readObject at h
  split at h
  · next failure unread =>
    cases h
    exact .inr ⟨b, failure, unread, rfl⟩
  · split at h
    · cases h
    · cases h
      exact .inl (.unsupported _)

variable {k : Caller} {adopted later : List Connection} {e f : Engine}

theorem unfit_of_marshalPresent
    (h : (marshalPresent k v type).outcome adopted e = (.error x, later, f)) :
    Unfit x ∨ Unreadable f.serializer x := by
  have connects (g : Engine) : k.dataConnection.outcome adopted g ≠ (.error x, later, f) := by
    obtain ⟨conn, _, made, connects⟩ := outcome_dataConnection k adopted g
    rw [connects]
    nofun
  simp only [marshalPresent] at h
  split at h
  · rcases RunWith.bind_error.1 h with failed | ⟨conn, _, g, _, h⟩
    · exact absurd failed (connects e)
    · rcases RunWith.bind_error.1 h with failed | ⟨o, _, _, _, h⟩
      · obtain ⟨failed, _⟩ := RunWith.onEngine_error.1 failed
        rcases Run.bind_error.1 failed with failed | ⟨engine, _, got, failed⟩
        · cases failed
        · cases got
          obtain ⟨unread, rfl⟩ := Run.ofExcept_error.1 failed
          exact unfit_of_readObject unread
      · cases h
  · split at h
    · rcases RunWith.bind_error.1 h with failed | ⟨content, _, g, converted, h⟩
      · obtain ⟨failed, _⟩ := RunWith.onEngine_error.1 failed
        exact .inl (unfit_of_bridgeFor (Run.ofExcept_error.1 failed).1)
      · obtain ⟨_, rfl⟩ := RunWith.onEngine_ok.1 converted
        rcases RunWith.bind_error.1 h with failed | ⟨conn, _, _, _, h⟩
        · exact absurd failed (connects g)
        · cases h
    · obtain ⟨failed, _⟩ := RunWith.onEngine_error.1 h
      exact .inl (unfit_of_plainFor (Run.ofExcept_error.1 failed).1)

theorem unfit_of_marshalValue {spec : ParamSpec}
    (h : (marshalValue k v spec).outcome adopted e = (.error x, later, f)) :
    Unfit x ∨ Unreadable f.serializer x := by
  unfold marshalValue at h
  split at h
  · cases h
  · split at h
    · cases h
    · rw [← bind_pure_comp] at h
      rcases RunWith.bind_error.1 h with failed | ⟨made, _, g, _, rest⟩
      · exact unfit_of_marshalPresent failed
      · cases rest

/-- The errors that methods have for a number of arguments or of parameters. -/
inductive CountError : EngineError → Prop
  | tooMany (c : Candidate) : CountError c.tooMany
  | tooFew (c : Candidate) (count : Nat) : CountError (c.tooFew count)
  | wrongCount (c : Candidate) (count : Nat) : CountError (c.wrongCount count)

theorem not_countError_of_unfit (unfit : Unfit x) : ¬ CountError x := by
  intro counted
  cases unfit <;> cases counted

end Failures

section Accepted

variable {c : Candidate} {k : Caller} {args : List (Run Value)} {e f : Engine} {i : Nat}
  {adopted : List Connection} {x : EngineError}

/-- That the number of arguments or of parameters is wrong is an error that marshaling can only come
across: in the evaluation of an argument, or in what a serializer says. -/
theorem StopsAt.raised (stops : c.StopsAt k args e i (some x) adopted f) (counted : CountError x) :
    (∃ arg reached, args[i]? = some arg ∧ arg.outcome reached = (.error x, f)) ∨
      Unreadable f.serializer x := by
  obtain ⟨_, _, here, _, refused⟩ := stops
  cases refused with
  | failed fails => exact .inl ⟨_, _, here, fails⟩
  | unconverted _ fails =>
    rcases unfit_of_marshalValue fails with unfit | unread
    · exact absurd counted (not_countError_of_unfit unfit)
    · exact .inr unread

/-- For an accepted number of arguments, marshaling fails only at an argument, and never for a number; and
if it gets through, the frame has the declared shape. -/
theorem marshal_accepted (accepts : c.accepts args.length = true) :
    (∀ x adopted f, (c.marshal k args).outcome [] e = (.error x, adopted, f) →
      ∃ i, c.StopsAt k args e i (some x) adopted f ∧
        (CountError x →
          (∃ arg reached, args[i]? = some arg ∧ arg.outcome reached = (.error x, f)) ∨
            Unreadable f.serializer x)) ∧
    ∀ params adopted f, (c.marshal k args).outcome [] e = (.ok (some params), adopted, f) ↔
      ∃ front values natives, c.Fills k args e front values natives adopted f ∧
        Shaped c front natives params := by
  constructor
  · intro x adopted f failed
    have halts : (c.marshal k args).outcome [] e = (halted (some x), adopted, f) := failed
    obtain ⟨i, stops⟩ := (marshal_eq_halted accepts).1 halts
    exact ⟨i, stops, stops.raised⟩
  · intro params adopted f
    rw [marshal_eq_frame]
    constructor
    · rintro ⟨_, front, values, natives, fills, rfl⟩
      exact ⟨front, values, natives, fills, fills.shaped accepts⟩
    · rintro ⟨front, values, natives, fills, shaped⟩
      exact ⟨accepts, front, values, natives, fills, shaped.unique (fills.shaped accepts)⟩

end Accepted

/-- Takes a connection, a number and any further numbers. -/
def summing : Candidate where
  className := "demo.C"
  method := ⟨"sum", [⟨.connection, false⟩, ⟨.int, false⟩, ⟨.array .int true, false⟩], .long, true, true,
    fun _ => .done .null⟩
  position := 0

/-- Further numbers, be there none or some, are in one array behind the first one. -/
theorem marshal_accepted_three :
    let e : Engine := { sessions := [{ id := 1, user := "SA" }] }
    let params (tail : List NativeValue) : List NativeValue :=
      [.connection ⟨1, 0, "SA", .full⟩, .int 1, .array tail]
    let marshal (args : List Value) := ((summing.marshal ⟨1, false⟩ (args.map pure)).outcome [] e).1
    summing.accepts 0 = false ∧ summing.accepts 1 = true ∧ summing.accepts 3 = true ∧
      marshal [.integer 1] = .ok (some (params [])) ∧
      marshal [.integer 1, .integer 2, .null] = .ok (some (params [.int 2, .null])) := by
  intro e params marshal
  have none : summing.accepts 1 = true := by decide
  have two : summing.accepts 3 = true := by decide
  have alone : Fills summing ⟨1, false⟩ [pure (.integer 1)] e _ _ _ _ _ :=
    .intro rfl (.cons rfl rfl rfl .nil)
  have more : Fills summing ⟨1, false⟩ [pure (.integer 1), pure (.integer 2), pure .null] e _ _ _ _ _ :=
    .intro rfl (.cons rfl rfl rfl (.cons rfl rfl rfl (.cons rfl rfl rfl .nil)))
  refine ⟨by decide, none, two, ?_, ?_⟩
  · exact congrArg (·.1) ((marshal_accepted none).2 _ _ _ |>.2 ⟨_, _, _, alone, alone.shaped none⟩)
  · exact congrArg (·.1) ((marshal_accepted two).2 _ _ _ |>.2 ⟨_, _, _, more, more.shaped two⟩)

end Candidate

end SqlEngine
