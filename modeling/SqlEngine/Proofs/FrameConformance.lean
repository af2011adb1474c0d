import Mathlib.Data.List.Forall2
import SqlEngine.Proofs.MarshaledFrames

/-!
# Conformance of frames

What a body may rely on in its frame. A declared type names the native forms that its parameter can have,
and which one of them it is depends on the value alone; an array conforms if all its elements do, to
whatever depth. A null is there only where the declaration takes one.
-/

namespace SqlEngine

/-- The value converts to a data type, and the native form has what the converted value has. -/
def Reads {α : Type} (t : DataType) (value : α → Value) (native : α → NativeValue) (v : Value)
    (n : NativeValue) : Prop :=
  ∃ a, v.convert t = .ok (value a) ∧ n = native a

/-- The value converts to a data type, and a connection leads to what the converted value has. -/
def Bridges {α : Type} (t : DataType) (value : α → Value) (content : α → BridgeContent) (v : Value)
    (n : NativeValue) : Prop :=
  ∃ on, Reads t value (fun a => .bridge (content a) on) v n

/-- A null takes the place of a native form where that is allowed. -/
def OrNull (nullable : Bool) (Form : Value → NativeValue → Prop) (v : Value) (n : NativeValue) : Prop :=
  if v.isNull then nullable = true ∧ n = .null else Form v n

/-- The native form of a value that is not null, as a declared type names it. No value takes the form of a
connection. -/
def Conforms : NativeType → Value → NativeValue → Prop
  | .boolean => Reads .boolean .boolean .boolean
  | .byte => Reads .smallint (fun m : Int8 => .smallint m.toInt16) .byte
  | .short => Reads .smallint .smallint .short
  | .int => Reads .integer .integer .int
  | .long => Reads .bigint .bigint .long
  | .float => Reads .real .real .float
  | .double => Reads .double .double .double
  | .decimal => Reads .anyDecimal .decimal .decimal
  | .string => Reads .anyVarchar .varchar .string
  | .bytes => Reads .varbinary .varbinary .bytes
  | .date => Reads .date .date .date
  | .time => Reads .time .time .time
  | .timestamp => Reads .timestamp .timestamp .timestamp
  | .value => fun v n => n = .value v
  | .any => fun v n => n = .ofValue v
  | .array element nullable => fun v n => ∃ items natives, v.convert .array = .ok (.array items) ∧
      n = .array natives ∧ List.Forall₂ (OrNull nullable (Conforms element)) items natives
  | .sqlArray => Bridges .array .array .array
  | .blob => Bridges .blob .blob .blob
  | .clob => Bridges .clob .clob .clob
  | .sqlXml => Bridges .xml .xml .xml
  | .resultSet =>
    Bridges .resultSet (fun table : List ResultColumn × List (List Value) => .resultSet table.1 table.2)
      fun table => .resultSet table.1 table.2
  | .object className => fun v n =>
      ∃ b o, v = .object b ∧ n = .object o ∧ o.className = className
  | .connection | .void => fun _ _ => False

/-- The native form of any value for a parameter. A `value` parameter holds the value itself, be it null
or not. -/
def Fits (spec : ParamSpec) (v : Value) (n : NativeValue) : Prop :=
  if spec.type = .value then n = .value v else OrNull spec.nullable (Conforms spec.type) v n

section Nulls

variable {type : NativeType} {v : Value} {n : NativeValue}

theorem isNull_ofValue (present : v.isNull = false) : (NativeValue.ofValue v).isNull = false := by
  cases v with
  | null => cases present
  | _ => rfl

/-- A form of a value that is not null is not null. -/
theorem Conforms.isNull (conforms : Conforms type v n) (present : v.isNull = false) :
    n.isNull = false := by
  cases type with
  | any =>
    rw [show n = .ofValue v from conforms]
    exact isNull_ofValue present
  | value =>
    rw [show n = .value v from conforms]
    rfl
  | array =>
    obtain ⟨_, _, _, rfl, _⟩ := conforms
    rfl
  | object =>
    obtain ⟨_, _, _, rfl, _⟩ := conforms
    rfl
  | sqlArray | blob | clob | sqlXml | resultSet =>
    obtain ⟨_, _, _, rfl⟩ := conforms
    rfl
  | connection | void => exact conforms.elim
  | _ =>
    obtain ⟨_, _, rfl⟩ := conforms
    rfl

theorem Fits.nullable {spec : ParamSpec} (fits : Fits spec v n) (null : n.isNull = true) :
    spec.nullable = true := by
  unfold Fits OrNull at fits
  split at fits
  · rw [fits] at null
    cases null
  · split at fits
    · exact fits.1
    · next present =>
      rw [fits.isNull (by simpa using present)] at null
      cases null

end Nulls

theorem forall₂_of_mapM {ε α β : Type} {f : α → Except ε β} {R : α → β → Prop}
    (each : ∀ x y, f x = .ok y → R x y) {xs : List α} {ys : List β} (h : xs.mapM f = .ok ys) :
    List.Forall₂ R xs ys := by
  induction xs generalizing ys with
  | nil =>
    cases h
    exact .nil
  | cons x r ih =>
    rw [List.mapM_cons] at h
    obtain ⟨y, first, h⟩ := bind_eq_ok.1 h
    obtain ⟨rest, others, same⟩ := bind_eq_ok.1 h
    cases same
    exact .cons (each x y first) (ih others)

namespace Value

variable {type : NativeType} {t : DataType} {v w : Value} {n : NativeValue}

theorem ofByte_eq_some {k : Int16} (h : NativeValue.ofByte? k = some n) :
    ∃ m : Int8, k = m.toInt16 ∧ n = .byte m := by
  unfold NativeValue.ofByte? at h
  split at h
  · next range =>
    cases h
    refine ⟨_, ?_, rfl⟩
    apply Int16.toInt_inj.1
    rw [Int8.toInt_toInt16, Int8.toInt_ofInt_of_le (by omega) (by omega)]
  · cases h

theorem conforms_of_scalarFor (h : v.scalarFor type = .ok n) : Conforms type v n := by
  obtain ⟨w, converted, rest⟩ := bind_eq_ok.1 h
  obtain ⟨t, typed, converts⟩ := convertFor_eq_ok.1 converted
  cases read : NativeValue.ofScalar? type w with
  | none =>
    rw [read] at rest
    simp only [] at rest
    split at rest <;> cases rest
  | some m =>
    rw [read] at rest
    cases rest
    unfold NativeValue.ofScalar? at read
    split at read
    -- Of all scalars only a byte is read off a wider number.
    case h_2 =>
      cases typed
      obtain ⟨m, rfl, rfl⟩ := ofByte_eq_some read
      exact ⟨m, converts, rfl⟩
    case h_14 => cases read
    all_goals
      cases typed
      cases read
      exact ⟨_, converts, rfl⟩

theorem conforms_of_plainFor (h : v.plainFor type = .ok n) : Conforms type v n := by
  induction type generalizing v n with
  | array element nullable ih =>
    rw [plainFor] at h
    obtain ⟨items, read, h⟩ := bind_eq_ok.1 h
    obtain ⟨natives, made, same⟩ := bind_eq_ok.1 h
    cases same
    obtain ⟨w, converted, array⟩ := bind_eq_ok.1 read
    obtain ⟨t, typed, converts⟩ := convertFor_eq_ok.1 converted
    cases typed
    have same : w = .array items := by
      split at array <;> cases array
      rfl
    rw [same] at converts
    refine ⟨items, natives, converts, rfl, forall₂_of_mapM (fun item m form => ?_) made⟩
    unfold elementFor at form
    unfold OrNull
    split at form
    · next present =>
      rw [if_neg (by simpa using present)]
      exact ih form
    · next null =>
      rw [if_pos (by simpa using null)]
      split at form
      · next allowed =>
        cases form
        exact ⟨allowed, rfl⟩
      · cases form
  | value | any =>
    cases h
    rfl
  | _ =>
    unfold plainFor at h
    first
      | exact conforms_of_scalarFor h
      | cases h

theorem conforms_of_bridgeFor {content : BridgeContent} (h : v.bridgeFor type = .ok content)
    (on : Connection) : Conforms type v (.bridge content on) := by
  obtain ⟨w, converted, rest⟩ := bind_eq_ok.1 h
  obtain ⟨t, typed, converts⟩ := convertFor_eq_ok.1 converted
  cases read : NativeValue.bridgeContent? type w with
  | none =>
    rw [read] at rest
    cases rest
  | some found =>
    rw [read] at rest
    cases rest
    unfold NativeValue.bridgeContent? at read
    split at read
    -- A result set has two parts.
    case h_5 =>
      cases typed
      cases read
      exact ⟨on, (_, _), converts, rfl⟩
    case h_6 => cases read
    all_goals
      cases typed
      cases read
      exact ⟨on, _, converts, rfl⟩

end Value

namespace Candidate

section Frames

variable {c : Candidate} {k : Caller} {args : List (Run Value)} {e f : Engine}
  {adopted later last : List Connection} {v : Value} {n : NativeValue} {type : NativeType}

theorem conforms_of_marshalPresent
    (h : (marshalPresent k v type).outcome adopted e = (.ok n, later, f)) : Conforms type v n := by
  simp only [marshalPresent] at h
  split at h
  · obtain ⟨conn, _, g, _, h⟩ := RunWith.bind_ok.1 h
    obtain ⟨o, _, _, made, h⟩ := RunWith.bind_ok.1 h
    cases h
    obtain ⟨engine, _, got, made⟩ := Run.bind_ok.1 (RunWith.onEngine_ok.1 made).1
    cases got
    obtain ⟨read, _⟩ := Run.ofExcept_ok.1 made
    unfold readObject at read
    split at read
    · cases read
    · split at read
      · next declared =>
        cases read
        exact ⟨_, _, rfl, rfl, by simpa [NativeObject.isInstanceOf] using declared⟩
      · cases read
  · split at h
    · obtain ⟨content, _, _, made, h⟩ := RunWith.bind_ok.1 h
      obtain ⟨conn, _, _, _, h⟩ := RunWith.bind_ok.1 h
      cases h
      obtain ⟨converted, _⟩ := Run.ofExcept_ok.1 (RunWith.onEngine_ok.1 made).1
      exact Value.conforms_of_bridgeFor converted conn
    · obtain ⟨converted, _⟩ := Run.ofExcept_ok.1 (RunWith.onEngine_ok.1 h).1
      exact Value.conforms_of_plainFor converted

theorem fits_of_marshalValue {spec : ParamSpec} (full : k.columnList = false)
    (h : (marshalValue k v spec).outcome adopted e = (.ok (some n), later, f)) : Fits spec v n := by
  unfold marshalValue at h
  unfold Fits OrNull
  split at h
  · next same =>
    cases h
    rw [if_pos same]
  · next apart =>
    rw [if_neg apart]
    split at h
    · next null =>
      rw [if_pos null]
      rw [full] at h
      cases allowed : spec.nullable with
      | true =>
        rw [allowed] at h
        cases h
        exact ⟨rfl, rfl⟩
      | false =>
        rw [allowed] at h
        cases h
    · next present =>
      rw [if_neg present]
      rw [← bind_pure_comp] at h
      obtain ⟨made, _, g, marshals, rest⟩ := RunWith.bind_ok.1 h
      cases rest
      exact conforms_of_marshalPresent marshals

/-- Every argument got the form that the parameter it meets asks for. -/
theorem Course.fits {index i : Nat} {values : List Value} {natives : List NativeValue}
    (course : Course c k index adopted e args values natives last f) (full : k.columnList = false)
    (given : values[i]? = some v) : ∃ spec n, c.specAt? (index + i) = some spec ∧
      natives[i]? = some n ∧ Fits spec v n := by
  induction course generalizing i with
  | nil => cases given
  | cons met _ marshals _ ih =>
    cases i with
    | zero =>
      cases given
      exact ⟨_, _, met, rfl, fits_of_marshalValue full marshals⟩
    | succ i =>
      obtain ⟨spec, n, met, there, fits⟩ := ih given
      rw [Nat.add_assoc, Nat.add_comm 1 i] at met
      exact ⟨spec, n, met, there, fits⟩

/-- What a declared parameter is in a frame: the connection in front, the form of the argument that it
takes, or an array with the forms of all arguments that are left. -/
inductive Placed (c : Candidate) (values : List Value) (j : Nat) (spec : ParamSpec) : NativeValue → Prop
  | front {conn} (takes : c.takesConnection = true) (first : j = 0) :
      Placed c values j spec (.connection conn)
  | fixed {i v n} (place : j = c.ahead + i) (early : i < c.fixedCount) (given : values[i]? = some v)
      (fits : Fits spec v n) : Placed c values j spec n
  | rest {element natives} (place : j = c.ahead + c.fixedCount) (gathers : c.tailSpec? = some element)
      (declared : spec.type = .array element.type element.nullable)
      (each : List.Forall₂ (Fits element) (values.drop c.fixedCount) natives) :
      Placed c values j spec (.array natives)

theorem Placed.nullable {values : List Value} {j : Nat} {spec : ParamSpec}
    (placed : Placed c values j spec n) (null : n.isNull = true) : spec.nullable = true := by
  cases placed with
  | front => cases null
  | fixed _ _ _ fits => exact fits.nullable null
  | rest => cases null

/-- The arguments behind the fixed ones got the form of the tail. -/
theorem Course.fits_rest {values : List Value} {natives : List NativeValue} {element : ParamSpec}
    (course : Course c k 0 adopted e args values natives last f) (full : k.columnList = false)
    (gathers : c.tailSpec? = some element) :
    List.Forall₂ (Fits element) (values.drop c.fixedCount) (natives.drop c.fixedCount) := by
  obtain ⟨size, size'⟩ := course.lengths
  apply List.forall₂_iff_get.2
  refine ⟨by rw [List.length_drop, List.length_drop, size, size'], ?_⟩
  intro i within within'
  rw [List.length_drop] at within within'
  have given : values[c.fixedCount + i]? = some values[c.fixedCount + i] :=
    List.getElem?_eq_getElem (by omega)
  obtain ⟨spec, n, met, there, fits⟩ := course.fits full given
  rw [Nat.zero_add, specAt?_of_tail gathers (Nat.le_add_right _ i)] at met
  rw [List.getElem?_eq_getElem (by omega)] at there
  cases met
  cases there
  rw [List.get_eq_getElem, List.get_eq_getElem, List.getElem_drop, List.getElem_drop]
  exact fits

theorem Fills.placed {front : Option Connection} {values : List Value} {natives : List NativeValue}
    {j : Nat} {spec : ParamSpec} (fills : c.Fills k args e front values natives last f)
    (accepts : c.accepts args.length = true) (full : k.columnList = false)
    (declared : c.method.params[j]? = some spec) (there : (c.arrange front natives)[j]? = some n) :
    Placed c values j spec n := by
  have shaped := fills.shaped accepts
  cases fills with
  | intro inFront course =>
    obtain ⟨within, _⟩ := List.getElem?_eq_some_iff.1 declared
    rcases place_cases within with ⟨takes, rfl⟩ | ⟨i, early, rfl⟩ | ⟨variadic, rfl⟩
    · obtain ⟨conn, _, first⟩ := shaped.connected takes
      cases first.symm.trans there
      exact .front takes rfl
    · have enough := shaped.enough
      obtain ⟨size, size'⟩ := course.lengths
      have given : values[i]? = some values[i] := List.getElem?_eq_getElem (by omega)
      obtain ⟨spec', n', met, made, fits⟩ := course.fits full given
      rw [Nat.zero_add, specAt?_of_fixed early, declared] at met
      rw [shaped.fixed i early, made] at there
      cases met
      cases there
      exact .fixed rfl early given fits
    · obtain ⟨size, last⟩ := shaped.rest variadic
      obtain ⟨element, gathers⟩ := Option.isSome_iff_exists.1 variadic
      obtain ⟨_, outer, tail⟩ := tailSpec?_eq_some.1 gathers
      cases last.symm.trans there
      refine .rest rfl gathers ?_ (course.fits_rest full gathers)
      have count := shaped.count
      rw [List.getLast?_eq_getElem?, show c.method.params.length - 1 = c.ahead + c.fixedCount by omega,
        declared] at tail
      cases tail
      rfl

/-- A frame that is built outside of a look at the columns conforms to what the method declares: it has an
entry for each parameter, in the form that the parameter names for the values of the arguments, and a null
only where one is allowed. -/
theorem frame_conforms {params : List NativeValue} (full : k.columnList = false)
    (built : (c.marshal k args).outcome [] e = (.ok (some params), adopted, f)) :
    params.length = c.method.params.length ∧
      (∃ front values natives, c.Fills k args e front values natives adopted f) ∧
      ∀ front values natives last g, c.Fills k args e front values natives last g →
        ∀ j spec n, c.method.params[j]? = some spec → params[j]? = some n →
          Placed c values j spec n ∧ (n.isNull = true → spec.nullable = true) := by
  obtain ⟨accepts, front, values, natives, fills, rfl⟩ := marshal_eq_frame.1 built
  refine ⟨(fills.shaped accepts).count, ⟨front, values, natives, fills⟩, ?_⟩
  intro front' values' natives' last g fills' j spec n declared there
  have again := marshal_eq_frame.2 ⟨accepts, _, _, _, fills', rfl⟩
  rw [built, Prod.mk.injEq, Except.ok.injEq, Option.some_inj] at again
  rw [again.1] at there
  have placed := fills'.placed accepts full declared there
  exact ⟨placed, placed.nullable⟩

end Frames

/-- Takes an array of arrays, a value as it is, a small number, anything, a content, and texts. -/
def receiving : Candidate where
  className := "demo.C"
  method := ⟨"receive", [⟨.array (.array .int true) false, false⟩, ⟨.value, false⟩, ⟨.byte, true⟩,
    ⟨.any, false⟩, ⟨.blob, false⟩, ⟨.array .string true, false⟩], .void, true, true,
    fun _ => .done .null⟩
  position := 0

/-- There is a null in an inner array, for the small number and among the texts, but the value that is
handed over as it is holds one. -/
theorem frame_conforms_nested :
    let e : Engine := { sessions := [{ id := 1, user := "SA" }] }
    let k : Caller := ⟨1, false⟩
    let values : List Value := [.array [.array [.varchar "1", .null]], .null, .null, .integer 7,
      .varbinary [0], .varchar "a", .null]
    let params : List NativeValue := [.array [.array [.int 1, .null]], .value .null, .null, .int 7,
      .bridge (.blob [0]) ⟨1, 0, "SA", .full⟩, .array [.string "a", .null]]
    (∃ adopted f, (receiving.marshal k (values.map pure)).outcome [] e = (.ok (some params), adopted, f)) ∧
      ∀ j spec n, receiving.method.params[j]? = some spec → params[j]? = some n →
        Placed receiving values j spec n := by
  intro e k values params
  have through : Fills receiving k (values.map pure) e none values _ _ _ :=
    .intro rfl (.cons rfl rfl rfl (.cons rfl rfl rfl (.cons rfl rfl rfl (.cons rfl rfl rfl
      (.cons rfl rfl rfl (.cons rfl rfl rfl (.cons rfl rfl rfl .nil)))))))
  have built : (receiving.marshal k (values.map pure)).outcome [] e = (.ok (some params), _, _) :=
    marshal_eq_frame.2 ⟨by decide, none, values, _, through, rfl⟩
  have placed := (frame_conforms rfl built).2.2 none values _ _ _ through
  exact ⟨⟨_, _, built⟩, fun j spec n declared there => (placed j spec n declared there).1⟩

end Candidate

end SqlEngine
