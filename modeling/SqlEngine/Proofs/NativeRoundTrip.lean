import SqlEngine.Proofs.CallFrames
import SqlEngine.Proofs.ConversionResults

/-!
# Round trips through native code

A method of one parameter that gives its parameter back. A value goes out in its native form and comes
back converted to the data type of that form, and it comes back as it went out. So the call is a
conversion to that type, with its errors, and nothing at all where values are handed over as they are.
-/

namespace SqlEngine

namespace NativeType

/-- The types whose native forms lose nothing of a value of their data type. -/
def faithful : List NativeType :=
  [boolean, short, int, long, float, double, decimal, string, bytes, date, time, timestamp,
    sqlArray, blob, clob, sqlXml, resultSet]

variable {type : NativeType}

theorem exists_dataType (h : type ∈ faithful) : ∃ t, type.dataType? = some t := by
  cases type <;> first | exact ⟨_, rfl⟩ | simp [faithful] at h

end NativeType

namespace Value

variable {type : NativeType} {t : DataType} {v w : Value}

theorem ofScalar_of_ofType (listed : type ∈ NativeType.faithful) (scalar : type.isScalar = true)
    (typed : type.dataType? = some t) (h : OfType t v) :
    ∃ n, NativeValue.ofScalar? type v = some n ∧ n.isNull = false ∧
      ∀ serializer, n.toValue serializer = .ok v := by
  cases type with
  | byte => simp [NativeType.faithful] at listed
  | value | connection | array | sqlArray | blob | clob | sqlXml | resultSet | object | any | void =>
    cases scalar
  | _ =>
    cases typed
    cases h
    exact ⟨_, rfl, rfl, fun _ => rfl⟩

theorem bridgeContent_of_ofType (bridged : type.isBridge = true) (typed : type.dataType? = some t)
    (h : OfType t v) : ∃ content, NativeValue.bridgeContent? type v = some content ∧
      content.toValue = v := by
  cases type with
  | sqlArray | blob | clob | sqlXml | resultSet =>
    cases typed
    cases h
    exact ⟨_, rfl, rfl⟩
  | _ => cases bridged

end Value

namespace Candidate

variable {c : Candidate} {k : Caller} {args : List (Run Value)} {type : NativeType} {nullable : Bool}
  {t : DataType} {v w : Value} {adopted last : List Connection} {e f : Engine}

theorem marshalPresent_faithful (listed : type ∈ NativeType.faithful) :
    marshalPresent k v type =
      if type.isBridge then do
        let content ← RunWith.onEngine (Run.ofExcept (v.bridgeFor type))
        return .bridge content (← k.dataConnection)
      else RunWith.onEngine (Run.ofExcept (v.scalarFor type)) := by
  cases type <;> first | rfl | simp [NativeType.faithful] at listed

/-- A native form of a faithful type stands for the converted value. -/
theorem marshals_converted (k : Caller) (adopted : List Connection) (e : Engine)
    (listed : type ∈ NativeType.faithful) (typed : type.dataType? = some t)
    (present : v.isNull = false) (h : v.convert t = .ok w) :
    ∃ n later f, (marshalPresent k v type).outcome adopted e = (.ok n, later, f) ∧
      n.isNull = false ∧ ∀ serializer, n.toValue serializer = .ok w := by
  have converted := Value.convertFor_eq_ok.2 ⟨t, typed, h⟩
  rw [Value.convert_of_present present] at h
  have ofType := Value.ofType_of_convertPresent h
  rw [marshalPresent_faithful listed]
  by_cases bridged : type.isBridge = true
  · obtain ⟨content, read, same⟩ := Value.bridgeContent_of_ofType bridged typed ofType
    obtain ⟨conn, later, f, connects⟩ := outcome_dataConnection k adopted e
    have made : v.bridgeFor type = .ok content := by
      refine bind_eq_ok.2 ⟨w, converted, ?_⟩
      rw [read]
      rfl
    rw [if_pos bridged]
    refine ⟨.bridge content conn, later, f, ?_, rfl, fun _ => congrArg Except.ok same⟩
    refine RunWith.bind_ok.2 ⟨content, adopted, e, ?_, RunWith.bind_ok.2 ⟨conn, later, f, connects, rfl⟩⟩
    exact RunWith.onEngine_ok.2 ⟨Run.ofExcept_ok.2 ⟨made, rfl⟩, rfl⟩
  · have scalar : type.isScalar = true := by
      cases type <;> first | rfl | simp [NativeType.faithful, NativeType.isBridge] at listed bridged
    obtain ⟨n, read, notNull, same⟩ := Value.ofScalar_of_ofType listed scalar typed ofType
    have made : v.scalarFor type = .ok n := by
      refine bind_eq_ok.2 ⟨w, converted, ?_⟩
      rw [read]
      rfl
    rw [if_neg bridged]
    exact ⟨n, adopted, e, RunWith.onEngine_ok.2 ⟨Run.ofExcept_ok.2 ⟨made, rfl⟩, rfl⟩, notNull, same⟩

theorem marshal_fails (listed : type ∈ NativeType.faithful) (typed : type.dataType? = some t)
    {x : ValueError} (h : v.convert t = .error x) :
    (marshalPresent k v type).outcome adopted e = (.error (.value x), adopted, e) := by
  have failed : v.convertFor type = .error (.value x) := by
    rw [Value.convertFor, typed]
    simp only [Value.convertOrFail, h]
    rfl
  rw [marshalPresent_faithful listed]
  split
  · rw [Value.bridgeFor, failed]
    rfl
  · rw [Value.scalarFor, failed]
    rfl

/-- Marshaling for one parameter that is no connection and no tail. -/
theorem outcome_marshal_one (params : c.method.params = [⟨type, nullable⟩])
    (apart : type ≠ .connection) (alone : c.tailSpec? = none) :
    (c.marshal k [pure v]).outcome adopted e =
      match (marshalValue k v ⟨type, nullable⟩).outcome adopted e with
      | (.error x, last, f) => (.error x, last, f)
      | (.ok made, last, f) => (.ok (made.map fun n => [n]), last, f) := by
  have unconnected : c.takesConnection = false := by
    rw [takesConnection, params]
    simpa using apart
  have fixed : c.isVariadic = false := by rw [isVariadic, alone]; rfl
  have met : c.specAt? 0 = some ⟨type, nullable⟩ := by
    rw [specAt?, alone, columns, unconnected, params]
    rfl
  have width (n : NativeValue) : c.arrange none [n] = [n] := by
    rw [arrange, fixed]
    rfl
  rw [marshal_eq, RunWith.outcome_bind, openFront, unconnected]
  simp only [Bool.false_eq_true, if_false, RunWith.outcome_pure]
  rw [marshalBehind, fixed]
  simp only [Bool.false_eq_true, false_and, if_false, marshalFrom, met]
  rw [RunWith.outcome_bind, RunWith.outcome_bind, RunWith.outcome_onEngine, Run.outcome_pure]
  dsimp only
  rw [RunWith.outcome_bind]
  generalize (marshalValue k v ⟨type, nullable⟩).outcome adopted e = o
  obtain ⟨made, last, f⟩ := o
  cases made with
  | error x => rfl
  | ok made =>
    cases made with
    | none => rfl
    | some n => exact checked_ok.2 ⟨[n], rfl, (width n).symm, by rw [params]; rfl, rfl, rfl⟩

/-- A method of one parameter that gives back what it gets. -/
structure Echoes (c : Candidate) (type : NativeType) (nullable : Bool) : Prop where
  params : c.method.params = [⟨type, nullable⟩]
  returnType : c.method.returnType = type
  body : ∀ frame, c.method.body frame = .ofExcept (frame.param 0)

namespace Echoes

variable (echoes : c.Echoes type nullable)
include echoes

theorem tailSpec (apart : type ∈ NativeType.faithful ∨ type = .value) : c.tailSpec? = none := by
  rw [tailSpec?, echoes.params]
  split
  · rcases apart with listed | rfl
    · cases type <;> first | rfl | simp [NativeType.faithful] at listed
    · rfl
  · rfl

theorem outcome_marshal (apart : type ∈ NativeType.faithful ∨ type = .value) :
    (c.marshal k [pure v]).outcome adopted e =
      match (marshalValue k v ⟨type, nullable⟩).outcome adopted e with
      | (.error x, last, f) => (.error x, last, f)
      | (.ok made, last, f) => (.ok (made.map fun n => [n]), last, f) := by
  refine outcome_marshal_one echoes.params ?_ (echoes.tailSpec apart)
  rintro rfl
  rcases apart with listed | same
  · simp [NativeType.faithful] at listed
  · cases same

/-- What comes back of a native form is its value, in the data type of the result. -/
theorem invoke_of_marshal {n : NativeValue}
    (h : (c.marshal k args).outcome [] e = (.ok (some [n]), last, f)) :
    ∃ serializer, ((c.invoke k args).outcome e).1 = c.finish serializer n := by
  obtain ⟨default, adopted, begun, around⟩ :=
    outcome_openAmbient k last (f.updateSession k.session Session.entered)
  have reaches : ∃ values, c.Reaches k args e values ⟨[n], default⟩ adopted begun :=
    reaches_iff.2 ⟨last, f, h, around⟩
  obtain ⟨values, reached⟩ := reaches
  obtain ⟨before, ends⟩ := outcome_invoke reached
  rw [ends, echoes.body ⟨[n], default⟩]
  exact ⟨_, rfl⟩

theorem finish_value {n : NativeValue} {serializer : Serializer}
    (listed : type ∈ NativeType.faithful) (typed : type.dataType? = some t)
    (notNull : n.isNull = false) (read : n.toValue serializer = .ok w)
    (again : w.convert t = .ok w) : c.finish serializer n = .ok w := by
  have kept : (type == .void) = false := by
    cases type <;> first | rfl | simp [NativeType.faithful] at listed
  rw [finish, notNull, dataType?, echoes.returnType, kept, typed, read]
  exact Value.convertOrFail_eq_ok.2 again

/-- A value that is not null comes back converted, or with the error of the conversion. -/
theorem invoke_of_present (listed : type ∈ NativeType.faithful) (typed : type.dataType? = some t)
    (present : v.isNull = false) :
    ((c.invoke k [pure v]).outcome e).1 = (v.convert t).mapError .value := by
  have marshals : marshalValue k v ⟨type, nullable⟩ = some <$> marshalPresent k v type := by
    have apart : type ≠ .value := by
      rintro rfl
      simp [NativeType.faithful] at listed
    rw [marshalValue, if_neg apart, if_neg (by simp [present])]
  cases converted : v.convert t with
  | error x =>
    have failed : (c.marshal k [pure v]).outcome [] e = (.error (.value x), [], e) := by
      rw [echoes.outcome_marshal (.inl listed), marshals, ← bind_pure_comp, RunWith.outcome_bind,
        marshal_fails listed typed converted]
    exact congrArg (·.1) (outcome_invoke_of_error failed)
  | ok w =>
    obtain ⟨n, later, f, made, notNull, read⟩ :=
      marshals_converted k [] e listed typed present converted
    have marshaled : (c.marshal k [pure v]).outcome [] e = (.ok (some [n]), later, f) := by
      rw [echoes.outcome_marshal (.inl listed), marshals, ← bind_pure_comp, RunWith.outcome_bind, made]
      rfl
    obtain ⟨serializer, answered⟩ := echoes.invoke_of_marshal marshaled
    rw [answered]
    rw [Value.convert_of_present present] at converted
    exact echoes.finish_value listed typed notNull (read serializer)
      (Value.convert_again converted)

/-- A null comes back, whether it was handed over or the call was skipped. -/
theorem invoke_of_null (listed : type ∈ NativeType.faithful) (null : v.isNull = true)
    (full : k.columnList = false) : ((c.invoke k [pure v]).outcome e).1 = .ok .null := by
  have apart : type ≠ .value := by
    rintro rfl
    simp [NativeType.faithful] at listed
  have marshaled : (c.marshal k [pure v]).outcome [] e = _ := echoes.outcome_marshal (.inl listed)
  rw [marshalValue, if_neg apart, if_pos null] at marshaled
  cases nullable with
  | true =>
    obtain ⟨serializer, answered⟩ := echoes.invoke_of_marshal marshaled
    exact answered
  | false =>
    rw [full] at marshaled
    exact congrArg (·.1) (outcome_invoke_of_none marshaled)

theorem invoke_of_value (same : type = .value) : ((c.invoke k [pure v]).outcome e).1 = .ok v := by
  subst same
  obtain ⟨serializer, answered⟩ := echoes.invoke_of_marshal (echoes.outcome_marshal (.inr rfl))
  rw [answered, finish, dataType?, echoes.returnType]
  rfl

/-- To call a method that gives back what it gets is to convert to the data type of its parameter, and
nothing at all where values are handed over as they are. -/
theorem invokeValues_eq_convert (v : Value) (session : Nat) (e : Engine) :
    (type ∈ NativeType.faithful → ∃ t, type.dataType? = some t ∧
      ((c.invokeValues ⟨session, false⟩ [v]).outcome e).1 = (v.convert t).mapError .value) ∧
    (type = .value → ((c.invokeValues ⟨session, false⟩ [v]).outcome e).1 = .ok v) := by
  constructor
  · intro listed
    obtain ⟨t, typed⟩ := NativeType.exists_dataType listed
    refine ⟨t, typed, ?_⟩
    cases null : v.isNull with
    | false => exact echoes.invoke_of_present listed typed null
    | true =>
      have nothing : v.convert t = .ok .null := by rw [Value.convert, if_pos null]
      rw [nothing]
      exact echoes.invoke_of_null listed null rfl
  · exact echoes.invoke_of_value

end Echoes

/-- Gives back what it gets. -/
def echo (type : NativeType) (nullable : Bool) : Candidate where
  className := "demo.C"
  method := ⟨"f", [⟨type, nullable⟩], type, false, true, fun frame => .ofExcept (frame.param 0)⟩
  position := 0

/-- A text comes back as a large one, and what is no number does not come back at all. -/
theorem invokeValues_eq_convert_text :
    (((echo .clob false).invokeValues ⟨1, false⟩ [.varchar "a"]).outcome {}).1 = .ok (.clob "a") ∧
      (((echo .int true).invokeValues ⟨1, false⟩ [.varchar "a"]).outcome {}).1 =
        .error (.value (.malformed .integer "a")) ∧
      (((echo .value false).invokeValues ⟨1, false⟩ [.null]).outcome {}).1 = .ok .null := by
  have clob := Echoes.invokeValues_eq_convert (c := echo .clob false) ⟨rfl, rfl, fun _ => rfl⟩
  have int := Echoes.invokeValues_eq_convert (c := echo .int true) ⟨rfl, rfl, fun _ => rfl⟩
  have value := Echoes.invokeValues_eq_convert (c := echo .value false) ⟨rfl, rfl, fun _ => rfl⟩
  obtain ⟨_, typed, back⟩ := (clob (.varchar "a") 1 {}).1 (by decide)
  obtain ⟨_, counted, failed⟩ := (int (.varchar "a") 1 {}).1 (by decide)
  cases typed
  cases counted
  exact ⟨back, failed, (value .null 1 {}).2 rfl⟩

end Candidate

end SqlEngine
