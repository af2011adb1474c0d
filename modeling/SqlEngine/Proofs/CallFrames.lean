import SqlEngine.Proofs.Outcomes
import SqlEngine.Proofs.SessionState

/-!
# Frames of calls

What a call hands to its body. Marshaling that gets through takes a course: every argument has its value
and its native form, and the data connection is made at the first one that needs it and kept from then
on. So all connections that are reached through the native forms of arguments are one, and there is one
exactly if an argument that is not null meets a parameter of a bridge type.
-/

namespace SqlEngine

namespace NativeValue

mutual

/-- The connections that can be reached through a native value. -/
def connections : NativeValue → List Connection
  | connection c => [c]
  | bridge _ c => [c]
  | array items => allConnections items
  | _ => []

def allConnections : List NativeValue → List Connection
  | [] => []
  | v :: r => v.connections ++ allConnections r

end

theorem allConnections_append (ns ms : List NativeValue) :
    allConnections (ns ++ ms) = allConnections ns ++ allConnections ms := by
  induction ns with
  | nil => rfl
  | cons n r ih => simp only [List.cons_append, allConnections, ih, List.append_assoc]

theorem allConnections_eq_nil {ns : List NativeValue} (h : ∀ n ∈ ns, n.connections = []) :
    allConnections ns = [] := by
  induction ns with
  | nil => rfl
  | cons n r ih =>
    rw [allConnections, h n List.mem_cons_self, ih fun m hm => h m (List.mem_cons_of_mem n hm)]
    rfl

mutual

theorem connections_ofValue : ∀ v : Value, (ofValue v).connections = []
  | .array items => allConnections_ofValues items
  | .null | .boolean _ | .smallint _ | .integer _ | .bigint _ | .decimal _ | .real _ | .double _
  | .char _ | .varchar _ | .clob _ | .xml _ | .varbinary _ | .blob _ | .date _ | .time _
  | .timestamp _ | .resultSet .. | .object _ => rfl

theorem allConnections_ofValues : ∀ items : List Value, allConnections (ofValues items) = []
  | [] => rfl
  | v :: r => by
    rw [ofValues, allConnections, connections_ofValue v, allConnections_ofValues r]
    rfl

end

theorem connections_defaultOf (type : NativeType) : (defaultOf type).connections = [] := by
  cases type <;> rfl

theorem connections_ofScalar {type : NativeType} {v : Value} {n : NativeValue}
    (h : ofScalar? type v = some n) : n.connections = [] := by
  unfold ofScalar? at h
  split at h
  case h_2 =>
    rw [ofByte?] at h
    split at h
    · cases h
      rfl
    · cases h
  case h_14 => cases h
  all_goals
    cases h
    rfl

end NativeValue

theorem forall_of_mapM {ε α β : Type} {f : α → Except ε β} {P : β → Prop}
    (each : ∀ x y, f x = .ok y → P y) {xs : List α} {ys : List β} (h : xs.mapM f = .ok ys) :
    ∀ y ∈ ys, P y := by
  induction xs generalizing ys with
  | nil =>
    cases h
    exact nofun
  | cons x r ih =>
    rw [List.mapM_cons] at h
    obtain ⟨z, first, rest⟩ := bind_eq_ok.1 h
    obtain ⟨zs, others, same⟩ := bind_eq_ok.1 rest
    cases same
    intro y hy
    rcases List.mem_cons.1 hy with rfl | hy
    · exact each x y first
    · exact ih others y hy

namespace Value

theorem convertFor_eq_ok {type : NativeType} {v w : Value} : v.convertFor type = .ok w ↔
    ∃ t, type.dataType? = some t ∧ v.convert t = .ok w := by
  unfold convertFor
  cases type.dataType? with
  | none => exact ⟨nofun, nofun⟩
  | some t =>
    rw [convertOrFail_eq_ok]
    constructor
    · intro converted
      exact ⟨t, rfl, converted⟩
    · rintro ⟨_, same, converted⟩
      cases same
      exact converted

theorem connections_scalarFor {v : Value} {type : NativeType} {n : NativeValue}
    (h : v.scalarFor type = .ok n) : n.connections = [] := by
  obtain ⟨w, _, rest⟩ := bind_eq_ok.1 h
  cases read : NativeValue.ofScalar? type w with
  | some m =>
    rw [read] at rest
    cases rest
    exact NativeValue.connections_ofScalar read
  | none =>
    rw [read] at rest
    simp only [] at rest
    split at rest <;> cases rest

/-- Nothing that is marshaled without a connection leads to one. -/
theorem connections_plainFor (type : NativeType) {v : Value} {n : NativeValue}
    (h : v.plainFor type = .ok n) : n.connections = [] := by
  induction type generalizing v n with
  | array element nullable ih =>
    rw [plainFor] at h
    obtain ⟨items, _, rest⟩ := bind_eq_ok.1 h
    obtain ⟨ns, made, same⟩ := bind_eq_ok.1 rest
    cases same
    refine NativeValue.allConnections_eq_nil (forall_of_mapM (fun item m form => ?_) made)
    rw [elementFor] at form
    split at form
    · exact ih form
    · split at form
      · cases form
        rfl
      · cases form
  | value =>
    cases h
    rfl
  | any =>
    cases h
    exact NativeValue.connections_ofValue v
  | _ =>
    unfold plainFor at h
    first
      | exact connections_scalarFor h
      | cases h

end Value

/-- The connections that a body can reach from its frame. -/
def CallFrame.connections (f : CallFrame) : List Connection :=
  f.defaultConnection.toList ++ NativeValue.allConnections f.params

/-- What marshaling makes of a value: a native form that leads to no connection, or one that was made
over the data connection. Only bridges lead to it. -/
inductive Handed (k : Caller) (adopted : List Connection) (e : Engine) (v : Value) (type : NativeType) :
    NativeValue → List Connection → Engine → Prop
  | plain {n : NativeValue} (apart : v.isNull = true ∨ type.isBridge = false)
      (unconnected : n.connections = []) : Handed k adopted e v type n adopted e
  | object {conn : Connection} {later : List Connection} {f : Engine} (o : NativeObject)
      (apart : type.isBridge = false)
      (connects : k.dataConnection.outcome adopted e = (.ok conn, later, f)) :
      Handed k adopted e v type (.object o) later f
  | bridge {conn : Connection} {later : List Connection} {f : Engine} (content : BridgeContent)
      (present : v.isNull = false) (bridged : type.isBridge = true)
      (connects : k.dataConnection.outcome adopted e = (.ok conn, later, f)) :
      Handed k adopted e v type (.bridge content conn) later f

section Marshaling

variable {k : Caller} {adopted later : List Connection} {e f : Engine} {v : Value} {n : NativeValue}
  {conn : Connection}

theorem adopts_connect {id : Nat} {mode : ConnectionMode} :
    (CallRun.connect id mode).outcome adopted e = (.ok conn, later, f) ↔
      (Run.connect id mode).outcome e = (.ok conn, f) ∧ later = adopted ++ [conn] := by
  rw [CallRun.outcome_connect]
  constructor
  · intro h
    cases h
    exact ⟨rfl, rfl⟩
  · rintro ⟨connects, rfl⟩
    cases connects
    rfl

/-- The data connection is the first one that the call has, or else it is made as a full one, whoever
calls. -/
theorem dataConnection_cases (connects : k.dataConnection.outcome adopted e = (.ok conn, later, f)) :
    (adopted.head? = some conn ∧ later = adopted ∧ f = e) ∨
      (adopted = [] ∧ later = [conn] ∧ (Run.connect k.session .full).outcome e = (.ok conn, f)) := by
  cases adopted with
  | nil =>
    obtain ⟨made, rfl⟩ := adopts_connect.1 connects
    exact .inr ⟨rfl, rfl, made⟩
  | cons first rest =>
    cases connects
    exact .inl ⟨rfl, rfl, rfl⟩

theorem head_of_dataConnection (connects : k.dataConnection.outcome adopted e = (.ok conn, later, f)) :
    later.head? = some conn := by
  rcases dataConnection_cases connects with ⟨first, rfl, _⟩ | ⟨_, rfl, _⟩
  · exact first
  · rfl

theorem handed_of_present {type : NativeType} (present : v.isNull = false)
    (h : (Candidate.marshalPresent k v type).outcome adopted e = (.ok n, later, f)) :
    Handed k adopted e v type n later f := by
  simp only [Candidate.marshalPresent] at h
  split at h
  · obtain ⟨conn, _, g, connects, h⟩ := RunWith.bind_ok.1 h
    obtain ⟨o, _, _, read, h⟩ := RunWith.bind_ok.1 h
    obtain ⟨found, rfl⟩ := RunWith.onEngine_ok.1 read
    obtain ⟨engine, _, got, found⟩ := Run.bind_ok.1 found
    cases got
    obtain ⟨_, rfl⟩ := Run.ofExcept_ok.1 found
    cases h
    exact .object o rfl connects
  · split at h
    · next bridged =>
      obtain ⟨content, _, _, converted, h⟩ := RunWith.bind_ok.1 h
      obtain ⟨made, rfl⟩ := RunWith.onEngine_ok.1 converted
      obtain ⟨_, rfl⟩ := Run.ofExcept_ok.1 made
      obtain ⟨conn, _, g, connects, h⟩ := RunWith.bind_ok.1 h
      cases h
      exact .bridge content present bridged connects
    · next bridgeless =>
      obtain ⟨converted, rfl⟩ := RunWith.onEngine_ok.1 h
      obtain ⟨made, rfl⟩ := Run.ofExcept_ok.1 converted
      exact .plain (.inr (by simpa using bridgeless)) (Value.connections_plainFor _ made)

theorem handed_of_marshalValue {spec : ParamSpec}
    (h : (Candidate.marshalValue k v spec).outcome adopted e = (.ok (some n), later, f)) :
    Handed k adopted e v spec.type n later f := by
  simp only [Candidate.marshalValue] at h
  split at h
  · next same =>
    cases h
    exact .plain (.inr (by rw [same]; rfl)) rfl
  · split at h
    · next null =>
      split at h
      · cases h
        exact .plain (.inl null) rfl
      · split at h
        · cases h
          exact .plain (.inl null) (NativeValue.connections_defaultOf _)
        · cases h
    · next notNull =>
      rw [← bind_pure_comp] at h
      obtain ⟨made, _, g, present, h⟩ := RunWith.bind_ok.1 h
      cases h
      exact handed_of_present (by simpa using notNull) present

/-- Where there is a data connection it stays. -/
theorem Handed.keeps {type : NativeType} (h : Handed k adopted e v type n later f)
    (there : adopted.head? = some conn) : later.head? = some conn := by
  have kept {o : Connection} (connects : k.dataConnection.outcome adopted e = (.ok o, later, f)) :
      later.head? = some conn := by
    rcases dataConnection_cases connects with ⟨_, rfl, _⟩ | ⟨rfl, _⟩
    · exact there
    · cases there
  cases h with
  | plain => exact there
  | object _ _ connects => exact kept connects
  | bridge _ _ _ connects => exact kept connects

/-- A data connection is the one that there was, or else it was made as a full one, whoever calls. -/
theorem Handed.made {type : NativeType} (h : Handed k adopted e v type n later f)
    (opened : later.head? = some conn) :
    adopted.head? = some conn ∨ adopted = [] ∧ (Run.connect k.session .full).Gives conn := by
  have connected {o : Connection} (connects : k.dataConnection.outcome adopted e = (.ok o, later, f)) :
      adopted.head? = some conn ∨ adopted = [] ∧ (Run.connect k.session .full).Gives conn := by
    rcases dataConnection_cases connects with ⟨_, rfl, _⟩ | ⟨missing, rfl, made⟩
    · exact .inl opened
    · cases opened
      exact .inr ⟨missing, e, f, made⟩
  cases h with
  | plain => exact .inl opened
  | object _ _ connects => exact connected connects
  | bridge _ _ _ connects => exact connected connects

theorem Handed.over_data {type : NativeType} (h : Handed k adopted e v type n later f)
    (reached : conn ∈ n.connections) : later.head? = some conn := by
  cases h with
  | plain _ unconnected =>
    rw [unconnected] at reached
    cases reached
  | object => cases reached
  | bridge _ _ _ connects =>
    rw [NativeValue.connections, List.mem_singleton] at reached
    rw [reached]
    exact head_of_dataConnection connects

theorem Handed.unconnected_iff {type : NativeType} (h : Handed k adopted e v type n later f) :
    n.connections = [] ↔ (!v.isNull && type.isBridge) = false := by
  cases h with
  | plain apart unconnected =>
    refine ⟨fun _ => ?_, fun _ => unconnected⟩
    rcases apart with null | bridgeless
    · rw [null]
      rfl
    · rw [bridgeless, Bool.and_false]
  | object _ apart =>
    refine ⟨fun _ => ?_, fun _ => rfl⟩
    rw [apart, Bool.and_false]
  | bridge _ present bridged =>
    rw [present, bridged]
    exact ⟨nofun, nofun⟩

end Marshaling

namespace Candidate

/-- The candidate with another body and another type of its result. -/
def withBody (c : Candidate) (body : CallFrame → Interaction) (returnType : NativeType) : Candidate :=
  { c with method := { c.method with body := body, returnType := returnType } }

/-- Whether an argument that is not null meets a parameter of a bridge type, from an index on. -/
def bridgesFrom (c : Candidate) (index : Nat) : List Value → Bool
  | [] => false
  | v :: r => (!v.isNull && (c.specAt? index).any (·.type.isBridge)) || c.bridgesFrom (index + 1) r

/-- Marshaling from an index on that gets through: the values of the arguments, their native forms, and
what the call has adopted and the engine at the end. -/
inductive Course (c : Candidate) (k : Caller) :
    Nat → List Connection → Engine → List (Run Value) → List Value → List NativeValue →
      List Connection → Engine → Prop
  | nil {index adopted e} : Course c k index adopted e [] [] [] adopted e
  | cons {index adopted e arg v evaluated spec n later marshaled args values natives last f}
      (met : c.specAt? index = some spec) (evaluates : arg.outcome e = (.ok v, evaluated))
      (marshals :
        (marshalValue k v spec).outcome adopted evaluated = (.ok (some n), later, marshaled))
      (rest : Course c k (index + 1) later marshaled args values natives last f) :
      Course c k index adopted e (arg :: args) (v :: values) (n :: natives) last f

theorem openFront_cases {c : Candidate} {k : Caller} {front : Option Connection}
    {adopted later : List Connection} {e f : Engine}
    (inFront : (c.openFront k).outcome adopted e = (.ok front, later, f)) :
    (c.takesConnection = true ∧ ∃ conn, front = some conn ∧
        (Run.connect k.session k.mode).outcome e = (.ok conn, f) ∧ later = adopted ++ [conn]) ∨
      (c.takesConnection = false ∧ front = none ∧ later = adopted ∧ f = e) := by
  rw [openFront] at inFront
  split at inFront
  · next takes =>
    rw [← bind_pure_comp] at inFront
    obtain ⟨conn, _, g, connects, h⟩ := RunWith.bind_ok.1 inFront
    cases h
    obtain ⟨connects, made⟩ := adopts_connect.1 connects
    exact .inl ⟨takes, conn, rfl, connects, made⟩
  · next takes =>
    cases inFront
    exact .inr ⟨by simpa using takes, rfl, rfl, rfl⟩

/-- The connection in front is the first one of the call. -/
theorem front_adopted {c : Candidate} {k : Caller} {front : Option Connection}
    {adopted : List Connection} {e f : Engine}
    (inFront : (c.openFront k).outcome [] e = (.ok front, adopted, f)) : adopted = front.toList := by
  rcases openFront_cases inFront with ⟨_, conn, rfl, _, rfl⟩ | ⟨_, rfl, rfl, _⟩ <;> rfl

theorem front_of_takesConnection {c : Candidate} {k : Caller} {front : Option Connection}
    {adopted later : List Connection} {e f : Engine}
    (inFront : (c.openFront k).outcome adopted e = (.ok front, later, f))
    (takes : c.takesConnection = true) : ∃ conn, front = some conn := by
  rcases openFront_cases inFront with ⟨_, conn, ahead, _⟩ | ⟨not, _⟩
  · exact ⟨conn, ahead⟩
  · cases takes.symm.trans not

theorem outcome_openFront (c : Candidate) (k : Caller) (adopted : List Connection) (e : Engine) :
    ∃ front later opened, (c.openFront k).outcome adopted e = (.ok front, later, opened) := by
  unfold openFront
  split
  · exact ⟨_, _, _, rfl⟩
  · exact ⟨none, adopted, e, rfl⟩

theorem outcome_dataConnection (k : Caller) (adopted : List Connection) (e : Engine) :
    ∃ conn later f, k.dataConnection.outcome adopted e = (.ok conn, later, f) := by
  cases adopted with
  | nil => exact ⟨_, _, _, rfl⟩
  | cons conn rest => exact ⟨conn, conn :: rest, e, rfl⟩

theorem connect_ok {id : Nat} {mode : ConnectionMode} {conn : Connection} {e f : Engine} :
    (Run.connect id mode).outcome e = (.ok conn, f) ↔
      (e.session id).newConnection mode = conn ∧ e.updateSession id Session.connected = f := by
  constructor
  · intro h
    cases h
    exact ⟨rfl, rfl⟩
  · rintro ⟨rfl, rfl⟩
    rfl

/-- The session after a connection was made. -/
theorem session_connect {id : Nat} {mode : ConnectionMode} {conn : Connection} {e f : Engine}
    (there : id ∈ e.sessionIds) (connects : (Run.connect id mode).outcome e = (.ok conn, f)) :
    f.session id = (e.session id).connected := by
  obtain ⟨_, rfl⟩ := connect_ok.1 connects
  exact Engine.session_updateSession there (e.session_id id)

theorem outcome_openAmbient (k : Caller) (adopted : List Connection) (e : Engine) :
    ∃ default later begun, (openAmbient k).outcome adopted e = (.ok default, later, begun) := by
  unfold openAmbient
  rw [RunWith.outcome_bind]
  cases wanted : e.settings.defaultConnection with
  | true =>
    have asked : ((do return (← get).settings.defaultConnection : Run Bool)).outcome e = (.ok true, e) :=
      congrArg (fun b => (Except.ok b, e)) wanted
    rw [RunWith.outcome_onEngine, asked]
    exact ⟨_, _, _, rfl⟩
  | false =>
    have asked : ((do return (← get).settings.defaultConnection : Run Bool)).outcome e = (.ok false, e) :=
      congrArg (fun b => (Except.ok b, e)) wanted
    rw [RunWith.outcome_onEngine, asked]
    exact ⟨_, _, _, rfl⟩

/-- There is an ambient connection exactly if the settings ask for one. -/
theorem openAmbient_cases {k : Caller} {default : Option Connection} {adopted later : List Connection}
    {e f : Engine} (around : (openAmbient k).outcome adopted e = (.ok default, later, f)) :
    (e.settings.defaultConnection = true ∧ ∃ conn opened, default = some conn ∧
        (Run.connect k.session k.mode).outcome e = (.ok conn, opened) ∧ later = adopted ++ [conn] ∧
        f = opened.updateSession k.session ({ · with ambient := some conn })) ∨
      (e.settings.defaultConnection = false ∧ default = none ∧ later = adopted ∧ f = e) := by
  obtain ⟨wanted, _, _, asked, h⟩ := RunWith.bind_ok.1 around
  cases asked
  split at h
  · next wanted =>
    obtain ⟨made, _, opened, connects, h⟩ := RunWith.bind_ok.1 h
    obtain ⟨_, _, known, sets, h⟩ := RunWith.bind_ok.1 h
    cases sets
    cases h
    obtain ⟨connects, adopts⟩ := adopts_connect.1 connects
    exact .inl ⟨wanted, made, opened, rfl, connects, adopts, rfl⟩
  · next unwanted =>
    cases h
    exact .inr ⟨by simpa using unwanted, rfl, rfl, rfl⟩

/-- An ambient connection is adopted and made known to the session. -/
theorem openAmbient_some {k : Caller} {conn : Connection} {adopted later : List Connection} {e f : Engine}
    (around : (openAmbient k).outcome adopted e = (.ok (some conn), later, f)) :
    ∃ opened, (Run.connect k.session k.mode).outcome e = (.ok conn, opened) ∧ later = adopted ++ [conn] ∧
      f = opened.updateSession k.session ({ · with ambient := some conn }) := by
  rcases openAmbient_cases around with ⟨_, made, opened, same, connects, adopts, known⟩ | ⟨_, missing, _⟩
  · cases same
    exact ⟨opened, connects, adopts, known⟩
  · cases missing

section Courses

variable {c : Candidate} {k : Caller} {args : List (Run Value)} {e f : Engine} {index : Nat}
  {adopted last : List Connection} {values : List Value} {natives : List NativeValue}

theorem course_iff : (c.marshalFrom k index args).outcome adopted e = (.ok (some natives), last, f) ↔
    ∃ values, Course c k index adopted e args values natives last f := by
  induction args generalizing index adopted e natives with
  | nil =>
    constructor
    · intro h
      cases h
      exact ⟨[], .nil⟩
    · rintro ⟨values, course⟩
      cases course
      rfl
  | cons arg rest ih =>
    constructor
    · intro h
      simp only [marshalFrom] at h
      split at h
      · cases h
      · next spec met =>
        obtain ⟨v, _, evaluated, evaluates, h⟩ := RunWith.bind_ok.1 h
        obtain ⟨value, rfl⟩ := RunWith.onEngine_ok.1 evaluates
        obtain ⟨made, later, marshaled, marshals, h⟩ := RunWith.bind_ok.1 h
        cases made with
        | none => cases h
        | some n =>
          obtain ⟨others, _, g, through, h⟩ := RunWith.bind_ok.1 h
          cases others with
          | none => cases h
          | some others =>
            cases h
            obtain ⟨values, course⟩ := ih.1 through
            exact ⟨v :: values, .cons met value marshals course⟩
    · rintro ⟨values, course⟩
      cases course with
      | cons met evaluates marshals course =>
        simp only [marshalFrom, met]
        refine RunWith.bind_ok.2 ⟨_, _, _, RunWith.onEngine_ok.2 ⟨evaluates, rfl⟩, ?_⟩
        refine RunWith.bind_ok.2 ⟨_, _, _, marshals, ?_⟩
        exact RunWith.bind_ok.2 ⟨_, _, _, ih.2 ⟨_, course⟩, rfl⟩

theorem Course.withBody (h : Course c k index adopted e args values natives last f)
    (body : CallFrame → Interaction) (returnType : NativeType) :
    Course (c.withBody body returnType) k index adopted e args values natives last f := by
  induction h with
  | nil => exact .nil
  | cons met evaluates marshals _ ih => exact .cons met evaluates marshals ih

theorem Course.keeps {conn : Connection} (h : Course c k index adopted e args values natives last f)
    (there : adopted.head? = some conn) : last.head? = some conn := by
  induction h with
  | nil => exact there
  | cons _ _ marshals _ ih => exact ih ((handed_of_marshalValue marshals).keeps there)

theorem Course.made {conn : Connection} (h : Course c k index adopted e args values natives last f)
    (opened : last.head? = some conn) :
    adopted.head? = some conn ∨ adopted = [] ∧ (Run.connect k.session .full).Gives conn := by
  induction h with
  | nil => exact .inl opened
  | @cons _ adopted _ _ _ _ _ _ later _ _ _ _ _ _ _ _ marshals rest ih =>
    have handed := handed_of_marshalValue marshals
    rcases ih opened with there | ⟨missing, connected⟩
    · exact handed.made there
    · refine .inr ⟨?_, connected⟩
      cases adopted with
      | nil => rfl
      | cons first others =>
        have kept : later.head? = some first := handed.keeps rfl
        rw [missing] at kept
        cases kept

theorem Course.full {conn : Connection} (h : Course c k index adopted e args values natives last f)
    (missing : adopted = []) (made : last.head? = some conn) : conn.mode = .full := by
  rcases h.made made with given | ⟨_, _, _, connects⟩
  · rw [missing] at given
    cases given
  · obtain ⟨rfl, _⟩ := connect_ok.1 connects
    rfl

/-- All connections that the arguments lead to are the data connection. -/
theorem Course.over_data {conn : Connection} (h : Course c k index adopted e args values natives last f)
    (reached : conn ∈ NativeValue.allConnections natives) : last.head? = some conn := by
  induction h with
  | nil => cases reached
  | cons _ _ marshals rest ih =>
    rcases List.mem_append.1 reached with here | there
    · exact rest.keeps ((handed_of_marshalValue marshals).over_data here)
    · exact ih there

/-- The arguments lead to a connection exactly if one of them is handed over as a bridge. -/
theorem Course.unconnected_iff (h : Course c k index adopted e args values natives last f) :
    NativeValue.allConnections natives = [] ↔ c.bridgesFrom index values = false := by
  induction h with
  | nil => exact ⟨fun _ => rfl, fun _ => rfl⟩
  | cons met _ marshals _ ih =>
    have here := (handed_of_marshalValue marshals).unconnected_iff
    rw [NativeValue.allConnections, List.append_eq_nil_iff, here, ih, bridgesFrom, met,
      Option.any_some, Bool.or_eq_false_iff]

end Courses

theorem allConnections_arrange (c : Candidate) (front : Option Connection) (natives : List NativeValue) :
    NativeValue.allConnections (c.arrange front natives) =
      front.toList ++ NativeValue.allConnections natives := by
  have ahead : NativeValue.allConnections (front.map .connection).toList = front.toList := by
    cases front <;> rfl
  rw [arrange, NativeValue.allConnections_append, ahead]
  split
  · have tail : NativeValue.allConnections [.array (natives.drop c.fixedCount)] =
        NativeValue.allConnections (natives.drop c.fixedCount) := List.append_nil _
    rw [NativeValue.allConnections_append, tail, ← NativeValue.allConnections_append,
      List.take_append_drop]
  · rfl

/-- The call gets to its body: with these values of its arguments, in this frame, and with these
connections adopted and the engine in this state as the body begins. -/
inductive Reaches (c : Candidate) (k : Caller) (args : List (Run Value)) (e : Engine) :
    List Value → CallFrame → List Connection → Engine → Prop
  | intro {front : Option Connection} {first last adopted : List Connection}
      {opened marshaled begun : Engine} {values : List Value} {natives : List NativeValue}
      {frame : CallFrame}
      (inFront : (c.openFront k).outcome [] e = (.ok front, first, opened))
      (enough : ¬ (c.isVariadic = true ∧ args.length < c.fixedCount))
      (course : Course c k 0 first opened args values natives last marshaled)
      (arranged : frame.params = c.arrange front natives)
      (fits : frame.params.length = c.method.params.length)
      (around : (openAmbient k).outcome last (marshaled.updateSession k.session Session.entered) =
        (.ok frame.defaultConnection, adopted, begun)) :
      Reaches c k args e values frame adopted begun

/-- What a call answers once its body is through. -/
def answer (c : Candidate) (frame : CallFrame) (done : Conducted) : Except EngineError Value :=
  match done.result with
  | .error cause => .error (.nativeFailure (callText c.method.name (done.frame.getD frame).params) cause)
  | .ok result => c.finish done.engine.serializer result

/-- The record of a body that was run. -/
def record (c : Candidate) (k : Caller) (frame : CallFrame) (begun : Engine) (done : Conducted) :
    CallRecord :=
  ⟨k.session, c.method.name, frame, (begun.session k.session).ambient, done.remarks⟩

/-- Whatever the body is, the call carries it out in this frame, on this engine, and answers what comes of
it. The journal tells what it did. -/
def Conducts (c : Candidate) (k : Caller) (args : List (Run Value)) (e : Engine) (frame : CallFrame)
    (begun : Engine) : Prop :=
  ∀ body returnType, let d := c.withBody body returnType
    let done := (body frame).conduct begun
    ((d.invoke k args).outcome e).1 = d.answer frame done ∧
      ((d.invoke k args).outcome e).2.journal = done.engine.journal ++ [d.record k frame begun done]

/-- Whatever the body and the type of the result are, they have no part in the call. -/
def IgnoresBody (c : Candidate) (k : Caller) (args : List (Run Value)) (e : Engine) : Prop :=
  ∀ body returnType, ((c.withBody body returnType).invoke k args).outcome e = (c.invoke k args).outcome e

section Bodies

variable {c : Candidate} {k : Caller} {args : List (Run Value)} {e f begun : Engine}
  {values : List Value} {frame : CallFrame} {adopted later : List Connection}

theorem checked_ok {front : Option Connection} {natives : Option (List NativeValue)}
    {params : List NativeValue} :
    (c.checked front natives).outcome adopted e = (.ok (some params), later, f) ↔
      ∃ ns, natives = some ns ∧ params = c.arrange front ns ∧
        params.length = c.method.params.length ∧ adopted = later ∧ e = f := by
  cases natives with
  | none => exact ⟨nofun, nofun⟩
  | some ns =>
    dsimp only [checked]
    split
    · next fits =>
      constructor
      · intro h
        cases h
        exact ⟨ns, rfl, rfl, fits, rfl, rfl⟩
      · rintro ⟨_, same, rfl, _, rfl, rfl⟩
        cases same
        rfl
    · next apart =>
      constructor
      · intro h
        cases h
      · rintro ⟨_, same, rfl, fits, _⟩
        cases same
        exact absurd fits apart

theorem marshalBehind_ok {front : Option Connection} {params : List NativeValue} :
    (c.marshalBehind k args front).outcome adopted e = (.ok (some params), later, f) ↔
      ¬ (c.isVariadic = true ∧ args.length < c.fixedCount) ∧
        ∃ natives, (c.marshalFrom k 0 args).outcome adopted e = (.ok (some natives), later, f) ∧
          params = c.arrange front natives ∧ params.length = c.method.params.length := by
  rw [marshalBehind]
  split
  · next short =>
    constructor
    · intro h
      cases h
    · exact fun h => absurd short h.1
  · next enough =>
    constructor
    · intro h
      obtain ⟨marshaled, _, g, through, h⟩ := RunWith.bind_ok.1 h
      obtain ⟨natives, rfl, arranged, fits, rfl, rfl⟩ := checked_ok.1 h
      exact ⟨enough, natives, through, arranged, fits⟩
    · rintro ⟨_, natives, through, arranged, fits⟩
      exact RunWith.bind_ok.2
        ⟨some natives, later, f, through, checked_ok.2 ⟨natives, rfl, arranged, fits, rfl, rfl⟩⟩

/-- A call gets to its body exactly if marshaling gets through. -/
theorem reaches_iff : (∃ values, c.Reaches k args e values frame adopted begun) ↔
    ∃ last f, (c.marshal k args).outcome [] e = (.ok (some frame.params), last, f) ∧
      (openAmbient k).outcome last (f.updateSession k.session Session.entered) =
        (.ok frame.defaultConnection, adopted, begun) := by
  rw [marshal_eq]
  constructor
  · rintro ⟨values, reached⟩
    cases reached with
    | intro inFront enough course arranged fits around =>
      have through := marshalBehind_ok.2 ⟨enough, _, course_iff.2 ⟨_, course⟩, arranged, fits⟩
      exact ⟨_, _, RunWith.bind_ok.2 ⟨_, _, _, inFront, through⟩, around⟩
  · rintro ⟨last, f, marshaled, around⟩
    obtain ⟨front, first, opened, inFront, behind⟩ := RunWith.bind_ok.1 marshaled
    obtain ⟨enough, natives, through, arranged, fits⟩ := marshalBehind_ok.1 behind
    obtain ⟨values, course⟩ := course_iff.1 through
    exact ⟨values, .intro inFront enough course arranged fits around⟩

/-- A call whose marshaling fails has that error, and all that is left to do is to close. -/
theorem outcome_invoke_of_error {x : EngineError}
    (h : (c.marshal k args).outcome [] e = (.error x, adopted, f)) :
    (c.invoke k args).outcome e = (.error x, f.closeAll adopted) := by
  rw [invoke, CallRun.outcome_closing, RunWith.outcome_bind, h]

/-- A call that is skipped answers null, and all that is left to do is to close. -/
theorem outcome_invoke_of_none (h : (c.marshal k args).outcome [] e = (.ok none, adopted, f)) :
    (c.invoke k args).outcome e = (.ok .null, f.closeAll adopted) := by
  rw [invoke, CallRun.outcome_closing, RunWith.outcome_bind, h]
  rfl

theorem outcome_callMethod (c : Candidate) (k : Caller) (frame : CallFrame) (e : Engine) :
    (c.callMethod k frame).outcome e =
      let done := (c.method.body frame).conduct e
      (c.answer frame done,
        { done.engine with journal := done.engine.journal ++ [c.record k frame e done] }) := by
  rw [callMethod, Run.outcome_bind]
  simp only [Run.native, Run.outcome_ofOutcome, answer]
  cases ((c.method.body frame).conduct e).result <;> rfl

theorem journal_closeAll (e : Engine) (cs : List Connection) : (e.closeAll cs).journal = e.journal := by
  induction cs generalizing e with
  | nil => rfl
  | cons c rest ih => exact ih (e.close c)

/-- A call that gets to its body carries it out there, answers what comes of it, and closes what it has
adopted. -/
theorem outcome_invoke (reached : c.Reaches k args e values frame adopted begun) :
    let done := (c.method.body frame).conduct begun
    ∃ before : Session, (c.invoke k args).outcome e =
      (c.answer frame done,
        ({ done.engine with journal := done.engine.journal ++ [c.record k frame begun done] }.updateSession
          k.session before.exited).closeAll adopted) := by
  obtain ⟨last, f, marshaled, around⟩ := reaches_iff.1 ⟨values, reached⟩
  refine ⟨f.session k.session, ?_⟩
  rw [invoke, CallRun.outcome_closing, RunWith.outcome_bind, marshaled]
  dsimp only
  rw [run_eq, CallRun.outcome_isolated, inside, RunWith.outcome_bind, around]
  dsimp only
  rw [RunWith.outcome_onEngine, outcome_callMethod]

/-- Neither the body nor the type of the result has a part in what the call gets to. -/
theorem Reaches.withBody (reached : c.Reaches k args e values frame adopted begun)
    (body : CallFrame → Interaction) (returnType : NativeType) :
    (c.withBody body returnType).Reaches k args e values frame adopted begun := by
  cases reached with
  | intro inFront enough course arranged fits around =>
    exact .intro inFront enough (course.withBody body returnType) arranged fits around

/-- A call that gets to its body carries it out there. -/
theorem Reaches.conducts (reached : c.Reaches k args e values frame adopted begun) :
    c.Conducts k args e frame begun := by
  intro body returnType d done
  obtain ⟨before, ends⟩ := outcome_invoke (reached.withBody body returnType)
  refine ⟨congrArg (·.1) ends, ?_⟩
  rw [ends, journal_closeAll]
  rfl

theorem marshalFrom_withBody (c : Candidate) (k : Caller) (body : CallFrame → Interaction)
    (returnType : NativeType) (index : Nat) (args : List (Run Value)) :
    (c.withBody body returnType).marshalFrom k index args = c.marshalFrom k index args := by
  induction args generalizing index with
  | nil => rfl
  | cons arg rest ih =>
    have met : (c.withBody body returnType).specAt? index = c.specAt? index := rfl
    simp only [marshalFrom, met, ih]
    rfl

/-- Marshaling looks at the parameters alone. -/
theorem marshal_withBody (c : Candidate) (k : Caller) (args : List (Run Value))
    (body : CallFrame → Interaction) (returnType : NativeType) :
    (c.withBody body returnType).marshal k args = c.marshal k args := by
  unfold marshal
  simp only [marshalFrom_withBody]
  rfl

/-- A call that does not get to its body is the same with every other one. -/
theorem ignoresBody_of_not_reaches
    (stops : ∀ values frame adopted begun, ¬ c.Reaches k args e values frame adopted begun) :
    c.IgnoresBody k args e := by
  intro body returnType
  have same := congrArg (·.outcome [] e) (c.marshal_withBody k args body returnType)
  rcases marshals : (c.marshal k args).outcome [] e with ⟨x | _ | params, last, f⟩
  · exact (outcome_invoke_of_error (same.trans marshals)).trans (outcome_invoke_of_error marshals).symm
  · exact (outcome_invoke_of_none (same.trans marshals)).trans (outcome_invoke_of_none marshals).symm
  · obtain ⟨default, adopted, begun, around⟩ :=
      outcome_openAmbient k last (f.updateSession k.session Session.entered)
    have reaches : ∃ values, c.Reaches k args e values ⟨params, default⟩ adopted begun :=
      reaches_iff.2 ⟨last, f, marshals, around⟩
    obtain ⟨values, reached⟩ := reaches
    exact absurd reached (stops values _ adopted begun)

/-- A body that is carried out has a part in the call, since it may fail or not. -/
theorem Conducts.not_ignoresBody (conducts : c.Conducts k args e frame begun) :
    ¬ c.IgnoresBody k args e := by
  intro ignores
  let failing (_ : CallFrame) : Interaction := .fail ⟨"broken", none⟩
  let idle (_ : CallFrame) : Interaction := .done .null
  have same : ((c.withBody failing .void).invoke k args).outcome e =
      ((c.withBody idle .void).invoke k args).outcome e :=
    (ignores failing .void).trans (ignores idle .void).symm
  have differ := (conducts failing .void).1.symm.trans
    ((congrArg (·.1) same).trans (conducts idle .void).1)
  cases differ

/-- Either the body has no part in the call, or the call gets to it. -/
theorem ignoresBody_iff : c.IgnoresBody k args e ↔
    ∀ values frame adopted begun, ¬ c.Reaches k args e values frame adopted begun :=
  ⟨fun ignores _ _ _ _ reached => reached.conducts.not_ignoresBody ignores, ignoresBody_of_not_reaches⟩

end Bodies

end Candidate

end SqlEngine
