import SqlEngine.Proofs.OpenConnections

/-!
# The context of calls

A body begins in a session that does not commit by itself, and with the ambient connection that the
settings ask for. All connections of its frame are open, since what the arguments of the call opened and
closed meanwhile were others. A call that does not get there is the same whatever its body is.
-/

namespace SqlEngine

/-- The session has given the connection out, and it is open. -/
structure Engine.Holds (e : Engine) (id : Nat) (conn : Connection) : Prop where
  own : conn.session = id
  given : conn.number < (e.session id).nextNumber
  listed : conn.number ∈ (e.session id).openNumbers

/-- What a session holds it still holds after others were opened. -/
theorem OpenedIn.holds {id : Nat} {conn : Connection} {new : List Connection} {e f : Engine}
    (opens : OpenedIn id new e f) (there : id ∈ e.sessionIds) (held : e.Holds id conn) :
    f.Holds id conn := by
  have opened := opens.session there
  have given : conn.number < (f.session id).nextNumber := Nat.lt_of_lt_of_le held.given opened.numbers
  exact ⟨held.own, given, (opened.listed_iff conn.number given).2 (.inr ⟨held.given, held.listed⟩)⟩

theorem Engine.Holds.isOpen {id : Nat} {conn : Connection} {e : Engine} (held : e.Holds id conn) :
    e.isOpen conn = true := by
  rw [Engine.isOpen, held.own, Session.isOpen, List.contains_eq_mem]
  exact decide_eq_true held.listed

theorem holds_connect {id : Nat} {mode : ConnectionMode} {conn : Connection} {e f : Engine}
    (there : id ∈ e.sessionIds) (connects : (Run.connect id mode).outcome e = (.ok conn, f)) :
    f.Holds id conn := by
  have made := Candidate.session_connect there connects
  obtain ⟨rfl, _⟩ := Candidate.connect_ok.1 connects
  refine ⟨e.session_id id, ?_, ?_⟩
  · rw [made]
    exact Nat.lt_succ_self _
  · rw [made]
    exact List.mem_cons_self

namespace Candidate

section Contexts

variable {c : Candidate} {k : Caller} {args : List (Run Value)} {e f begun : Engine}
  {values : List Value} {frame : CallFrame} {conn : Connection} {adopted later last : List Connection}

theorem holds_openFront {front : Option Connection} (there : k.session ∈ e.sessionIds)
    (inFront : (c.openFront k).outcome adopted e = (.ok front, later, f)) (made : front = some conn) :
    f.Holds k.session conn := by
  rcases openFront_cases inFront with ⟨_, other, same, connects, _⟩ | ⟨_, missing, _⟩
  · cases same.symm.trans made
    exact holds_connect there connects
  · cases missing.symm.trans made

section Data

variable {index : Nat} {natives : List NativeValue}

/-- A data connection is one that there was, or it was just made. -/
theorem holds_dataConnection {made : Connection} (there : k.session ∈ e.sessionIds)
    (held : ∀ conn, adopted.head? = some conn → e.Holds k.session conn)
    (connects : k.dataConnection.outcome adopted e = (.ok made, later, f)) : f.Holds k.session made := by
  rcases dataConnection_cases connects with ⟨first, _, rfl⟩ | ⟨_, _, connects⟩
  · exact held made first
  · exact holds_connect there connects

theorem holds_of_handed {v : Value} {n : NativeValue} {type : NativeType}
    (there : k.session ∈ e.sessionIds)
    (held : ∀ conn, adopted.head? = some conn → e.Holds k.session conn)
    (handed : Handed k adopted e v type n later f) (made : later.head? = some conn) :
    f.Holds k.session conn := by
  have connected {other : Connection} (connects : k.dataConnection.outcome adopted e = (.ok other, later, f)) :
      f.Holds k.session conn := by
    cases made.symm.trans (head_of_dataConnection connects)
    exact holds_dataConnection there held connects
  cases handed with
  | plain => exact held conn made
  | object _ _ connects => exact connected connects
  | bridge _ _ _ connects => exact connected connects

/-- The data connection is open at the end of marshaling, whatever the arguments did meanwhile. -/
theorem Course.holds (course : Course c k index adopted e args values natives last f)
    (there : k.session ∈ e.sessionIds) (onArgs : ∀ r ∈ args, r.Relates (LeavesOpen k.session))
    (held : ∀ conn, adopted.head? = some conn → e.Holds k.session conn) (made : last.head? = some conn) :
    f.Holds k.session conn := by
  induction course with
  | nil => exact held conn made
  | @cons _ _ _ _ _ reached _ _ _ _ _ _ _ _ _ _ evaluates marshals _ ih =>
    have evaluated := (onArgs _ List.mem_cons_self).after evaluates
    have still : k.session ∈ reached.sessionIds := by rwa [evaluated.sessions]
    obtain ⟨_, _, marshaled⟩ := ((adopts_calls k.session k.session).marshalValue _ _).after marshals
    have handed := handed_of_marshalValue marshals
    refine ih ?_ (fun r listed => onArgs r (List.mem_cons_of_mem _ listed)) (fun conn opened => ?_) made
    · rwa [marshaled.sessions]
    · exact holds_of_handed still (fun other given => evaluated.holds there (held other given)) handed opened

end Data

/-- What the body of a candidate finds as it begins: of its session, of the default connection, of the
connection in front of its parameters, and of all connections of its frame. -/
structure Context (c : Candidate) (k : Caller) (settings : Settings) (frame : CallFrame)
    (begun : Engine) : Prop where
  autoCommit : (begun.session k.session).autoCommit = false
  default_isSome : frame.defaultConnection.isSome = settings.defaultConnection
  ambient : ∀ conn, frame.defaultConnection = some conn →
    (begun.session k.session).ambient = some conn
  front : c.takesConnection = true → ∃ conn, frame.params.head? = some (.connection conn)
  shared : ∀ a ∈ NativeValue.allConnections frame.params,
    ∀ b ∈ NativeValue.allConnections frame.params, a = b
  own : ∀ conn ∈ frame.connections, conn.session = k.session
  isOpen : ∀ conn ∈ frame.connections, begun.isOpen conn = true

/-- The ambient connection is known to the session, and nothing else was done to the state of it. -/
theorem session_openAmbient {default : Option Connection} (there : k.session ∈ e.sessionIds)
    (around : (openAmbient k).outcome adopted e = (.ok default, later, f)) :
    (f.session k.session).autoCommit = (e.session k.session).autoCommit ∧
      ∀ conn, default = some conn → (f.session k.session).ambient = some conn := by
  rcases openAmbient_cases around with ⟨_, made, opened, rfl, connects, _, rfl⟩ | ⟨_, rfl, _, rfl⟩
  · have connected := session_connect there connects
    obtain ⟨_, rfl⟩ := connect_ok.1 connects
    rw [Engine.session_updateSession (by rwa [Engine.sessionIds_updateSession])
      (Engine.session_id _ k.session), connected]
    exact ⟨rfl, fun conn same => same⟩
  · exact ⟨rfl, nofun⟩

/-- The connections of the parameters are the data connection, which is open as marshaling ends. -/
theorem holds_params {front : Option Connection} {natives : List NativeValue}
    (there : k.session ∈ e.sessionIds) (onArgs : ∀ r ∈ args, r.Relates (LeavesOpen k.session))
    (held : ∀ conn, front = some conn → e.Holds k.session conn)
    (course : Course c k 0 front.toList e args values natives last f)
    (reached : conn ∈ NativeValue.allConnections (c.arrange front natives)) :
    last.head? = some conn ∧ f.Holds k.session conn := by
  rw [← Option.head?_toList (o := front)] at held
  have same : last.head? = some conn := by
    rw [allConnections_arrange] at reached
    rcases List.mem_append.1 reached with ahead | inside
    · refine course.keeps ?_
      rw [Option.head?_toList]
      exact Option.mem_toList.1 ahead
    · exact course.over_data inside
  exact ⟨same, course.holds there onArgs held same⟩

theorem holds_openAmbient (there : k.session ∈ e.sessionIds)
    (around : (openAmbient k).outcome adopted e = (.ok (some conn), later, f)) :
    f.Holds k.session conn := by
  obtain ⟨opened, connects, _, rfl⟩ := openAmbient_some around
  have still : k.session ∈ opened.sessionIds := by
    obtain ⟨_, rfl⟩ := connect_ok.1 connects
    rwa [Engine.sessionIds_updateSession]
  exact (leavesOpen_ambient k.session k.session conn opened).holds still (holds_connect there connects)

/-- Every call that gets to its body does so in a context of this kind, whatever its arguments did. -/
theorem Reaches.context (there : k.session ∈ e.sessionIds) (supplied : ∀ r ∈ args, r.Supplies)
    (reached : c.Reaches k args e values frame adopted begun) : c.Context k e.settings frame begun := by
  have onArgs (r : Run Value) (listed : r ∈ args) := leavesOpen_of_supplies k.session (supplied r listed)
  have calls := adopts_calls k.session k.session
  cases reached with
  | @intro front first last _ opened marshaled _ _ natives _ inFront _ course arranged _ around =>
    obtain ⟨_, _, before⟩ := (calls.openFront c).after inFront
    obtain ⟨_, _, went⟩ := (calls.marshalFrom c args onArgs 0).after (course_iff.2 ⟨_, course⟩)
    obtain ⟨_, _, after⟩ := (adopts_openAmbient k.session k).after around
    have entered := leavesOpen_entered k.session k.session marshaled
    have waited := before.trans (went.trans entered)
    have thereOpened : k.session ∈ opened.sessionIds := by rwa [before.sessions]
    have thereMarshaled : k.session ∈ marshaled.sessionIds := by rwa [went.sessions]
    have thereEntered : k.session ∈ (marshaled.updateSession k.session Session.entered).sessionIds := by
      rwa [waited.sessions]
    rw [front_adopted inFront] at course
    have inParams {conn : Connection} (reached : conn ∈ NativeValue.allConnections frame.params) :=
      holds_params thereOpened onArgs (fun _ => holds_openFront there inFront) course
        (arranged ▸ reached)
    have held : ∀ conn ∈ frame.connections, begun.Holds k.session conn := by
      intro conn reached
      rcases List.mem_append.1 reached with ambient | inside
      · rw [Option.mem_toList.1 ambient] at around
        exact holds_openAmbient thereEntered around
      · exact after.holds thereEntered (entered.holds thereMarshaled (inParams inside).2)
    obtain ⟨commits, known⟩ := session_openAmbient thereEntered around
    constructor
    case autoCommit =>
      rw [commits, Engine.session_updateSession thereMarshaled (marshaled.session_id k.session)]
      rfl
    case default_isSome =>
      rcases openAmbient_cases around with ⟨wanted, _, _, same, _⟩ | ⟨unwanted, missing, _⟩
      · rw [same, ← waited.settings, wanted]
        rfl
      · rw [missing, ← waited.settings, unwanted]
        rfl
    case ambient => exact known
    case front =>
      intro takes
      obtain ⟨conn, ahead⟩ := front_of_takesConnection inFront takes
      rw [arranged, ahead]
      exact ⟨conn, rfl⟩
    case shared =>
      intro a ha b hb
      exact Option.some.inj ((inParams ha).1.symm.trans (inParams hb).1)
    case own => exact fun conn reached => (held conn reached).own
    case isOpen => exact fun conn reached => (held conn reached).isOpen

/-- A body that has a part in its call is carried out in a context of this kind, whatever its arguments did.
That the call gets to it means that just this is done, be it this body or another one. -/
theorem conducted_in_context (there : k.session ∈ e.sessionIds) (supplied : ∀ r ∈ args, r.Supplies) :
    (c.IgnoresBody k args e ∨ ∃ values frame adopted begun, c.Reaches k args e values frame adopted begun) ∧
      ∀ values frame adopted begun, c.Reaches k args e values frame adopted begun →
        c.Conducts k args e frame begun ∧ c.Context k e.settings frame begun := by
  refine ⟨?_, fun values frame adopted begun reached =>
    ⟨reached.conducts, reached.context there supplied⟩⟩
  by_cases reaches : ∃ values frame adopted begun, c.Reaches k args e values frame adopted begun
  · exact .inr reaches
  · refine .inl (ignoresBody_iff.2 fun values frame adopted begun reached => ?_)
    exact reaches ⟨values, frame, adopted, begun, reached⟩

end Contexts

/-- An engine with a default connection, one session, and an alias for a method of that session. -/
def surroundedEngine : Engine :=
  let named : NativeMethod :=
    ⟨"name", [⟨.connection, false⟩], .string, false, true, fun _ => .done (.string "a")⟩
  { settings := { defaultConnection := true }
    aliases := [{ schema := "PUBLIC", id := 1, name := "NAME", target := none,
                  candidates := some [⟨"demo.C", named, 0⟩] }]
    names := [("NAME", 0)]
    sessions := [{ id := 1, user := "SA" }] }

/-- Takes a connection, a text and any number of contents. -/
def gathering : Candidate where
  className := "demo.C"
  method := ⟨"gather", [⟨.connection, false⟩, ⟨.clob, false⟩, ⟨.array .blob false, false⟩], .void, true,
    true, fun _ => .done .null⟩
  position := 0

/-- The text comes from a call that made and closed two connections of its own. All contents are reached
over the connection in front, and the default connection is another one. -/
theorem conducted_in_context_gathering :
    let own (number : Nat) : Connection := ⟨1, number, "SA", .full⟩
    let args := Expr.evalEach { session := 1 } [] 1
      [.call "NAME" [], .literal (.blob [0]), .literal (.blob [1])]
    let frame : CallFrame :=
      ⟨[.connection (own 0), .bridge (.clob "a") (own 0),
          .array [.bridge (.blob [0]) (own 0), .bridge (.blob [1]) (own 0)]],
        some (own 3)⟩
    ∃ begun, gathering.Conducts ⟨1, false⟩ args surroundedEngine frame begun ∧
      gathering.Context ⟨1, false⟩ { defaultConnection := true } frame begun ∧
      (begun.session 1).openNumbers = [3, 0] := by
  intro own args frame
  have supplied : ∀ r ∈ args, r.Supplies := by
    intro r listed
    simp only [args, Expr.evalEach, List.mem_cons, List.not_mem_nil, or_false] at listed
    rcases listed with rfl | rfl | rfl <;> exact .expression _ _ _ _
  have there : 1 ∈ surroundedEngine.sessionIds := by decide
  have reached : ∃ values begun,
      gathering.Reaches ⟨1, false⟩ args surroundedEngine values frame [own 0, own 3] begun ∧
        (begun.session 1).openNumbers = [3, 0] :=
    ⟨_, _, .intro rfl (by decide) (.cons rfl rfl rfl (.cons rfl rfl rfl (.cons rfl rfl rfl .nil))) rfl rfl
      rfl, rfl⟩
  obtain ⟨values, begun, reached, listed⟩ := reached
  obtain ⟨conducts, context⟩ := (conducted_in_context there supplied).2 values frame _ begun reached
  exact ⟨begun, conducts, context, listed⟩

end Candidate

end SqlEngine
