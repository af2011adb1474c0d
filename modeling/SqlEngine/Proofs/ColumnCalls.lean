import SqlEngine.Native.Script
import SqlEngine.Proofs.CallFrames

/-!
# Calls for columns only

Whoever holds nothing but metadata-only connections can read a session and not change it. A call that
only asks for the columns of a result hands out such connections, but for one: the data connection that
is made for a bridge, where the method takes no connection in front, is a full one.
-/

namespace SqlEngine

/-- What a body asks of connections, from an engine on. -/
def Interaction.actions (e : Engine) : Interaction → List (Connection × ConnectionAction)
  | done _ | fail _ => []
  | act c a next => (c, a) :: (next (e.act c a).1).actions (e.act c a).2
  | remark _ next | rewrite _ next => next.actions e

theorem Session.change_of_readOnly {s : Session} {c : Connection} (readOnly : c.mode = .metadataOnly)
    (t : Session) : (s.change c t).2 = s := by
  simp only [Session.change, Session.write, readOnly, if_true, Session.onOpen]
  split <;> split at * <;> first | rfl | contradiction

theorem Session.act_of_readOnly {s : Session} {c : Connection} (readOnly : c.mode = .metadataOnly)
    (a : ConnectionAction) : (s.act c a).2 = s := by
  cases a with
  | setAutoCommit b => exact Session.change_of_readOnly readOnly _
  | setLastIdentity v => exact Session.change_of_readOnly readOnly _
  | _ => rfl

namespace Engine

theorem session_act_of_readOnly {e : Engine} {c : Connection} (readOnly : c.mode = .metadataOnly)
    (a : ConnectionAction) (id : Nat) : (e.act c a).2.session id = e.session id := by
  simp only [act]
  rw [Session.act_of_readOnly readOnly]
  exact e.session_setSession_session c.session id

end Engine

/-- A body that acts on metadata-only connections leaves every session as it is. -/
theorem Interaction.session_conduct_of_readOnly (i : Interaction) {e : Engine}
    (readOnly : ∀ p ∈ i.actions e, p.1.mode = .metadataOnly) (id : Nat) :
    (i.conduct e).engine.session id = e.session id := by
  induction i generalizing e with
  | done v => rfl
  | fail f => rfl
  | act c a next ih =>
    have rest := ih (e.act c a).1 fun p hp => readOnly p (List.mem_cons_of_mem _ hp)
    exact rest.trans (Engine.session_act_of_readOnly (readOnly (c, a) List.mem_cons_self) a id)
  | remark r next ih => exact ih readOnly
  | rewrite frame next ih => exact ih readOnly

namespace Candidate

variable {c : Candidate} {k : Caller} {args : List (Run Value)} {e f begun : Engine}
  {values : List Value} {frame : CallFrame} {adopted later : List Connection}

/-- The ambient connection is as the caller asks. -/
theorem mode_ambient {conn : Connection}
    (around : (openAmbient k).outcome adopted e = (.ok (some conn), later, f)) : conn.mode = k.mode := by
  obtain ⟨opened, connects, _⟩ := openAmbient_some around
  cases connects
  rfl

theorem mode_front {conn : Connection}
    (inFront : (c.openFront k).outcome adopted e = (.ok (some conn), later, f)) : conn.mode = k.mode := by
  rcases openFront_cases inFront with ⟨_, other, same, connects, _⟩ | ⟨_, missing, _⟩
  · cases same
    cases connects
    rfl
  · cases missing

theorem front_eq_none_iff {front : Option Connection}
    (inFront : (c.openFront k).outcome adopted e = (.ok front, later, f)) :
    front = none ↔ c.takesConnection = false := by
  rcases openFront_cases inFront with ⟨takes, conn, same, _⟩ | ⟨takes, missing, _⟩
  · rw [same, takes]
    exact ⟨nofun, nofun⟩
  · exact ⟨fun _ => takes, fun _ => missing⟩

/-- A frame has metadata-only connections alone exactly if no bridge made its own connection. -/
theorem readOnly_frame_iff (introspects : k.columnList = true)
    (reached : c.Reaches k args e values frame adopted begun) :
    (∀ conn ∈ frame.connections, conn.mode = .metadataOnly) ↔
      (c.takesConnection = true ∨ c.bridgesFrom 0 values = false) := by
  have readOnly : k.mode = .metadataOnly := by rw [Caller.mode, if_pos introspects]
  cases reached with
  | @intro front first _ _ _ _ _ _ natives _ inFront _ course arranged _ around =>
    have ahead := front_adopted inFront
    rw [CallFrame.connections, arranged, allConnections_arrange]
    constructor
    · intro all
      by_cases takes : c.takesConnection = true
      · exact .inl takes
      · refine .inr (course.unconnected_iff.1 (List.eq_nil_iff_forall_not_mem.2 fun conn reached => ?_))
        rw [(front_eq_none_iff inFront).2 (by simpa using takes)] at ahead
        have full := course.full ahead (course.over_data reached)
        have narrow := all conn (List.mem_append_right _ (List.mem_append_right _ reached))
        rw [full] at narrow
        cases narrow
    · intro holds conn reached
      rcases List.mem_append.1 reached with ambient | reached
      · rw [Option.mem_toList.1 ambient] at around
        exact (mode_ambient around).trans readOnly
      · rcases List.mem_append.1 reached with inPlace | behind
        · rw [Option.mem_toList.1 inPlace] at inFront
          exact (mode_front inFront).trans readOnly
        · rcases holds with takes | none
          · obtain ⟨first, rfl⟩ := front_of_takesConnection inFront takes
            have same := (course.keeps (congrArg List.head? ahead)).symm.trans (course.over_data behind)
            cases same
            exact (mode_front inFront).trans readOnly
          · rw [course.unconnected_iff.2 none] at behind
            cases behind

/-- A call for columns only that gets to a frame carries out its body in that frame, whatever the body is. It
hands out metadata-only connections alone, so that the body cannot change the session, exactly if the method
takes a connection in front or no argument becomes a bridge. -/
theorem introspection_readOnly_iff (introspects : k.columnList = true)
    (reached : c.Reaches k args e values frame adopted begun) :
    c.Conducts k args e frame begun ∧
      (((∀ conn ∈ frame.connections, conn.mode = .metadataOnly) ∧
          ∀ body : Interaction, (∀ p ∈ body.actions begun, p.1 ∈ frame.connections) →
            ((body.conduct begun).engine.session k.session).autoCommit =
                (begun.session k.session).autoCommit ∧
              ((body.conduct begun).engine.session k.session).lastIdentity =
                (begun.session k.session).lastIdentity) ↔
        (c.takesConnection = true ∨ c.bridgesFrom 0 values = false)) := by
  refine ⟨reached.conducts, ?_⟩
  rw [← readOnly_frame_iff introspects reached]
  refine ⟨fun both => both.1, fun readOnly => ⟨readOnly, fun body confined => ?_⟩⟩
  have kept := body.session_conduct_of_readOnly (fun p hp => readOnly p.1 (confined p hp)) k.session
  rw [kept]
  exact ⟨rfl, rfl⟩

/-- A method of a content, with a connection in front or without, that turns commits on through the
connection of the content and answers what it finds. -/
def committing (front : List ParamSpec) : Candidate where
  className := "demo.C"
  method := ⟨"f", front ++ [⟨.blob, false⟩], .boolean, false, true,
    Script.body ⟨[(.bridge front.length, .act (.setAutoCommit true))],
      .autoCommit (.bridge front.length)⟩⟩
  position := 0

/-- An engine with one session. -/
def oneSession : Engine := { sessions := [{ id := 1, user := "SA" }] }

/-- The session of that engine as the body begins. -/
def begunSession : Session :=
  { id := 1, user := "SA", autoCommit := false, openNumbers := [0], nextNumber := 1 }

/-- The frame of a call for columns with one byte of content. -/
def contentFrame (mode : ConnectionMode) (front : List NativeValue) : CallFrame :=
  ⟨front ++ [.bridge (.blob [0]) ⟨1, 0, "SA", mode⟩], none⟩

theorem reaches_committing :
    (committing []).Reaches ⟨1, true⟩ [pure (.blob [0])] oneSession [.blob [0]]
      (contentFrame .full []) [⟨1, 0, "SA", .full⟩] { sessions := [begunSession] } :=
  .intro rfl (by decide) (.cons rfl rfl rfl .nil) rfl rfl rfl

theorem reaches_committing_front :
    (committing [⟨.connection, false⟩]).Reaches ⟨1, true⟩ [pure (.blob [0])] oneSession [.blob [0]]
      (contentFrame .metadataOnly [.connection ⟨1, 0, "SA", .metadataOnly⟩])
      [⟨1, 0, "SA", .metadataOnly⟩] { sessions := [begunSession] } :=
  .intro rfl (by decide) (.cons rfl rfl rfl .nil) rfl rfl rfl

/-- With a connection in front the content comes over it, and the write is refused. -/
theorem introspection_readOnly_iff_front :
    let readOnly : Connection := ⟨1, 0, "SA", .metadataOnly⟩
    let frame := contentFrame .metadataOnly [.connection readOnly]
    let begun : Engine := { sessions := [begunSession] }
    let body := (committing [⟨.connection, false⟩]).method.body frame
    body.actions begun = [(readOnly, .setAutoCommit true)] ∧
      (∀ conn ∈ frame.connections, conn.mode = .metadataOnly) ∧
      ((body.conduct begun).engine.session 1).autoCommit = false := by
  have holds := (introspection_readOnly_iff rfl reaches_committing_front).2.2 (.inl rfl)
  refine ⟨rfl, holds.1, (holds.2 _ fun p hp => ?_).1⟩
  cases hp with
  | head => exact List.mem_cons_self
  | tail _ hp => cases hp

/-- Without one, the body changes the session that it was only to look at. -/
theorem introspection_commits :
    let frame := contentFrame .full []
    let begun : Engine := { sessions := [begunSession] }
    let body := (committing []).method.body frame
    (committing []).Reaches ⟨1, true⟩ [pure (.blob [0])] oneSession [.blob [0]] frame frame.connections
        begun ∧
      frame.connections = [⟨1, 0, "SA", .full⟩] ∧
      (begun.session 1).autoCommit = false ∧
      ((body.conduct begun).engine.session 1).autoCommit = true ∧
      (((committing []).invoke ⟨1, true⟩ [pure (.blob [0])]).outcome oneSession).1 =
        .ok (.boolean true) :=
  ⟨reaches_committing, rfl, rfl, rfl, rfl⟩

end Candidate

end SqlEngine
