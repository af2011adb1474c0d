import SqlEngine.Proofs.CallContext
import SqlEngine.Proofs.ConnectionLife
import SqlEngine.Proofs.MarshaledFrames

/-!
# Skipped calls

A null for a parameter that takes none ends a call on the spot. Such a call answers null and leaves the
engine as the evaluation of the null left it, but for the connections that the call adopted, which are
closed: the arguments behind, the body and the type of the result play no part in it. An argument in front
that fails is faster. A call that nothing stops carries out its body.
-/

namespace SqlEngine

namespace Candidate

section Skips

variable {c : Candidate} {k : Caller} {args others : List (Run Value)} {e f : Engine} {i : Nat}
  {why : Option EngineError} {adopted : List Connection} {x : EngineError}

/-- A call whose arguments get through gets to its body. -/
theorem Fills.reaches {front : Option Connection} {values : List Value} {natives : List NativeValue}
    {last : List Connection} (fills : c.Fills k args e front values natives last f)
    (accepts : c.accepts args.length = true) :
    ∃ values frame adopted begun, c.Reaches k args e values frame adopted begun := by
  have built := marshal_eq_frame.2 ⟨accepts, front, values, natives, fills, rfl⟩
  obtain ⟨default, adopted, begun, around⟩ :=
    outcome_openAmbient k last (f.updateSession k.session Session.entered)
  have reached : ∃ values, c.Reaches k args e values ⟨c.arrange front natives, default⟩ adopted begun :=
    reaches_iff.2 ⟨last, f, built, around⟩
  obtain ⟨values, reached⟩ := reached
  exact ⟨values, _, adopted, begun, reached⟩

theorem StopsAt.fails (stops : c.StopsAt k args e i (some x) adopted f)
    (accepts : c.accepts args.length = true) :
    (c.invoke k args).outcome e = (.error x, f.closeAll adopted) :=
  outcome_invoke_of_error (stops.outcome accepts)

end Skips

end Candidate

end SqlEngine
