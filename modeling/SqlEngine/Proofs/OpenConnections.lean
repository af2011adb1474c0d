import SqlEngine.Proofs.CallFrames

/-!
# Open connections

While a call goes on, the connections of a session that are open are those that were open before and those
that the call has adopted. As it ends it closes just what it has adopted. So no call leaves anything open
that it did not find open, nor closes anything that was open before, and neither does any evaluation,
however many calls there are in it and whatever comes of them.
-/

namespace SqlEngine

/-- Numbers only go up. Of those that were given out, these are new and open, and all others are as they
were. -/
structure Session.Opened (new : List Nat) (s t : Session) : Prop where
  id : t.id = s.id
  numbers : s.nextNumber ≤ t.nextNumber
  fresh : ∀ n ∈ new, s.nextNumber ≤ n ∧ n < t.nextNumber
  listed_iff : ∀ n < t.nextNumber,
    n ∈ t.openNumbers ↔ n ∈ new ∨ (n < s.nextNumber ∧ n ∈ s.openNumbers)

namespace Session.Opened

variable {s t u : Session} {new newer : List Nat}

/-- Changes that leave the connections alone. -/
theorem of_same (id : t.id = s.id) (next : t.nextNumber = s.nextNumber)
    (listed : t.openNumbers = s.openNumbers) : s.Opened [] t where
  id := id
  numbers := Nat.le_of_eq next.symm
  fresh := nofun
  listed_iff n given := by simp [listed, next ▸ given]

theorem refl (s : Session) : s.Opened [] s := of_same rfl rfl rfl

theorem trans (first : s.Opened new t) (second : t.Opened newer u) : s.Opened (new ++ newer) u where
  id := second.id.trans first.id
  numbers := Nat.le_trans first.numbers second.numbers
  fresh n listed := by
    have upFirst := first.numbers
    have upSecond := second.numbers
    rcases List.mem_append.1 listed with early | late
    · have range := first.fresh n early
      omega
    · have range := second.fresh n late
      omega
  listed_iff n given := by
    have up := first.numbers
    rw [second.listed_iff n given, List.mem_append]
    constructor
    · rintro (late | ⟨before, listed⟩)
      · exact .inl (.inr late)
      · exact ((first.listed_iff n before).1 listed).imp_left .inl
    · rintro ((early | late) | old)
      · have before := (first.fresh n early).2
        exact .inr ⟨before, (first.listed_iff n before).2 (.inl early)⟩
      · exact .inl late
      · have before : n < t.nextNumber := Nat.lt_of_lt_of_le old.1 up
        exact .inr ⟨before, (first.listed_iff n before).2 (.inr old)⟩

theorem connected (s : Session) : s.Opened [s.nextNumber] s.connected where
  id := rfl
  numbers := Nat.le_succ _
  fresh n listed := by
    rw [List.mem_singleton.1 listed]
    exact ⟨Nat.le_refl _, Nat.lt_succ_self _⟩
  listed_iff n given := by
    change n < s.nextNumber + 1 at given
    rw [Session.connected, List.mem_cons, List.mem_singleton]
    constructor
    · rintro (new | old)
      · exact .inl new
      · rcases Nat.lt_succ_iff_lt_or_eq.1 given with before | new
        · exact .inr ⟨before, old⟩
        · exact .inl new
    · exact Or.imp_right (·.2)

theorem act (s : Session) (c : Connection) (a : ConnectionAction) : s.Opened [] (s.act c a).2 := by
  have change {t : Session} (same : s.Opened [] t) : s.Opened [] (s.change c t).2 := by
    rw [Session.change]
    split
    · exact same
    · exact refl s
  cases a with
  | setAutoCommit b => exact change (of_same rfl rfl rfl)
  | setLastIdentity v => exact change (of_same rfl rfl rfl)
  | _ => exact refl s

end Session.Opened

/-- The numbers of those connections that are of the session. -/
def numbersOf (id : Nat) (cs : List Connection) : List Nat :=
  (cs.filter (·.session = id)).map (·.number)

theorem numbersOf_cons (id : Nat) (c : Connection) (cs : List Connection) :
    numbersOf id (c :: cs) =
      if c.session = id then c.number :: numbersOf id cs else numbersOf id cs := by
  simp only [numbersOf, List.filter_cons, decide_eq_true_eq]
  split <;> rfl

theorem mem_numbersOf {id : Nat} {cs : List Connection} {n : Nat} :
    n ∈ numbersOf id cs ↔ ∃ c ∈ cs, c.session = id ∧ c.number = n := by
  simp [numbersOf, and_assoc]

/-- The settings and the sessions are the same, and of all connections of this session, these were
opened. -/
structure OpenedIn (id : Nat) (new : List Connection) (e f : Engine) : Prop where
  settings : f.settings = e.settings
  sessions : SameSessions e f
  session : id ∈ e.sessionIds → (e.session id).Opened (numbersOf id new) (f.session id)

/-- What is open in this session is what was open. -/
abbrev LeavesOpen (id : Nat) : Engine → Engine → Prop := OpenedIn id []

section Openings

variable {id other : Nat} {new newer : List Connection} {e f g : Engine}

theorem OpenedIn.trans (first : OpenedIn id new e f) (second : OpenedIn id newer f g) :
    OpenedIn id (new ++ newer) e g where
  settings := second.settings.trans first.settings
  sessions := sameSessions_writes.trans first.sessions second.sessions
  session there := by
    have whole := (first.session there).trans (second.session (by rwa [first.sessions]))
    rwa [numbersOf, List.filter_append, List.map_append]

theorem leavesOpen_order (id : Nat) : EffectOrder (LeavesOpen id) where
  refl _ := ⟨rfl, rfl, fun _ => .refl _⟩
  trans := OpenedIn.trans

theorem leavesOpen_loads (id : Nat) : LoadRelation (LeavesOpen id) where
  toEffectOrder := leavesOpen_order id
  compiler _ _ := ⟨rfl, rfl, fun _ => .refl _⟩
  setAlias _ _ _ := ⟨rfl, rfl, fun _ => .refl _⟩

/-- A write to one session opens what it opens there, and nothing in any other one. -/
theorem openedIn_setSession {s : Session} (own : s.id = other)
    (here : other = id → (e.session other).Opened (numbersOf id new) s)
    (elsewhere : other ≠ id → numbersOf id new = []) : OpenedIn id new e (e.setSession s) := by
  refine ⟨rfl, e.ids_setSession s, fun there => ?_⟩
  rw [Engine.session_setSession_eq, own]
  by_cases same : other = id
  · subst same
    rw [if_pos ⟨rfl, there⟩]
    exact here rfl
  · rw [if_neg fun written => same written.1.symm, elsewhere same]
    exact .refl _

theorem leavesOpen_updateSession (id other : Nat) {u : Session → Session}
    (stays : ∀ s : Session, s.Opened [] (u s)) (e : Engine) : LeavesOpen id e (e.updateSession other u) :=
  openedIn_setSession ((stays _).id.trans (e.session_id other)) (fun _ => stays _) fun _ => rfl

theorem leavesOpen_entered (id other : Nat) (e : Engine) :
    LeavesOpen id e (e.updateSession other Session.entered) :=
  leavesOpen_updateSession id other (u := Session.entered) (fun _ => .of_same rfl rfl rfl) e

theorem leavesOpen_exited (id other : Nat) (before : Session) (e : Engine) :
    LeavesOpen id e (e.updateSession other before.exited) :=
  leavesOpen_updateSession id other (u := before.exited) (fun _ => .of_same rfl rfl rfl) e

theorem leavesOpen_ambient (id other : Nat) (conn : Connection) (e : Engine) :
    LeavesOpen id e (e.updateSession other ({ · with ambient := some conn })) :=
  leavesOpen_updateSession id other (u := ({ · with ambient := some conn }))
    (fun _ => .of_same rfl rfl rfl) e

theorem leavesOpen_act (id : Nat) (e : Engine) (c : Connection) (a : ConnectionAction) :
    LeavesOpen id e (e.act c a).2 :=
  openedIn_setSession ((Session.id_act _ c a).trans (e.session_id c.session)) (fun _ => .act _ c a)
    fun _ => rfl

theorem openedIn_connect (id other : Nat) (mode : ConnectionMode) (e : Engine) :
    OpenedIn id [(e.session other).newConnection mode] e (e.updateSession other Session.connected) := by
  have own : ((e.session other).newConnection mode).session = other := e.session_id other
  refine openedIn_setSession own (fun same => ?_) fun apart => ?_
  · rw [numbersOf_cons, if_pos (own.trans same)]
    exact .connected _
  · rw [numbersOf_cons, if_neg fun same => apart (own.symm.trans same)]
    rfl

end Openings

section Closings

variable {e : Engine} {c : Connection}

theorem Engine.session_close (e : Engine) (c : Connection) (id : Nat) :
    (e.close c).session id =
      if c.session = id then (e.session id).disconnected c.number else e.session id := by
  rw [Engine.close, Engine.updateSession, Engine.session_setSession_eq]
  by_cases same : c.session = id
  · subst same
    rw [if_pos rfl]
    split
    · rfl
    · next gone =>
      have absent := Engine.session_absent fun there => gone ⟨(e.session_id c.session).symm, there⟩
      rw [absent]
      rfl
  · rw [if_neg same, if_neg fun written => same (written.1.trans (e.session_id c.session)).symm]

theorem Engine.sessionIds_closeAll (e : Engine) (cs : List Connection) :
    SameSessions e (e.closeAll cs) :=
  sameSessions_writes.closeAll (fun e c => e.sessionIds_updateSession c.session _) cs e

/-- To close connections takes their numbers from those that are open, and does nothing else to a session. -/
theorem Engine.session_closeAll (e : Engine) (cs : List Connection) (id : Nat) :
    (e.closeAll cs).session id =
      { e.session id with
        openNumbers := (e.session id).openNumbers.filter (· ∉ numbersOf id cs) } := by
  induction cs generalizing e with
  | nil =>
    have all : (e.session id).openNumbers.filter (· ∉ numbersOf id []) = (e.session id).openNumbers :=
      List.filter_eq_self.2 fun _ _ => rfl
    rw [all]
    rfl
  | cons c rest ih =>
    rw [Engine.closeAll, List.foldl_cons, ← Engine.closeAll, ih, Engine.session_close, numbersOf_cons]
    split
    · simp only [Session.disconnected, List.filter_filter, List.mem_cons, not_or, Bool.decide_and]
      simp only [Bool.and_comm, decide_not, ne_eq]
    · rfl

theorem Engine.isOpen_closeAll {cs : List Connection} {c copy : Connection} (listed : c ∈ cs)
    (same : copy.sameAs c = true) (e : Engine) : (e.closeAll cs).isOpen copy = false := by
  obtain ⟨session, number⟩ : copy.session = c.session ∧ copy.number = c.number := by
    simpa [Connection.sameAs] using same
  have there : copy.number ∈ numbersOf copy.session cs := mem_numbersOf.2 ⟨c, listed, session.symm, number.symm⟩
  rw [Engine.isOpen, Engine.session_closeAll]
  simp [Session.isOpen, there]

/-- What was opened and is closed again leaves no trace among the connections. -/
theorem OpenedIn.closed {id : Nat} {new : List Connection} {e f : Engine} (h : OpenedIn id new e f) :
    LeavesOpen id e (f.closeAll new) where
  settings := by
    have order : EffectOrder fun e f : Engine => f.settings = e.settings :=
      ⟨fun _ => rfl, fun first second => second.trans first⟩
    exact (order.closeAll (fun _ _ => rfl) new f).trans h.settings
  sessions := (f.sessionIds_closeAll new).trans h.sessions
  session there := by
    have opened := h.session there
    rw [Engine.session_closeAll]
    refine ⟨opened.id, opened.numbers, nofun, fun n given => ?_⟩
    rw [List.mem_filter, opened.listed_iff n given, decide_eq_true_eq]
    constructor
    · rintro ⟨new | old, others⟩
      · exact absurd new others
      · exact .inr old
    · rintro (none | old)
      · cases none
      · refine ⟨.inr old, fun new => ?_⟩
        have fresh := (opened.fresh n new).1
        omega

end Closings

/-- On behalf of a call, the run adopts all connections of the session that it opens and leaves open. -/
def CallRun.Adopts {α : Type} (id : Nat) (r : CallRun α) : Prop :=
  ∀ adopted e, ∃ new, (r.outcome adopted e).2.1 = adopted ++ new ∧
    OpenedIn id new e (r.outcome adopted e).2.2

section Calls

variable {α : Type} {id : Nat} {r : CallRun α}

theorem CallRun.Adopts.after {adopted last : List Connection} {x : Except EngineError α} {e f : Engine}
    (h : r.Adopts id) (ran : r.outcome adopted e = (x, last, f)) :
    ∃ new, last = adopted ++ new ∧ OpenedIn id new e f := by
  have adopts := h adopted e
  rwa [ran] at adopts

theorem adopts_callCompositional (id : Nat) :
    CallCompositional (fun _ r => r.Relates (LeavesOpen id)) fun _ r => CallRun.Adopts id r where
  toCompositional := (leavesOpen_order id).compositional
  onEngine only adopted e := ⟨[], (List.append_nil adopted).symm, only e⟩
  adopted adopted e := ⟨[], (List.append_nil adopted).symm, (leavesOpen_order id).refl e⟩
  inTurn {_ _ r f} first rest := by
    intro adopted e
    obtain ⟨new, left, opened⟩ := first adopted e
    rw [RunWith.outcome_bind]
    generalize ran : r.outcome adopted e = o at left opened
    obtain ⟨x, later, g⟩ := o
    cases x with
    | error x => exact ⟨new, left, opened⟩
    | ok a =>
      obtain ⟨newer, left', opened'⟩ := rest a ⟨adopted, e, later, g, ran⟩ later g
      refine ⟨new ++ newer, ?_, opened.trans opened'⟩
      rw [left', show later = adopted ++ new from left, List.append_assoc]

/-- A connection of a call is adopted as soon as it is made. -/
theorem adopts_callConnect (id other : Nat) (mode : ConnectionMode) :
    (CallRun.connect other mode).Adopts id :=
  fun _ e => ⟨[(e.session other).newConnection mode], rfl, openedIn_connect id other mode e⟩

theorem adopts_isolated {other : Nat} (inside : r.Adopts id) : (CallRun.isolated other r).Adopts id := by
  intro adopted e
  obtain ⟨new, left, opened⟩ := inside adopted (e.updateSession other Session.entered)
  have whole := (leavesOpen_entered id other e).trans
    (opened.trans (leavesOpen_exited id other (e.session other) _))
  rw [List.nil_append, List.append_nil] at whole
  exact ⟨new, left, whole⟩

/-- What is adopted on the way is closed on the way out, and so is nothing else. -/
theorem leavesOpen_closing (inside : r.Adopts id) : (CallRun.closing r).Relates (LeavesOpen id) := by
  intro e
  obtain ⟨new, left, opened⟩ := inside [] e
  rw [CallRun.outcome_closing, left]
  exact opened.closed

theorem adopts_openAmbient (id : Nat) (k : Caller) : (Candidate.openAmbient k).Adopts id :=
  (adopts_callCompositional id).openAmbient (adopts_callConnect id k.session k.mode) fun conn e =>
    leavesOpen_ambient id k.session conn e

/-- Calls of whatever session leave open in this one what was open. -/
theorem adopts_calls (id other : Nat) :
    CallProperty other (fun _ => True) (fun _ r => r.Relates (LeavesOpen id)) fun _ r =>
      CallRun.Adopts id r where
  toCallCompositional := adopts_callCompositional id
  connect := adopts_callConnect id other
  closing := leavesOpen_closing
  run {_ k _ params} _ _ _ := by
    refine adopts_isolated ((adopts_callCompositional id).inside (adopts_callConnect id k.session k.mode)
      (fun conn e => leavesOpen_ambient id k.session conn e) fun default _ => ?_)
    exact (leavesOpen_order id).native (leavesOpen_act id) (fun _ _ => ⟨rfl, rfl, fun _ => .refl _⟩) k.session
      _ ⟨params, default⟩

/-- So does evaluation, at every depth. -/
theorem leavesOpen_evalAt (id : Nat) (s : Scope) (row : Row) (depth : Nat) (x : Expr) :
    (x.evalAt s row depth).Relates (LeavesOpen id) := by
  refine (leavesOpen_order id).compositional.evalAt (fun name args onArgs => ?_) row depth x
  exact (leavesOpen_order id).bind ((leavesOpen_loads id).resolve name args.length) fun c =>
    (adopts_calls id s.session).invoke (k := s.caller) trivial args onArgs

end Calls

/-- What works out an argument of a call: it is a value or none, an expression is evaluated for it, or it
comes from another call, or from some of these in turn. -/
inductive Run.Supplies : Run Value → Prop
  | value (v : Value) : Supplies (pure v)
  | failure (x : EngineError) : Supplies (throw x)
  | expression (s : Scope) (row : Row) (depth : Nat) (x : Expr) : Supplies (x.evalAt s row depth)
  | call (c : Candidate) (k : Caller) (args : List (Run Value)) (each : ∀ r ∈ args, Supplies r) :
      Supplies (c.invoke k args)
  | inTurn {r : Run Value} {f : Value → Run Value} (first : Supplies r) (rest : ∀ v, Supplies (f v)) :
      Supplies (r >>= f)

theorem leavesOpen_of_supplies (id : Nat) {r : Run Value} (h : r.Supplies) :
    r.Relates (LeavesOpen id) := by
  have order := leavesOpen_order id
  induction h with
  | value v => exact order.pure v
  | failure x => exact order.throw x
  | expression s row depth x => exact leavesOpen_evalAt id s row depth x
  | call c k args _ ih => exact (adopts_calls id k.session).invoke trivial args ih
  | inTurn _ _ first rest => exact order.bind first rest

end SqlEngine
