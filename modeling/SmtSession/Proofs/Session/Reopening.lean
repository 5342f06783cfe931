import SmtSession.Proofs.Session.Answering

/-!
# Setting the logic again

While levels are open, a relaxed session sets the logic again by popping all of
them first.  It does this within one command, without checking the second half
against the rules and without preparing it a second time.  Still nothing can be
observed that two commands in a row would not show, the pop and then the logic,
of which the second is not executed when the first one fails
(`Session.observe_reopening`).

## Strategy

Two things differ.

* **The check.**  The two commands are checked one after the other.  A pop of all
  levels is let pass because the logic is set and the levels are open, and after
  it a logic is let pass because none are open (`execute_pop_then_setLogic`).
* **The announcement.**  A logic is announced on the diagnostic channel before
  anything is sent for it, so the one command announces it before the pop and the
  two commands after it.  What is written is not seen by the transport.

So both ways are compared with the deliveries and commits alone, for a host that
has the transport and no output (`Host.mute`): in what the transport sees of the
world, either way does what these do (`matches_reopen`, `matches_popThen`).
-/

namespace SmtSession

variable {σ τ : Type}

/-! ## Transports without output -/

/-- The host that has the transport, and no output. -/
def Host.mute (transport : Transport σ) : Host σ :=
  { transport, Outputs.mute with }

/-- The part of a recorded world that belongs to the transport. -/
def Host.transported (world : (σ × τ) × List Call) : σ × List Call :=
  (world.1.1, world.2)

theorem Host.extends_mute (transport : Transport σ) (outputs : Outputs τ) :
    (Host.join transport outputs).recorded.muted.Extends transported (mute transport).recorded where
  send _ _ := rfl
  sendNoWait _ _ := rfl
  isAlive _ _ := rfl
  terminate _ := rfl
  openFile _ _ := rfl
  write _ _ _ := rfl

/-- The record of what comes after the given calls. -/
def Host.afterCalls (earlier : List Call) (world : σ × List Call) : σ × List Call :=
  (world.1, earlier ++ world.2)

/-- What was recorded before is not looked at. -/
theorem Host.extends_afterCalls (host : Host σ) (earlier : List Call) :
    host.recorded.Extends (afterCalls earlier) host.recorded := by
  have hnoted {α : Type} (call : Call) (action : StateM σ α) :
      Seen (afterCalls earlier) (noted call action) (noted call action) := by
    intro world
    exact congrArg (fun calls => ((action world.1).1, (action world.1).2, calls))
      (List.append_assoc earlier world.2 [call]).symm
  exact ⟨fun _ => hnoted _ _, fun _ => hnoted _ _, fun _ => hnoted _ _, hnoted _ _,
    fun _ _ => rfl, fun _ _ _ => rfl⟩

namespace Session

/-! ## Two commands in a row -/

section Then

variable (host : Host σ) (first second : Command) (session : Session σ)

/-- What is observed when two commands are executed, the second one only if the first one is
answered. -/
def observeThen : Observation :=
  let earlier := session.observe host first
  match earlier.result with
  | .error _ => earlier
  | .ok _ =>
    let later := (session.after host first).observe host second
    { later with calls := earlier.calls ++ later.calls }

/-- The session after two commands, of which the second one is executed only if the first one is
answered. -/
def afterThen : Session σ :=
  match outcome (execute host first session) with
  | .error _ => session.after host first
  | .ok _ => (session.after host first).after host second

/-- What is observed of a recorded result. -/
def observation (result : EStateM.Result SessionError (Session (σ × List Call)) Response) :
    Observation :=
  ⟨outcome result, (ended result).world.2, (ended result).state⟩

theorem execute_recording (command : Command) (calls : List Call) :
    execute host.recorded command (session.recording calls) =
      viewedResult (Host.afterCalls calls)
        (execute host.recorded command (session.recording [])) := by
  rw [matches_execute (host.extends_afterCalls calls) command (session.recording [])]
  simp [viewed, recording, Host.afterCalls]

/-- Two commands in a row are one action of the recording host. -/
theorem observeThen_eq_recorded :
    session.observeThen host first second =
        observation ((execute host.recorded first >>= fun _ => execute host.recorded second)
          (session.recording [])) ∧
      session.afterThen host first second =
        (ended ((execute host.recorded first >>= fun _ => execute host.recorded second)
          (session.recording []))).forget := by
  have hforget := forgets_execute host first (session.recording [])
  rw [forget_recording] at hforget
  have hobserve := observe_eq_recorded host first session
  rw [observeThen, afterThen, after_eq_ended, ← hforget, hobserve, bind_apply]
  cases hrun : execute host.recorded first (session.recording []) with
  | error error recorded => exact ⟨rfl, rfl⟩
  | ok response recorded =>
      -- the second command goes on with the record of the first one
      have hsecond : execute host.recorded second recorded = _ :=
        execute_recording host recorded.forget second recorded.world.2
      have hobserve' := observe_eq_recorded host second recorded.forget
      have hafter' := after_eq_recorded host second recorded.forget
      simp only [forgetResult, ended, outcome, hobserve', hafter', hsecond]
      cases execute host.recorded second (recorded.forget.recording []) <;> exact ⟨rfl, rfl⟩

end Then

/-! ## What the transport sees -/

section Transport

variable (transport : Transport σ) (outputs : Outputs τ)

theorem matches_deliver_mute {command : Command} (hexit : command ≠ .exit) (shape : ReplyShape) :
    Matches Host.transported (deliver (Host.join transport outputs).recorded command shape)
      (deliver (Host.mute transport).recorded command shape) :=
  deliver_muted _ hexit shape ▸
    matches_deliver (Host.extends_mute transport outputs) command shape

/-- What is written is not seen. -/
theorem matches_diagnose_mute (line : String) :
    Matches Host.transported (diagnose (Host.join transport outputs).recorded line)
      (pure () : SessionM (σ × List Call) Unit) := by
  intro session
  simp only [diagnose, bind_apply, get_apply]
  split <;> rfl

theorem matches_committing {view : τ → σ} (command : Command) {wide : SessionM τ Response}
    {narrow : SessionM σ Response} (h : Matches view wide narrow) :
    Matches view (committing command wide) (committing command narrow) :=
  .bind h fun _ => .bind (fun _ => rfl) fun _ _ => rfl

end Transport

/-! ## Setting the logic again -/

/-- What is delivered and recorded to set the logic again. -/
def reopen (host : Host σ) (levels : Nat) (logic : Symbol) : SessionM σ Response := do
  let _ ← committing (.pop levels) (deliver host (.pop levels) .success)
  committing (.setLogic logic) (deliver host (.setLogic logic) .success)

theorem execute_of_send {host : Host σ} {command : Command} {session : Session σ}
    {shape : ReplyShape} (hrunning : session.state.terminated = false)
    (hplan : session.state.plan session.config.relax command = .ok (.send shape)) :
    execute host command session =
      (prepare host command >>= fun _ => committing command (deliver host command shape))
        session := by
  rw [execute_of_plan hrunning hplan]
  rfl

/-- What is left when all levels are popped. -/
theorem commit_pop_depth {state : State} (hdepth : 0 < state.depth) (popped : Response) :
    state.commit (.pop state.depth) popped = { state with depth := 0, verdict := none } := by
  have hne : state.depth ≠ 0 := Nat.ne_of_gt hdepth
  simp [State.commit, hne]

section Executions

variable {session : Session (σ × List Call)} (hrunning : session.state.terminated = false)
  (hset : session.state.logicSet) (hdepth : 0 < session.state.depth)

include hrunning hset hdepth

/-- All levels may be popped. -/
theorem execute_pop (host : Host (σ × List Call)) :
    execute host (.pop session.state.depth) session =
      committing (.pop session.state.depth)
        (deliver host (.pop session.state.depth) .success) session := by
  have hne : session.state.depth ≠ 0 := Nat.ne_of_gt hdepth
  have hplan : session.state.plan session.config.relax (.pop session.state.depth) =
      .ok (.send .success) := by
    simp [State.plan, State.requireLogic, hset, hne, bind, Except.bind]
  rw [execute_of_send hrunning hplan]
  rfl

variable (hrelax : session.config.relax) (host : Host σ) (logic : Symbol)

include hrelax

/-- Within one command, the logic is announced before the pop. -/
theorem execute_setLogic_again :
    execute host.recorded (.setLogic logic) session =
      (diagnose host.recorded ("#set-logic " ++ logic.text) >>= fun _ =>
        reopen host.recorded session.state.depth logic) session := by
  have hplan : session.state.plan session.config.relax (.setLogic logic) =
      .ok (.reopen session.state.depth) := by
    simp [State.plan, hset, hrelax, hdepth]
  rw [execute_of_plan hrunning hplan]
  simp only [prepare, perform, reopen, committing, bind_assoc, pure_bind]

/-- With two commands, it is announced after the pop, if this is answered. -/
theorem execute_pop_then_setLogic :
    (execute host.recorded (.pop session.state.depth) >>= fun _ =>
        execute host.recorded (.setLogic logic)) session =
      (committing (.pop session.state.depth)
          (deliver host.recorded (.pop session.state.depth) .success) >>= fun _ =>
        diagnose host.recorded ("#set-logic " ++ logic.text) >>= fun _ =>
          committing (.setLogic logic) (deliver host.recorded (.setLogic logic) .success))
        session := by
  have hdelivered := delivered host (.pop session.state.depth) .success session
  rw [bind_apply, bind_apply, execute_pop hrunning hset hdepth, committing_apply]
  cases hrun : deliver host.recorded (.pop session.state.depth) .success session with
  | error error after => rfl
  | ok popped after =>
      rw [hrun] at hdelivered
      cases hdelivered with
      | answered htext hcalls =>
          -- the session still runs, and no level is open any more
          have hsent : session.state.sent (.pop session.state.depth) = session.state := rfl
          simp only [hsent, state_acted, commit_pop_depth hdepth]
          have hplan : { session.state with depth := 0, verdict := none }.plan
              session.config.relax (.setLogic logic) = .ok (.send .success) := by
            simp [State.plan, hset, hrelax]
          exact execute_of_send hrunning hplan

end Executions

section Matches

variable (transport : Transport σ) (outputs : Outputs τ) (levels : Nat) (logic : Symbol)

theorem matches_reopen (line : String) :
    Matches Host.transported
      (diagnose (Host.join transport outputs).recorded line >>= fun _ =>
        reopen (Host.join transport outputs).recorded levels logic)
      (reopen (Host.mute transport).recorded levels logic) :=
  (matches_diagnose_mute transport outputs line).bind fun _ =>
    (matches_committing _ (matches_deliver_mute transport outputs (by simp) .success)).bind fun _ =>
      matches_committing _ (matches_deliver_mute transport outputs (by simp) .success)

theorem matches_popThen (line : String) :
    Matches Host.transported
      (committing (.pop levels)
          (deliver (Host.join transport outputs).recorded (.pop levels) .success) >>= fun _ =>
        diagnose (Host.join transport outputs).recorded line >>= fun _ =>
          committing (.setLogic logic)
            (deliver (Host.join transport outputs).recorded (.setLogic logic) .success))
      (reopen (Host.mute transport).recorded levels logic) :=
  (matches_committing _ (matches_deliver_mute transport outputs (by simp) .success)).bind fun _ =>
    (matches_diagnose_mute transport outputs line).bind fun _ =>
      matches_committing _ (matches_deliver_mute transport outputs (by simp) .success)

/-- Both ways show the transport the same. -/
theorem viewedResult_reopening (session : Session ((σ × τ) × List Call))
    (hset : session.state.logicSet) (hrelax : session.config.relax)
    (hdepth : 0 < session.state.depth) :
    viewedResult Host.transported
        (execute (Host.join transport outputs).recorded (.setLogic logic) session) =
      viewedResult Host.transported
        ((execute (Host.join transport outputs).recorded (.pop session.state.depth) >>= fun _ =>
          execute (Host.join transport outputs).recorded (.setLogic logic)) session) := by
  cases hrunning : session.state.terminated with
  | true =>
      rw [bind_apply, execute_of_terminated hrunning, execute_of_terminated hrunning]
  | false =>
      rw [execute_setLogic_again hrunning hset hdepth hrelax,
        execute_pop_then_setLogic hrunning hset hdepth hrelax, matches_reopen, matches_popThen]

end Matches

/-- What is observed of a result, and the session but for its output, are seen by the transport. -/
theorem eq_of_viewedResult_eq
    {result result' : EStateM.Result SessionError (Session ((σ × τ) × List Call)) Response}
    (h : viewedResult Host.transported result = viewedResult Host.transported result') :
    observation result = observation result' ∧
      (ended result).forget.viewed Prod.fst = (ended result').forget.viewed Prod.fst := by
  have hseen : ∀ result : EStateM.Result SessionError (Session ((σ × τ) × List Call)) Response,
      observation result = observation (viewedResult Host.transported result) ∧
        (ended result).forget.viewed Prod.fst =
          (ended (viewedResult Host.transported result)).forget := by
    intro result
    cases result <;> exact ⟨rfl, rfl⟩
  rw [(hseen result).1, (hseen result).2, h, ← (hseen result').1, ← (hseen result').2]
  exact ⟨rfl, rfl⟩

/-- **Setting the logic again is a pop and then a logic.**  While levels are open, a relaxed session
that is told to set the logic does what it would do if it were told to pop all levels and, if this
is answered, to set the logic: the result is the same, the transport is asked for the same, and the
state is the same.  The session that is left behind differs in its output at most. -/
theorem observe_reopening (transport : Transport σ) (outputs : Outputs τ)
    (session : Session (σ × τ)) (logic : Symbol) (hset : session.state.logicSet)
    (hrelax : session.config.relax) (hdepth : 0 < session.state.depth) :
    session.observe (.join transport outputs) (.setLogic logic) =
        session.observeThen (.join transport outputs) (.pop session.state.depth)
          (.setLogic logic) ∧
      (session.after (.join transport outputs) (.setLogic logic)).viewed Prod.fst =
        (session.afterThen (.join transport outputs) (.pop session.state.depth)
          (.setLogic logic)).viewed Prod.fst := by
  obtain ⟨hobserve, hafter⟩ := observeThen_eq_recorded (.join transport outputs)
    (.pop session.state.depth) (.setLogic logic) session
  rw [hobserve, hafter, observe_eq_recorded, after_eq_recorded]
  exact eq_of_viewedResult_eq
    (viewedResult_reopening transport outputs logic (session.recording []) hset hrelax hdepth)

/-- The pop is answered and the solver is gone when the logic is sent. -/
theorem observe_reopening_lost : ∃ session : Session (Script × Script),
    session.state.logicSet ∧ session.config.relax ∧ session.state.depth = 2 ∧
      (session.observe (.join Host.scripted.toTransport Host.scripted.toOutputs)
        (.setLogic ⟨"QF_BV"⟩)).calls = [.send "(pop 2)", .send "(set-logic QF_BV)"] ∧
      session.observe (.join Host.scripted.toTransport Host.scripted.toOutputs)
          (.setLogic ⟨"QF_BV"⟩) =
        session.observeThen (.join Host.scripted.toTransport Host.scripted.toOutputs) (.pop 2)
          (.setLogic ⟨"QF_BV"⟩) :=
  ⟨⟨{ relax := true }, { State.initial {} with logicSet := true, depth := 2 }, ⟨1, true⟩, .stdout,
      .stderr, { replies := [.ok "success\n", .error ⟨.brokenPipe, none⟩] }, {}⟩,
    rfl, rfl, rfl, by decide +kernel,
    (observe_reopening _ _ _ _ rfl rfl (by decide)).1⟩

end Session

end SmtSession
