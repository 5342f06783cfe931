import SmtSession.Host.Scripted
import SmtSession.Proofs.Session.Conversation
import SmtSession.Proofs.Session.Wire

/-!
# The end of a session

A session is over when the solver is lost while it is sent a text, when it is
found dead after a check, and when it has been told to exit.  Such an event is
always noticed, nothing else ends a session, and a session that is over stays
over and asks for nothing any more (`Session.termination_through`).

## Strategy

An execution that starts in a running session ends in one of two ways.  Either
the session still runs and nothing that was asked for has ended it
(`Session.Running`), or it is over, and the last events are those that an
execution of the command can end it with (`Session.Over`).  An exit ends it
whatever comes back, and of the other commands the error tells which of the two
it is (`Session.Failed`).
-/

namespace SmtSession

/-- Whether the solver is gone after an event: a text was not answered, the solver was found dead,
or it was stopped. -/
def Event.isEnd (event : Event) : Bool :=
  match event.call with
  | .send _ => !event.succeeded
  | .sendNoWait _ => false
  | .isAlive _ => !event.succeeded
  | .terminate => true

/-- The events with which an execution of a command ends the session. -/
inductive Final : Command → List Event → Prop
  | lost {command : Command} (text : String) : Final command [⟨.send text, false⟩]
  | died : Final .checkSat [⟨.isAlive false, false⟩]
  | left (text : String) (answered stopped : Bool) :
      Final .exit [⟨.send text, answered⟩, ⟨.terminate, stopped⟩]

/-- A pop can end a session only in the way in which every command can. -/
theorem Final.of_pop {levels : Nat} {events : List Event} (h : Final (.pop levels) events)
    (command : Command) : Final command events := by
  cases h with
  | lost text => exact .lost text

theorem Final.exists_isEnd {command : Command} {events : List Event} (h : Final command events) :
    ∃ event ∈ events, event.isEnd = true := by
  cases h with
  | lost text => exact ⟨_, List.mem_singleton_self _, rfl⟩
  | died => exact ⟨_, List.mem_singleton_self _, rfl⟩
  | left text answered stopped => exact ⟨⟨.terminate, stopped⟩, by simp, rfl⟩

theorem Final.count_terminate_le {command : Command} {events : List Event}
    (h : Final command events) : (events.map Event.call).count .terminate ≤ 1 := by
  cases h with
  | lost text => simp
  | died => simp
  | left text answered stopped => simp

theorem count_terminate_of_quiet {events : List Event}
    (h : ∀ event ∈ events, event.isEnd = false) :
    (events.map Event.call).count .terminate = 0 := by
  rw [List.count_eq_zero]
  intro hmem
  obtain ⟨event, hevent, hcall⟩ := List.mem_map.mp hmem
  have hend := h event hevent
  simp [Event.isEnd, hcall] at hend

theorem State.terminated_commit {command : Command} (hexit : command ≠ .exit) (state : State)
    (response : Response) :
    (state.commit command response).terminated = state.terminated := by
  cases command with
  | exit => exact absurd rfl hexit
  | pop levels =>
      rw [commit]
      split <;> rfl
  | setOption key value =>
      rw [commit]
      split <;> rfl
  | _ => rfl

/-- Whether an execution says with the error that the session is over. -/
def SessionError.isFatal : SessionError → Bool
  | .failure _ => true
  | .terminated => true
  | _ => false

namespace Session

variable {σ : Type}

/-! ## Two conditions -/

/-- The session runs, and nothing in the log has ended it. -/
structure Running (session : Session (σ × List Event)) : Prop where
  terminated : session.state.terminated = false
  quiet : ∀ event ∈ session.world.2, event.isEnd = false

/-- The session is over, and it was ended by the command. -/
structure Over (command : Command) (session : Session (σ × List Event)) : Prop where
  terminated : session.state.terminated = true
  final : ∃ quiet final, session.world.2 = quiet ++ final ∧
    (∀ event ∈ quiet, event.isEnd = false) ∧ Final command final

/-- What a command leaves behind that was sent. -/
def Settled (command : Command) (session : Session (σ × List Event)) : Prop :=
  if command = .exit then Over command session else Running session

/-- What a command leaves behind that fails with an error. -/
def Failed (command : Command) : SessionError → Session (σ × List Event) → Prop
  | .failure _ => Over command
  | .terminated => Over command
  | _ => Settled command

section Conditions

variable {session : Session (σ × List Event)} {command : Command} {event : Event}

theorem Running.seeing (h : Running session) (world : σ) (hquiet : event.isEnd = false) :
    Running (session.seeing world event) where
  terminated := h.terminated
  quiet := List.forall_mem_append.mpr ⟨h.quiet, List.forall_mem_singleton.mpr hquiet⟩

theorem Running.commit (h : Running session) (hexit : command ≠ .exit) (response : Response) :
    Running { session with state := session.state.commit command response } where
  terminated := (State.terminated_commit hexit _ _).trans h.terminated
  quiet := h.quiet

theorem Over.commit_exit (h : Over .exit session) (response : Response) :
    Over .exit { session with state := session.state.commit .exit response } :=
  ⟨rfl, h.final⟩

theorem Over.of_pop {levels : Nat} (h : Over (.pop levels) session) (command : Command) :
    Over command session := by
  obtain ⟨quiet, final, hlog, hquiet, hfinal⟩ := h.final
  exact ⟨h.terminated, quiet, final, hlog, hquiet, hfinal.of_pop command⟩

theorem settled_exit : Settled .exit session ↔ Over .exit session := by
  rw [Settled, if_pos rfl]

theorem settled_iff (hexit : command ≠ .exit) : Settled command session ↔ Running session := by
  rw [Settled, if_neg hexit]

theorem failed_exit {error : SessionError} (h : Over .exit session) :
    Failed .exit error session := by
  cases error with
  | failure failure => exact h
  | terminated => exact h
  | _ => exact settled_exit.mpr h

theorem failed_of_pop {levels : Nat} {error : SessionError} (hexit : command ≠ .exit)
    (h : Failed (.pop levels) error session) : Failed command error session := by
  have hsettled : Settled (.pop levels) session → Settled command session := fun hpop =>
    (settled_iff hexit).mpr ((settled_iff (by simp)).mp hpop)
  cases error with
  | failure failure => exact Over.of_pop h command
  | terminated => exact Over.of_pop h command
  | _ => exact hsettled h

theorem running_or_over_of_settled (h : Settled command session) :
    Running session ∨ Over command session := by
  unfold Settled at h
  split at h
  · exact .inr h
  · exact .inl h

theorem running_or_over_of_failed {error : SessionError} (h : Failed command error session) :
    Running session ∨ Over command session := by
  cases error with
  | failure failure => exact .inr h
  | terminated => exact .inr h
  | _ => exact running_or_over_of_settled h

end Conditions

/-! ## Deliveries -/

variable (host : Host σ)

theorem keptByOutputs_running : KeptByOutputs host.logged Running where
  openFile _ _ h := ⟨h.terminated, h.quiet⟩
  write _ _ _ h := ⟨h.terminated, h.quiet⟩

theorem keptByOutputs_over (command : Command) : KeptByOutputs host.logged (Over command) where
  openFile _ _ h := ⟨h.terminated, h.final⟩
  write _ _ _ h := ⟨h.terminated, h.final⟩

theorem ensures_transmit (command : Command) (text : String) :
    Ensures Running (transmit host.logged text) (fun _ => Running) (Failed command) := by
  intro session h
  refine Meets.bind_ok (onWorld_watched (.send text) Except.isOk (host.send text) session) ?_
  rcases host.send text session.world.1 with ⟨failure | reply, world⟩
  · exact ⟨rfl, session.world.2, _, rfl, h.quiet, .lost text⟩
  · exact h.seeing world rfl

theorem ensures_decode {command : Command} (hexit : command ≠ .exit) (reply : String)
    (shape : ReplyShape) :
    Ensures Running (decode reply shape) (fun _ => Settled (σ := σ) command) (Failed command) := by
  intro session h
  have hsettled : Settled command session := (settled_iff hexit).mpr h
  rw [decode_apply]
  cases session.decoder.decode reply shape with
  | ok response => exact hsettled
  | error error => exact hsettled

theorem ensures_leave (text : String) :
    Ensures Running (leave host.logged text) (fun _ => Over .exit) (fun _ => Over .exit) := by
  intro session h
  refine Meets.bind_ok (onWorld_watched (.send text) Except.isOk (host.send text) session) ?_
  refine Meets.bind_ok (get_apply _) ?_
  refine Meets.bind_ok (onWorld_watched .terminate Except.isOk host.terminate _) ?_
  refine Meets.bind_ok rfl ?_
  -- the session is over before the line is written and the reply is read
  exact Ensures.bind (ensures_diagnose (keptByOutputs_over host .exit) _)
    (fun _ => (keeps_farewell _ _).ensures) _
    ⟨rfl, session.world.2, _, List.append_assoc .., h.quiet, .left text _ _⟩

theorem ensures_deliver (command : Command) (shape : ReplyShape) :
    Ensures Running (deliver host.logged command shape) (fun _ => Settled command)
      (Failed command) := by
  unfold deliver
  cases htext : translate .z3 (.command command) with
  | error refused =>
      have hexit : command ≠ .exit := by
        rintro rfl
        have htranslate : translate .z3 (.command .exit) = .ok "(exit)" := rfl
        simp [htranslate] at htext
      exact .throw fun session h => (settled_iff hexit).mpr h
  | ok text =>
      dsimp only
      split
      · exact (ensures_leave host text).mono (fun _ _ h => settled_exit.mpr h)
          fun _ _ h => failed_exit h
      · -- the solver is asked whether it lives before its reply is read
        refine .bind (ensures_transmit host _ text) fun reply => ?_
        intro session h
        refine Meets.bind_ok (onWorld_watched (.isAlive false) id (host.isAlive false) session) ?_
        cases (host.isAlive false session.world.1).1 with
        | true =>
            rw [if_pos rfl]
            exact ensures_decode (by simp) reply shape _ (h.seeing _ rfl)
        | false => exact ⟨rfl, session.world.2, _, rfl, h.quiet, .died⟩
      · next levels =>
        refine .bind (ensures_transmit host _ text) fun reply => .get fun session h => ?_
        have hsettled : Settled (.push levels) session := (settled_iff (by simp)).mpr h
        cases session.decoder.decode reply shape with
        | ok response => exact hsettled
        | error error => cases error <;> exact hsettled
      · next hexit _ _ =>
        exact .bind (ensures_transmit host _ text) fun reply => ensures_decode hexit reply shape

/-! ## Executions -/

section NoExit

variable {command : Command} (hexit : command ≠ .exit)

include hexit

theorem ensures_perform (plan : Plan) :
    Ensures Running (perform host.logged command plan) (fun _ => Settled command)
      (Failed command) := by
  cases plan with
  | answer response => exact .pure fun _ h => (settled_iff hexit).mpr h
  | send shape => exact ensures_deliver host command shape
  | reopen levels =>
      -- the pop is a command of its own, after which the session still runs if it did not fail
      have hpop : Ensures Running (deliver host.logged (.pop levels) .success) (fun _ => Running)
          (Failed command) :=
        (ensures_deliver host (.pop levels) .success).mono
          (fun _ _ h => (settled_iff (by simp)).mp h) fun _ _ h => failed_of_pop hexit h
      have hcommit : ∀ popped, Ensures (σ := σ × List Event) Running (commit (.pop levels) popped)
          (fun _ => Running) (Failed command) := fun popped session h => h.commit (by simp) popped
      exact .bind hpop fun popped => .bind (hcommit popped) fun _ =>
        ensures_deliver host command .success

theorem ensures_execute_of_ne :
    Ensures Running (execute host.logged command) (fun _ => Settled command) (Failed command) := by
  refine .get fun session h => ?_
  rw [h.terminated]
  cases session.state.plan session.config.relax command with
  | error violation => exact (settled_iff hexit).mpr h
  | ok plan =>
      have hprepare : Ensures Running (prepare host.logged command) (fun _ => Running)
          (Failed command) :=
        ensures_prepare (keptByOutputs_running host) (fun _ _ _ h => ⟨h.terminated, h.quiet⟩)
          (fun _ _ _ h => (settled_iff hexit).mpr h) command
      have hcommit : ∀ response, Ensures (σ := σ × List Event) (Settled command)
          (commit command response) (fun _ => Settled command) (Failed command) := by
        intro response session hsettled
        have hrunning : Running session := (settled_iff hexit).mp hsettled
        exact (settled_iff hexit).mpr (hrunning.commit hexit response)
      refine Ensures.bind hprepare (fun _ => ?_) session h
      refine .bind (ensures_perform host hexit plan) fun response => ?_
      exact .bind (hcommit response) fun _ => .pure fun _ h => h

end NoExit

/-- An exit ends the session, whatever comes back. -/
theorem ensures_execute_exit :
    Ensures Running (execute host.logged .exit) (fun _ => Over .exit) (fun _ => Over .exit) := by
  refine .get fun session h => ?_
  rw [h.terminated]
  have hcommit : ∀ response, Ensures (σ := σ × List Event) (Over .exit) (commit .exit response)
      (fun _ => Over .exit) (fun _ => Over .exit) := fun response _ hover =>
    hover.commit_exit response
  have hprepare : Ensures Running (prepare host.logged .exit) (fun _ => Running)
      (fun _ => Over .exit) := .pure fun _ h => h
  refine Ensures.bind hprepare (fun _ => ?_) session h
  refine .bind (ensures_leave host "(exit)") fun response => ?_
  exact .bind (hcommit response) fun _ => .pure fun _ h => h

/-- **An execution of a running session leaves it running, or it is over and its last events say
why.** -/
theorem ensures_execute (command : Command) :
    Ensures Running (execute host.logged command) (fun _ => Settled command) (Failed command) := by
  by_cases hexit : command = .exit
  · subst hexit
    exact (ensures_execute_exit host).mono (fun _ _ h => settled_exit.mpr h)
      fun _ _ h => failed_exit h
  · exact ensures_execute_of_ne host hexit

/-! ## Requests -/

section Requests

variable {host} {session : Session σ}

theorem running_logging (h : session.state.terminated = false) : Running session.logging :=
  ⟨h, by simp [logging]⟩

/-- A request leaves a running session running, or it is an execution that ends the session. -/
theorem running_or_over (hrunning : session.state.terminated = false) (request : Request) :
    Running (session.logging.following host.logged request) ∨
      ∃ command, request = .execute command ∧
        Over command (session.logging.following host.logged request) := by
  have hlogging : Running session.logging := running_logging hrunning
  cases request with
  | execute command =>
      have hended : Running (ended (execute host.logged command session.logging)) ∨
          Over command (ended (execute host.logged command session.logging)) := by
        have hmeets := ensures_execute host command session.logging hlogging
        cases hrun : execute host.logged command session.logging with
        | ok response after =>
            rw [hrun] at hmeets
            exact running_or_over_of_settled hmeets
        | error error after =>
            rw [hrun] at hmeets
            exact running_or_over_of_failed hmeets
      exact hended.imp id fun hover => ⟨command, rfl, hover⟩
  | comment text =>
      have hcomment : Ensures Running (comment host.logged text) (fun _ => Running)
          (fun _ => Running) := by
        refine .get fun session h => ?_
        rw [h.terminated]
        exact h.seeing _ rfl
      exact .inl (hcomment.keeps session.logging hlogging)
  | print response =>
      exact .inl (keeps_print (keptByOutputs_running host) response session.logging hlogging)

theorem state_following (request : Request) :
    (session.following host request).state =
      (session.logging.following host.logged request).state := by
  rw [← viewed_following_logged]
  rfl

/-- A session that is over is left as it is, but for what is printed. -/
theorem following_of_terminated (h : session.state.terminated = true) (request : Request) :
    (session.following host request).state.terminated = true ∧
      session.events host request = [] := by
  cases request with
  | execute command =>
      have hlogging : session.logging.state.terminated = true := h
      simp only [events, following, execute_of_terminated h, execute_of_terminated hlogging]
      exact ⟨h, rfl⟩
  | comment text =>
      have hcomment : comment host.logged text session.logging = .ok () session.logging := by
        rw [comment, bind_apply, get_apply]
        dsimp only
        rw [show session.logging.state.terminated = true from h]
        rfl
      obtain ⟨world, hworld⟩ := exists_ended_comment host session text
      simp only [events, following, hcomment, hworld]
      exact ⟨h, rfl⟩
  | print response =>
      obtain ⟨world, hworld⟩ := exists_ended_print host session response
      refine ⟨?_, events_print response⟩
      rw [following, hworld]
      exact h

end Requests

/-! ## Conversations -/

/-- What holds of a session that is over: it stays so, refuses every command, and asks the
transport for nothing any more. -/
structure Stopped (host : Host σ) (session : Session σ) : Prop where
  terminated : ∀ later, (session.through host later).state.terminated = true
  refused : ∀ later command, execute host command (session.through host later) =
    .error .terminated (session.through host later)
  silent : ∀ later, session.log host later = []

/-- Why an execution may end a session: a text was not answered, the solver was found dead after a
check, or it was told to exit. -/
inductive EndedBy (command : Command) (events : List Event) : Prop
  | lost (text : String) (h : ⟨.send text, false⟩ ∈ events)
  | died (hcheck : command = .checkSat) (h : ⟨.isAlive false, false⟩ ∈ events)
  | left (hexit : command = .exit)

section Conversations

variable {host} {session : Session σ}

theorem stopped_of_terminated (h : session.state.terminated = true) : Stopped host session := by
  have hstep : ∀ (session : Session σ) request, session.state.terminated = true →
      (session.following host request).state.terminated = true := fun _ request h =>
    (following_of_terminated h request).1
  have hthrough : ∀ later, (session.through host later).state.terminated = true := fun later =>
    holds_through host hstep h later
  refine ⟨hthrough, fun later => execute_of_terminated (hthrough later), ?_⟩
  intro later
  induction later generalizing session with
  | nil => rfl
  | cons request later ih =>
      have hevents : session.events host request = [] := (following_of_terminated h request).2
      rw [log_cons, hevents, List.nil_append]
      exact ih (hthrough [request]) fun later => hthrough (request :: later)

/-- What an execution of a running session says is so: it leaves the session over if it was an exit
or if the error is fatal, and only then. -/
theorem terminated_of_execute (hrunning : session.state.terminated = false) (command : Command) :
    Meets (fun _ after => after.state.terminated = true ↔ command = .exit)
      (fun error after => after.state.terminated = true ↔ error.isFatal ∨ command = .exit)
      (execute host command session) := by
  have hsettled : ∀ after : Session (σ × List Event), Settled command after →
      (after.state.terminated = true ↔ command = .exit) := by
    intro after hafter
    by_cases hexit : command = .exit
    · subst hexit
      simp [(settled_exit.mp hafter).terminated]
    · simp [((settled_iff hexit).mp hafter).terminated, hexit]
  have hmeets := ensures_execute host command session.logging (running_logging hrunning)
  refine meets_viewed (matches_execute host.extends_logged command) (hmeets.mono ?_ ?_)
  · exact fun _ after hafter => hsettled after hafter
  · intro error after hfailed
    cases error with
    | failure failure => simpa [SessionError.isFatal] using Over.terminated hfailed
    | terminated => simpa [SessionError.isFatal] using Over.terminated hfailed
    | _ => simpa [SessionError.isFatal] using hsettled after hfailed

theorem endedBy_of_over {command : Command} {after : Session (σ × List Event)}
    (h : Over command after) : EndedBy command after.world.2 := by
  obtain ⟨quiet, final, hlog, -, hfinal⟩ := h.final
  rw [hlog]
  cases hfinal with
  | lost text => exact .lost text (by simp)
  | died => exact .died rfl (by simp)
  | left text answered stopped => exact .left rfl

/-- Only an execution that has a reason ends a session. -/
theorem exists_endedBy (hrunning : session.state.terminated = false) {request : Request}
    (h : (session.following host request).state.terminated = true) :
    ∃ command, request = .execute command ∧ EndedBy command (session.events host request) := by
  rcases running_or_over hrunning request with hafter | ⟨command, hrequest, hover⟩
  · rw [state_following, hafter.terminated] at h
    simp at h
  · exact ⟨command, hrequest, endedBy_of_over hover⟩

/-- What the log of a session that was opened says of its end. -/
theorem log_of_running (hrunning : session.state.terminated = false) (requests : List Request) :
    ((session.through host requests).state.terminated = true ↔
        ∃ event ∈ session.log host requests, event.isEnd = true) ∧
      ((session.log host requests).map Event.call).count .terminate ≤ 1 := by
  induction requests generalizing session with
  | nil => simp [hrunning]
  | cons request later ih =>
      rw [through_cons, log_cons, List.map_append, List.count_append]
      simp only [List.mem_append, or_and_right, exists_or]
      rcases running_or_over hrunning request with hafter | ⟨command, -, hover⟩
      · -- the request has not ended the session, so what counts is what comes later
        have hquiet : ∀ event ∈ session.events host request, event.isEnd = false := hafter.quiet
        obtain ⟨hiff, hcount⟩ := ih ((state_following request).symm ▸ hafter.terminated)
        rw [count_terminate_of_quiet hquiet, hiff]
        refine ⟨⟨.inr, ?_⟩, by omega⟩
        rintro (⟨event, hmem, hend⟩ | hlater)
        · simp [hquiet event hmem] at hend
        · exact hlater
      · -- the request has ended it, and nothing comes later
        have hstopped : Stopped host (session.following host request) :=
          stopped_of_terminated ((state_following request).symm ▸ hover.terminated)
        obtain ⟨quiet, final, hlog, hquiet, hfinal⟩ := hover.final
        obtain ⟨event, hmem, hend⟩ := hfinal.exists_isEnd
        have hevents : session.events host request = quiet ++ final := hlog
        rw [hstopped.silent, hevents, List.map_append, List.count_append,
          count_terminate_of_quiet hquiet]
        refine ⟨⟨fun _ => .inl ⟨event, List.mem_append_right _ hmem, hend⟩,
          fun _ => hstopped.terminated later⟩, ?_⟩
        simpa using hfinal.count_terminate_le

/-- **The end of a session is noticed, and it is final.**  A session that was opened is over exactly
if an event of the conversation has ended it; only an execution can do that, and it says so; and
from then on the session is refused everything and asks for nothing.  The solver is stopped at most
once. -/
theorem termination_through {config : Config} {world world' : σ} {opened : Session σ}
    (hstart : start host config world = .ok opened world') (requests : List Request) :
    ((opened.through host requests).state.terminated = true ↔
        ∃ event ∈ opened.log host requests, event.isEnd = true) ∧
      (startCalls host config world ++ (opened.log host requests).map Event.call).count
        .terminate ≤ 1 ∧
      ((opened.through host requests).state.terminated = true →
        Stopped host (opened.through host requests)) ∧
      ((opened.through host requests).state.terminated = false →
        (∀ command,
          Meets (fun _ after => after.state.terminated = true ↔ command = .exit)
            (fun error after => after.state.terminated = true ↔ error.isFatal ∨ command = .exit)
            (execute host command (opened.through host requests))) ∧
        ∀ request, ((opened.through host requests).following host request).state.terminated = true →
          ∃ command, request = .execute command ∧
            EndedBy command ((opened.through host requests).events host request)) := by
  have hopened : opened.state.terminated = false := by
    rw [state_of_start hstart]
    rfl
  refine ⟨(log_of_running hopened requests).1, ?_, stopped_of_terminated, ?_⟩
  · rw [startCalls_eq, List.count_append]
    simpa using (log_of_running hopened requests).2
  · exact fun hrunning => ⟨terminated_of_execute hrunning, fun _ => exists_endedBy hrunning⟩

end Conversations

/-- A session that is lost at a push refuses a reset. -/
theorem termination_through_lost : ∃ (opened : Session Script) (requests : List Request),
    (opened.log .scripted requests).map Event.call =
        [.send "(set-logic QF_LIA)", .send "(push 2)"] ∧
      execute .scripted .reset (opened.through .scripted requests) =
        .error .terminated (opened.through .scripted requests) := by
  have hrun : ∃ (opened : Session Script) (world' : Script) (requests : List Request),
      start .scripted { lenient := true }
          ({ byName := [("push", [.error ⟨.brokenPipe, none⟩])] } : Script) = .ok opened world' ∧
        (opened.log .scripted requests).map Event.call =
          [.send "(set-logic QF_LIA)", .send "(push 2)"] ∧
        (opened.through .scripted requests).state.terminated = true :=
    ⟨_, _, [.execute (.setLogic ⟨"QF_LIA"⟩), .execute (.push 2)], rfl, by decide +kernel,
      by decide +kernel⟩
  obtain ⟨opened, world', requests, hstart, hcalls, hterminated⟩ := hrun
  have hstopped : Stopped .scripted (opened.through .scripted requests) :=
    (termination_through hstart requests).2.2.1 hterminated
  exact ⟨opened, requests, hcalls, hstopped.refused [] .reset⟩

end Session

end SmtSession
