import SmtSession.Session.Basic

/-!
# What actions do to a session

What an action does to a session is said with conditions on the session before
it and after it, where an action that fails leaves a session behind as well
(`Session.Ensures`).  Most often one condition is kept (`Session.Keeps`).

A condition that the host keeps, and that has nothing to do with the state, is
kept by whatever a session sends (`Session.KeptByHost`, `Session.keeps_perform`);
if it has nothing to do with the channels either, every execution keeps it
(`Session.keeps_execute`).

Only an exit writes anything while it is delivered.  So what is kept by a host
without output is kept when any other command is delivered
(`Session.keeps_deliver_muted`).
-/

namespace SmtSession

/-- Output channels that take everything and keep nothing. -/
def Outputs.mute {σ : Type} : Outputs σ where
  openFile _ := pure (.ok ())
  write _ _ := pure (.ok ())

/-- The host without its output. -/
def Host.muted {σ : Type} (host : Host σ) : Host σ :=
  { host.toTransport, Outputs.mute with }

namespace Session

variable {σ α β : Type}

theorem bind_apply (action : SessionM σ α) (next : α → SessionM σ β) (session : Session σ) :
    (action >>= next) session =
      match action session with
      | .ok value after => next value after
      | .error error after => .error error after := by
  show EStateM.bind action next session = _
  unfold EStateM.bind
  cases action session <;> rfl

theorem get_apply (session : Session σ) :
    (get : SessionM σ (Session σ)) session = .ok session session :=
  rfl

theorem execute_of_terminated {host : Host σ} {session : Session σ}
    (h : session.state.terminated = true) (command : Command) :
    execute host command session = .error .terminated session := by
  rw [execute, bind_apply, get_apply]
  simp only [h, if_true]
  rfl

theorem execute_of_broken {host : Host σ} {command : Command} {session : Session σ}
    {broken : Violation} (hrunning : session.state.terminated = false)
    (hplan : session.state.plan session.config.relax command = .error broken) :
    execute host command session = .error (.violation broken) session := by
  rw [execute, bind_apply, get_apply]
  simp only [hrunning, hplan, Bool.false_eq_true, if_false]
  rfl

/-- A command that is let pass is prepared, performed and committed. -/
theorem execute_of_plan {host : Host σ} {command : Command} {session : Session σ} {plan : Plan}
    (hrunning : session.state.terminated = false)
    (hplan : session.state.plan session.config.relax command = .ok plan) :
    execute host command session =
      (do
        prepare host command
        let response ← perform host command plan
        commit command response
        return response : SessionM σ Response) session := by
  rw [execute, bind_apply, get_apply]
  simp only [hrunning, hplan, Bool.false_eq_true, if_false]

/-- The answer to the question what an option is. -/
def optionAnswer : Option AttributeValue → Response
  | some value => .value value
  | none => .unsupported

/-- A session that runs says what an option is, and that is all it does. -/
theorem execute_getOption {host : Host σ} {session : Session σ}
    (hrunning : session.state.terminated = false) (key : Keyword) :
    execute host (.getOption key) session =
      .ok (optionAnswer (session.state.options.get? key)) session := by
  have hplan : session.state.plan session.config.relax (.getOption key) =
      .ok (.answer (optionAnswer (session.state.options.get? key))) := by
    rw [State.plan]
    cases session.state.options.get? key <;> rfl
  rw [execute_of_plan hrunning hplan]
  rfl

/-- The session that an action ends with. -/
def ended : EStateM.Result SessionError (Session σ) α → Session σ
  | .ok _ after => after
  | .error _ after => after

/-- The action keeps what holds of a session, whether it fails or not. -/
def Keeps (holds : Session σ → Prop) (action : SessionM σ α) : Prop :=
  ∀ session, holds session → holds (ended (action session))

/-- What the conditions say of a result. -/
def Meets (done : α → Session σ → Prop) (failed : SessionError → Session σ → Prop) :
    EStateM.Result SessionError (Session σ) α → Prop
  | .ok value after => done value after
  | .error error after => failed error after

theorem Meets.mono {done done' : α → Session σ → Prop}
    {failed failed' : SessionError → Session σ → Prop}
    {result : EStateM.Result SessionError (Session σ) α} (h : Meets done failed result)
    (hdone : ∀ value after, done value after → done' value after)
    (hfailed : ∀ error after, failed error after → failed' error after) :
    Meets done' failed' result := by
  cases result with
  | ok value after => exact hdone value after h
  | error error after => exact hfailed error after h

theorem Meets.bind_ok {action : SessionM σ α} {next : α → SessionM σ β}
    {done : β → Session σ → Prop} {failed : SessionError → Session σ → Prop} {value : α}
    {session after : Session σ} (haction : action session = .ok value after)
    (hnext : Meets done failed (next value after)) :
    Meets done failed ((action >>= next) session) := by
  rw [bind_apply, haction]
  exact hnext

theorem Meets.ended {done : α → Session σ → Prop} {failed : SessionError → Session σ → Prop}
    {holds : Session σ → Prop} {result : EStateM.Result SessionError (Session σ) α}
    (h : Meets done failed result) (hdone : ∀ value after, done value after → holds after)
    (hfailed : ∀ error after, failed error after → holds after) : holds (ended result) := by
  cases result with
  | ok value after => exact hdone value after h
  | error error after => exact hfailed error after h

/-- From a session of which the first condition holds, the action ends in one of which the second
condition holds, or the third one if it fails. -/
def Ensures (before : Session σ → Prop) (action : SessionM σ α) (done : α → Session σ → Prop)
    (failed : SessionError → Session σ → Prop) : Prop :=
  ∀ session, before session → Meets done failed (action session)

/-! ## Building actions -/

namespace Keeps

variable {holds : Session σ → Prop}

theorem pure (value : α) : Keeps holds (Pure.pure value) := fun _ h => h

theorem throw (error : SessionError) : Keeps (α := α) holds (MonadExcept.throw error) :=
  fun _ h => h

/-- What would follow an error does not matter. -/
theorem throw_bind (error : SessionError) (next : β → SessionM σ α) :
    Keeps holds (MonadExcept.throw error >>= next) :=
  fun _ h => h

theorem bind {action : SessionM σ α} {next : α → SessionM σ β} (haction : Keeps holds action)
    (hnext : ∀ value, Keeps holds (next value)) : Keeps holds (action >>= next) := by
  intro session h
  have hafter := haction session h
  rw [bind_apply]
  cases hrun : action session with
  | ok value after =>
      rw [hrun] at hafter
      exact hnext value after hafter
  | error error after =>
      rw [hrun] at hafter
      exact hafter

theorem ite {p : Prop} [Decidable p] {yes no : SessionM σ α} (hyes : Keeps holds yes)
    (hno : Keeps holds no) : Keeps holds (if p then yes else no) := by
  split
  · exact hyes
  · exact hno

theorem get : Keeps holds (MonadState.get : SessionM σ (Session σ)) := fun _ h => h

theorem modify {f : Session σ → Session σ} (h : ∀ session, holds session → holds (f session)) :
    Keeps holds (modify f : SessionM σ Unit) :=
  fun session => h session

theorem ensures {action : SessionM σ α} (h : Keeps holds action) :
    Ensures holds action (fun _ => holds) (fun _ => holds) := by
  intro session hbefore
  have hafter := h session hbefore
  cases hrun : action session with
  | ok value after =>
      rw [hrun] at hafter
      exact hafter
  | error error after =>
      rw [hrun] at hafter
      exact hafter

/-- An action on the world does not fail. -/
theorem ensures_onWorld {action : StateM σ α} {failed : SessionError → Session σ → Prop}
    (h : Keeps holds (onWorld action)) :
    Ensures holds (onWorld action) (fun _ => holds) failed :=
  h

end Keeps

namespace Ensures

variable {before : Session σ → Prop} {done middle : α → Session σ → Prop}
  {failed : SessionError → Session σ → Prop}

theorem pure {value : α} (h : ∀ session, before session → done value session) :
    Ensures before (Pure.pure value) done failed :=
  h

theorem throw {error : SessionError} (h : ∀ session, before session → failed error session) :
    Ensures before (MonadExcept.throw error) done failed :=
  h

theorem bind {action : SessionM σ α} {next : α → SessionM σ β} {done : β → Session σ → Prop}
    (haction : Ensures before action middle failed)
    (hnext : ∀ value, Ensures (middle value) (next value) done failed) :
    Ensures before (action >>= next) done failed := by
  intro session hbefore
  have hafter := haction session hbefore
  rw [bind_apply]
  cases hrun : action session with
  | ok value after =>
      rw [hrun] at hafter
      exact hnext value after hafter
  | error error after =>
      rw [hrun] at hafter
      exact hafter

/-- An action that looks at the session acts on the session that it has seen. -/
theorem get {next : Session σ → SessionM σ α}
    (hnext : ∀ session, before session → Meets done failed (next session session)) :
    Ensures before (MonadState.get >>= next) done failed :=
  hnext

theorem keeps {holds : Session σ → Prop} {action : SessionM σ α}
    (h : Ensures holds action (fun _ => holds) (fun _ => holds)) : Keeps holds action :=
  fun session hbefore =>
    (h session hbefore).ended (fun _ _ hafter => hafter) fun _ _ hafter => hafter

theorem mono {action : SessionM σ α} {done' : α → Session σ → Prop}
    {failed' : SessionError → Session σ → Prop} (h : Ensures before action done failed)
    (hdone : ∀ value session, done value session → done' value session)
    (hfailed : ∀ error session, failed error session → failed' error session) :
    Ensures before action done' failed' := by
  intro session hbefore
  exact (h session hbefore).mono hdone hfailed

end Ensures

/-! ## What the host keeps -/

/-- What holds of a session is kept when output is opened and written. -/
structure KeptByOutputs (host : Host σ) (holds : Session σ → Prop) : Prop where
  openFile : ∀ path, Keeps holds (onWorld (host.openFile path))
  write : ∀ channel text, Keeps holds (onWorld (host.write channel text))

/-- What holds of a session is kept by the host, and does not depend on the state. -/
structure KeptByHost (host : Host σ) (holds : Session σ → Prop) : Prop
    extends KeptByOutputs host holds where
  send : ∀ text, Keeps holds (onWorld (host.send text))
  isAlive : ∀ wait, Keeps holds (onWorld (host.isAlive wait))
  terminate : Keeps holds (onWorld host.terminate)
  modifyState : ∀ f, Keeps holds (modifyState f)

variable {host : Host σ} {holds : Session σ → Prop}

/-- What has nothing to do with state and world is kept by every host. -/
theorem keptByHost_of_apart
    (h : ∀ session state world, holds session → holds { session with state, world }) :
    KeptByHost host holds where
  openFile _ session := h session session.state _
  write _ _ session := h session session.state _
  send _ session := h session session.state _
  isAlive _ session := h session session.state _
  terminate session := h session session.state _
  modifyState _ session := h session _ session.world

section Prepare

variable {failed : SessionError → Session σ → Prop}

theorem ensures_diagnose (h : KeptByOutputs host holds) (line : String) :
    Ensures holds (diagnose host line) (fun _ => holds) failed := by
  refine .get fun session hbefore => ?_
  split
  · exact Ensures.bind (h.write _ _).ensures_onWorld (fun _ => .pure fun _ hafter => hafter)
      session hbefore
  · exact hbefore

section Open

variable (hopen : ∀ path, Keeps holds (onWorld (host.openFile path)))
  (hfailed : ∀ path failure session, holds session → failed (.channel path failure) session)

include hopen hfailed

/-- A channel that is opened is that of the name. -/
theorem ensures_openChannel (name : String) :
    Ensures holds (openChannel host name)
      (fun channel session => channel = Channel.ofName name ∧ holds session) failed := by
  unfold openChannel
  split
  · next path hpath =>
    refine .bind (hopen path).ensures_onWorld fun result => ?_
    cases result with
    | ok opened => exact .pure fun _ hafter => ⟨hpath.symm, hafter⟩
    | error failure => exact .throw (hfailed path failure)
  · exact .pure fun _ hbefore => ⟨rfl, hbefore⟩

/-- Nothing but a logic is announced while a command is prepared. -/
theorem ensures_prepare_unannounced
    (hchannels : ∀ session regular diagnostic, holds session →
      holds { session with regular, diagnostic })
    {command : Command} (hcommand : ∀ logic, command ≠ .setLogic logic) :
    Ensures holds (prepare host command) (fun _ => holds) failed := by
  unfold prepare
  split
  · next logic => exact absurd rfl (hcommand logic)
  · split
    · refine .bind (ensures_openChannel hopen hfailed _) fun channel => ?_
      exact fun session hopened => hchannels session _ _ hopened.2
    · split
      · refine .bind (ensures_openChannel hopen hfailed _) fun channel => ?_
        exact fun session hopened => hchannels session _ _ hopened.2
      · exact .pure fun _ hbefore => hbefore
  · exact .pure fun _ hbefore => hbefore

end Open

theorem ensures_prepare (h : KeptByOutputs host holds)
    (hchannels : ∀ session regular diagnostic, holds session →
      holds { session with regular, diagnostic })
    (hfailed : ∀ path failure session, holds session → failed (.channel path failure) session)
    (command : Command) : Ensures holds (prepare host command) (fun _ => holds) failed := by
  by_cases hlogic : ∃ logic, command = .setLogic logic
  · obtain ⟨logic, rfl⟩ := hlogic
    exact ensures_diagnose h _
  · exact ensures_prepare_unannounced h.openFile hfailed hchannels (by simpa using hlogic)

end Prepare

theorem keeps_decode (reply : String) (shape : ReplyShape) :
    Keeps holds (decode reply shape) := by
  refine .bind .get fun session => ?_
  cases session.decoder.decode reply shape with
  | ok response => exact .pure _
  | error error => exact .throw _

/-- What is made of the answer to an exit. -/
theorem keeps_farewell (answered : Except Failure String) (decoder : Decoder) :
    Keeps holds
      (match answered with
        | .ok reply =>
          match decoder.decode reply .success with
          | .ok response => pure response
          | .error error => throw (.reply error)
        | .error failure =>
          if failure.cause = .unexpectedEnd then pure .success
          else throw (.failure failure) : SessionM σ Response) := by
  cases answered with
  | ok reply =>
      dsimp only
      cases decoder.decode reply .success with
      | ok response => exact .pure _
      | error error => exact .throw _
  | error failure => exact .ite (.pure _) (.throw _)

variable (h : KeptByHost host holds)

include h

theorem keeps_transmit (text : String) : Keeps holds (transmit host text) := by
  refine .bind (h.send text) fun result => ?_
  cases result with
  | ok reply => exact .pure _
  | error failure => exact .bind (h.modifyState _) fun _ => .throw _

theorem keeps_leave (text : String) : Keeps holds (leave host text) := by
  refine .bind (h.send text) fun answered => .bind .get fun session => ?_
  refine .bind h.terminate fun _ => .bind (h.modifyState _) fun _ => ?_
  exact .bind (ensures_diagnose h.toKeptByOutputs _).keeps fun _ =>
    keeps_farewell answered session.decoder

theorem keeps_deliver (command : Command) (shape : ReplyShape) :
    Keeps holds (deliver host command shape) := by
  unfold deliver
  cases translate .z3 (.command command) with
  | error refused => exact .throw _
  | ok text =>
      dsimp only
      -- an exit, a check, a push, and everything else
      split
      · exact keeps_leave h text
      · refine .bind (keeps_transmit h text) fun reply => ?_
        refine .bind (h.isAlive false) fun alive => ?_
        exact .ite (keeps_decode _ _) (.bind (h.modifyState _) fun _ => .throw _)
      · refine .bind (keeps_transmit h text) fun reply => .bind .get fun session => ?_
        split
        · exact .pure _
        · exact .pure _
        · exact .throw _
      · exact .bind (keeps_transmit h text) fun reply => keeps_decode _ _

theorem keeps_perform (command : Command) (plan : Plan) :
    Keeps holds (perform host command plan) := by
  cases plan with
  | answer response => exact .pure _
  | send shape => exact keeps_deliver h command shape
  | reopen levels =>
      refine .bind (keeps_deliver h _ _) fun popped => ?_
      exact .bind (h.modifyState _) fun _ => keeps_deliver h _ _

omit h in
/-- An execution keeps what its parts keep. -/
theorem keeps_execute_of_parts {command : Command} (hprepare : Keeps holds (prepare host command))
    (hperform : ∀ plan, Keeps holds (perform host command plan))
    (hstate : ∀ f, Keeps holds (modifyState f)) : Keeps holds (execute host command) := by
  refine .bind .get fun session => ?_
  refine .ite (.throw_bind _ _) ?_
  cases session.state.plan session.config.relax command with
  | error broken => exact .throw _
  | ok plan =>
      refine .bind hprepare fun _ => ?_
      exact .bind (hperform plan) fun response => .bind (hstate _) fun _ => .pure _

/-- An execution keeps what its host keeps, if the channels are opened so that it is kept. -/
theorem keeps_execute_of_prepare {command : Command}
    (hprepare : Keeps holds (prepare host command)) : Keeps holds (execute host command) :=
  keeps_execute_of_parts hprepare (keeps_perform h command) h.modifyState

/-- **What the host keeps is kept by every execution**, if state and channels have no part in
it. -/
theorem keeps_execute
    (hchannels : ∀ session regular diagnostic, holds session →
      holds { session with regular, diagnostic })
    (command : Command) : Keeps holds (execute host command) :=
  keeps_execute_of_prepare h
    (ensures_prepare h.toKeptByOutputs hchannels (fun _ _ _ h => h) command).keeps

/-! ## Hosts without output -/

omit h

/-- A command other than an exit is delivered without any output. -/
theorem deliver_muted (host : Host σ) {command : Command} (hexit : command ≠ .exit)
    (shape : ReplyShape) : deliver host.muted command shape = deliver host command shape := by
  unfold deliver
  cases translate .z3 (.command command) with
  | error refused => rfl
  | ok text =>
      dsimp only
      split
      · exact absurd rfl hexit
      all_goals rfl

theorem keeps_deliver_muted (h : KeptByHost host.muted holds) {command : Command}
    (hexit : command ≠ .exit) (shape : ReplyShape) : Keeps holds (deliver host command shape) :=
  deliver_muted host hexit shape ▸ keeps_deliver h command shape

/-- A command other than an exit is performed without any output. -/
theorem keeps_perform_muted (h : KeptByHost host.muted holds) {command : Command}
    (hexit : command ≠ .exit) (plan : Plan) : Keeps holds (perform host command plan) := by
  cases plan with
  | answer response => exact .pure _
  | send shape => exact keeps_deliver_muted h hexit shape
  | reopen levels =>
      refine .bind (keeps_deliver_muted h (by simp) _) fun popped => ?_
      exact .bind (h.modifyState _) fun _ => keeps_deliver_muted h hexit _

end Session

end SmtSession
