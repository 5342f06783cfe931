import SmtSession.Proofs.Session.Keeping
import SmtSession.Proofs.Session.Recording

/-!
# Preparing and delivering a command

An execution prepares its command, which may redirect the output, and delivers
it, which hands its text to the transport and reads the reply.  This file says
of a session with a recording host what can come of either: which state and
channels it has afterwards, and what was recorded (`Session.prepared`,
`Session.delivered`).

Every outcome is written as the session it starts from, acted upon: another
state, another world, and some more calls (`Session.acted`).
-/

namespace SmtSession

/-! ## States that are not committed -/

namespace State

/-- The state of a session that is over. -/
def closed (state : State) : State := { state with terminated := true }

/-- The state once a command has been sent: an exit ends the session whatever comes back. -/
def sent (state : State) (command : Command) : State :=
  if command = .exit then state.closed else state

end State

namespace Session

variable {σ : Type}

/-- The session with its output going elsewhere. -/
def redirected (session : Session σ) (regular diagnostic : Channel) : Session σ :=
  { session with regular, diagnostic }

/-- The session in another state, after some calls. -/
def acted (session : Session (σ × List Call)) (state : State) (world : σ) (calls : List Call) :
    Session (σ × List Call) :=
  { session with state, world := (world, session.world.2 ++ calls) }

theorem acted_self (session : Session (σ × List Call)) :
    session.acted session.state session.world.1 [] = session := by
  obtain ⟨config, state, decoder, regular, diagnostic, world, calls⟩ := session
  simp [acted]

@[simp] theorem acted_acted (session : Session (σ × List Call)) (state state' : State)
    (world world' : σ) (calls calls' : List Call) :
    (session.acted state world calls).acted state' world' calls' =
      session.acted state' world' (calls ++ calls') := by
  simp [acted]

section Acted

variable (session : Session (σ × List Call)) (state : State) (world : σ) (calls : List Call)

@[simp] theorem state_acted : (session.acted state world calls).state = state := rfl
@[simp] theorem decoder_acted : (session.acted state world calls).decoder = session.decoder := rfl
@[simp] theorem world_acted :
    (session.acted state world calls).world = (world, session.world.2 ++ calls) := rfl

end Acted

/-! ## Delivering a command -/

/-- What comes of delivering a command. -/
inductive Delivered (command : Command) (session : Session (σ × List Call)) :
    EStateM.Result SessionError (Session (σ × List Call)) Response → Prop
  | untranslatable {refused : RefusedString}
      (htext : translate .z3 (.command command) = .error refused) :
      Delivered command session (.error (.untranslatable refused) session)
  | answered {response : Response} {text : String} {world : σ} {calls : List Call}
      (htext : translate .z3 (.command command) = .ok text)
      (hcalls : calls.filterMap Call.text? = [text]) :
      Delivered command session
        (.ok response (session.acted (session.state.sent command) world calls))
  | rejected {error : DecodeError} {text : String} {world : σ} {calls : List Call}
      (htext : translate .z3 (.command command) = .ok text)
      (hcalls : calls.filterMap Call.text? = [text]) :
      Delivered command session
        (.error (.reply error) (session.acted (session.state.sent command) world calls))
  | lost {failure : Failure} {text : String} {world : σ} {calls : List Call}
      (htext : translate .z3 (.command command) = .ok text)
      (hcalls : calls.filterMap Call.text? = [text]) :
      Delivered command session
        (.error (.failure failure) (session.acted session.state.closed world calls))
  | died {text : String} {world : σ} {calls : List Call}
      (htext : translate .z3 (.command command) = .ok text)
      (hcalls : calls.filterMap Call.text? = [text]) :
      Delivered command session
        (.error .terminated (session.acted session.state.closed world calls))

variable (host : Host σ)

theorem onWorld_noted {α : Type} (call : Call) (action : StateM σ α)
    (session : Session (σ × List Call)) :
    onWorld (Host.noted call action) session =
      .ok (action session.world.1).1
        (session.acted session.state (action session.world.1).2 [call]) :=
  rfl

theorem onWorld_onFirst {α : Type} (action : StateM σ α) (session : Session (σ × List Call)) :
    onWorld (Host.onFirst action) session =
      .ok (action session.world.1).1
        (session.acted session.state (action session.world.1).2 []) := by
  simp only [acted, List.append_nil]
  rfl

theorem close_acted (session : Session (σ × List Call)) (state : State) (world : σ)
    (calls : List Call) :
    modifyState ({ · with terminated := true }) (session.acted state world calls) =
      .ok () (session.acted state.closed world calls) :=
  rfl

theorem transmit_recorded (text : String) (session : Session (σ × List Call)) :
    transmit host.recorded text session =
      match host.send text session.world.1 with
      | (.ok reply, world) => .ok reply (session.acted session.state world [.send text])
      | (.error failure, world) =>
        .error (.failure failure) (session.acted session.state.closed world [.send text]) := by
  rw [transmit, bind_apply, Host.send_recorded, onWorld_noted]
  rcases host.send text session.world.1 with ⟨result | result, world⟩ <;> rfl

theorem decode_apply (reply : String) (shape : ReplyShape) (session : Session σ) :
    decode reply shape session =
      match session.decoder.decode reply shape with
      | .ok response => .ok response session
      | .error error => .error (.reply error) session := by
  simp only [decode, bind_apply, get_apply]
  cases session.decoder.decode reply shape <;> rfl

theorem exists_diagnose_recorded (line : String) (session : Session (σ × List Call)) :
    ∃ world, diagnose host.recorded line session =
      .ok () (session.acted session.state world []) := by
  simp only [diagnose, bind_apply, get_apply]
  by_cases hverbose : session.state.options.verbosity > 0
  · refine ⟨(host.write session.diagnostic (line ++ "\n") session.world.1).2, ?_⟩
    rw [if_pos hverbose, bind_apply]
    rw [Host.write_recorded, onWorld_onFirst]
    rfl
  · refine ⟨session.world.1, ?_⟩
    rw [if_neg hverbose, acted_self]
    rfl

theorem delivered_leave {text : String} (htext : translate .z3 (.command .exit) = .ok text)
    (session : Session (σ × List Call)) :
    Delivered .exit session (leave host.recorded text session) := by
  have hcalls : [Call.send text, .terminate].filterMap Call.text? = [text] := rfl
  -- whatever has come back, the transport is stopped, the session is over, and a line is written
  obtain ⟨world', hdiagnose⟩ := exists_diagnose_recorded host "Ended Z3 "
    (session.acted session.state.closed
      (host.terminate (host.send text session.world.1).2).2 [.send text, .terminate])
  rw [acted_acted, state_acted, List.append_nil] at hdiagnose
  simp only [leave, bind_apply, get_apply, Host.send_recorded, Host.terminate_recorded,
    onWorld_noted, acted_acted, close_acted, state_acted, decoder_acted, world_acted,
    List.singleton_append, hdiagnose]
  cases (host.send text session.world.1).1 with
  | ok reply =>
      dsimp only
      cases session.decoder.decode reply .success with
      | ok response => exact .answered htext hcalls
      | error error => exact .rejected htext hcalls
  | error failure =>
      dsimp only
      split
      · exact .answered htext hcalls
      · exact .lost htext hcalls

section NoExit

variable {command : Command} {session : Session (σ × List Call)} {text : String} {world : σ}
  {calls : List Call}

theorem delivered_answered (hexit : command ≠ .exit)
    (htext : translate .z3 (.command command) = .ok text)
    (hcalls : calls.filterMap Call.text? = [text]) (response : Response) :
    Delivered command session (.ok response (session.acted session.state world calls)) := by
  have hsent : session.state.sent command = session.state := if_neg hexit
  rw [← hsent]
  exact .answered htext hcalls

theorem delivered_rejected (hexit : command ≠ .exit)
    (htext : translate .z3 (.command command) = .ok text)
    (hcalls : calls.filterMap Call.text? = [text]) (error : DecodeError) :
    Delivered command session
      (.error (.reply error) (session.acted session.state world calls)) := by
  have hsent : session.state.sent command = session.state := if_neg hexit
  rw [← hsent]
  exact .rejected htext hcalls

theorem delivered_decode (hexit : command ≠ .exit)
    (htext : translate .z3 (.command command) = .ok text)
    (hcalls : calls.filterMap Call.text? = [text]) (reply : String) (shape : ReplyShape) :
    Delivered command session (decode reply shape (session.acted session.state world calls)) := by
  rw [decode_apply]
  cases (session.acted session.state world calls).decoder.decode reply shape with
  | ok response => exact delivered_answered hexit htext hcalls response
  | error error => exact delivered_rejected hexit htext hcalls error

end NoExit

/-- **A command is either refused by the dialect or sent, and sent once.** -/
theorem delivered (command : Command) (shape : ReplyShape) (session : Session (σ × List Call)) :
    Delivered command session (deliver host.recorded command shape session) := by
  rw [deliver]
  cases htext : translate .z3 (.command command) with
  | error refused => exact .untranslatable htext
  | ok text =>
      dsimp only
      split
      · exact delivered_leave host htext session
      · -- a check that is answered is taken for an answer only while the solver lives
        simp only [bind_apply, transmit_recorded, Host.isAlive_recorded, onWorld_noted]
        rcases host.send text session.world.1 with ⟨failure | reply, world⟩
        · exact .lost htext rfl
        · simp only [acted_acted, state_acted, List.singleton_append]
          by_cases halive :
              (host.isAlive false (session.acted session.state world [.send text]).world.1).1 = true
          · rw [if_pos halive]
            exact delivered_decode (by simp) htext rfl reply shape
          · rw [if_neg halive]
            exact .died htext rfl
      · next levels =>
        -- an error report about a push is an answer
        simp only [bind_apply, transmit_recorded]
        rcases host.send text session.world.1 with ⟨failure | reply, world⟩
        · exact .lost htext rfl
        · simp only [get_apply, decoder_acted]
          cases session.decoder.decode reply shape with
          | ok response => exact delivered_answered (by simp) htext rfl response
          | error error =>
              cases error with
              | solver message => exact delivered_answered (by simp) htext rfl .success
              | unexpected shape reply => exact delivered_rejected (by simp) htext rfl _
              | badSyntax error => exact delivered_rejected (by simp) htext rfl _
              | badTerm error => exact delivered_rejected (by simp) htext rfl _
      · next hexit _ _ =>
        rw [bind_apply, transmit_recorded]
        rcases host.send text session.world.1 with ⟨failure | reply, world⟩
        · exact .lost htext rfl
        · exact delivered_decode hexit htext rfl reply shape

/-! ## Preparing a command -/

/-- What comes of preparing a command: only the setting of an option can redirect the output. -/
inductive Prepared (command : Command) (session : Session (σ × List Call)) :
    EStateM.Result SessionError (Session (σ × List Call)) Unit → Prop
  | done {regular diagnostic : Channel} {world : σ}
      (hchannels : (∀ key value, command ≠ .setOption key value) →
        regular = session.regular ∧ diagnostic = session.diagnostic) :
      Prepared command session
        (.ok () ((session.redirected regular diagnostic).acted session.state world []))
  | unopened {path : String} {failure : Failure} {world : σ}
      (hset : ∃ key value, command = .setOption key value) :
      Prepared command session
        (.error (.channel path failure) (session.acted session.state world []))

theorem Prepared.same (command : Command) (session : Session (σ × List Call)) (world : σ) :
    Prepared command session (.ok () (session.acted session.state world [])) := by
  show Prepared command session (.ok ()
    ((session.redirected session.regular session.diagnostic).acted session.state world []))
  exact .done fun _ => ⟨rfl, rfl⟩

theorem Prepared.unchanged (command : Command) (session : Session (σ × List Call)) :
    Prepared command session (.ok () session) := by
  have hsame := Prepared.same command session session.world.1
  rwa [acted_self] at hsame

theorem openChannel_recorded (name : String) (session : Session (σ × List Call)) :
    (∃ channel world, openChannel host.recorded name session =
      .ok channel (session.acted session.state world [])) ∨
    ∃ path failure world, openChannel host.recorded name session =
      .error (.channel path failure) (session.acted session.state world []) := by
  rw [openChannel]
  cases Channel.ofName name with
  | stdout => exact .inl ⟨.stdout, session.world.1, by rw [acted_self]; rfl⟩
  | stderr => exact .inl ⟨.stderr, session.world.1, by rw [acted_self]; rfl⟩
  | file path =>
      simp only [bind_apply, Host.openFile_recorded, onWorld_onFirst]
      rcases host.openFile path session.world.1 with ⟨failure | opened, world⟩
      · exact .inr ⟨path, failure, world, rfl⟩
      · exact .inl ⟨.file path, world, rfl⟩

theorem prepared (command : Command) (session : Session (σ × List Call)) :
    Prepared command session (prepare host.recorded command session) := by
  unfold prepare
  split
  · next logic =>
    obtain ⟨world, hdiagnose⟩ :=
      exists_diagnose_recorded host ("#set-logic " ++ logic.text) session
    rw [hdiagnose]
    exact .same ..
  · next key value =>
    -- only the two channels are opened, and only one that has been opened is used
    have hset : ¬ ∀ key' value', Command.setOption key value ≠ .setOption key' value' := by simp
    by_cases hregular : key = .regularOutputChannel
    · rw [if_pos hregular, bind_apply]
      rcases openChannel_recorded host (value.string?.getD "stdout") session with
        ⟨channel, world, hopen⟩ | ⟨path, failure, world, hopen⟩
      · rw [hopen]
        show Prepared _ session
          (.ok () ((session.redirected channel session.diagnostic).acted session.state world []))
        exact .done (absurd · hset)
      · rw [hopen]
        exact .unopened ⟨key, value, rfl⟩
    · by_cases hdiagnostic : key = .diagnosticOutputChannel
      · rw [if_neg hregular, if_pos hdiagnostic, bind_apply]
        rcases openChannel_recorded host (value.string?.getD "stderr") session with
          ⟨channel, world, hopen⟩ | ⟨path, failure, world, hopen⟩
        · rw [hopen]
          show Prepared _ session
            (.ok () ((session.redirected session.regular channel).acted session.state world []))
          exact .done (absurd · hset)
        · rw [hopen]
          exact .unopened ⟨key, value, rfl⟩
      · rw [if_neg hregular, if_neg hdiagnostic]
        exact .unchanged ..
  · exact .unchanged ..

end Session

end SmtSession
