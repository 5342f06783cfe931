import SmtSession.Proofs.Session.Simulation

/-!
# Recording what a transport is asked for

A host of any world is turned into one that writes down every call of its
transport (`Host.recorded`).  Recording changes nothing else: a session that
runs with the recording host is, once what was written down is forgotten, the
session that runs with the host itself (`Session.forgets_execute`).  The
recording host does in the first part of its world what the host does
(`Host.extends_recorded`), so this is an instance of `Session.Matches`.
-/

namespace SmtSession

/-- Something that a transport is asked for. -/
inductive Call where
  | send (text : String)
  | sendNoWait (text : String)
  | isAlive (wait : Bool)
  | terminate
  deriving DecidableEq

/-- The text that is sent and answered, if the call is of this kind. -/
def Call.text? : Call → Option String
  | .send text => some text
  | _ => none

namespace Host

variable {σ : Type}

/-- Writes down a call that an action makes. -/
def noted {α : Type} (call : Call) (action : StateM σ α) : StateM (σ × List Call) α := fun world =>
  let (result, first) := action world.1
  (result, first, world.2 ++ [call])

/-- The host that writes down what its transport is asked for, the latest call last. -/
def recorded (host : Host σ) : Host (σ × List Call) where
  send text := noted (.send text) (host.send text)
  sendNoWait text := noted (.sendNoWait text) (host.sendNoWait text)
  isAlive wait := noted (.isAlive wait) (host.isAlive wait)
  terminate := noted .terminate host.terminate
  openFile path := onFirst (host.openFile path)
  write channel text := onFirst (host.write channel text)

section Recorded

variable (host : Host σ)

theorem send_recorded (text : String) :
    host.recorded.send text = noted (.send text) (host.send text) := rfl

theorem isAlive_recorded (wait : Bool) :
    host.recorded.isAlive wait = noted (.isAlive wait) (host.isAlive wait) := rfl

theorem terminate_recorded : host.recorded.terminate = noted .terminate host.terminate := rfl

theorem openFile_recorded (path : String) :
    host.recorded.openFile path = onFirst (host.openFile path) := rfl

theorem write_recorded (channel : Channel) (text : String) :
    host.recorded.write channel text = onFirst (host.write channel text) := rfl

/-- The record is not seen. -/
theorem extends_recorded : host.recorded.Extends Prod.fst host where
  send _ _ := rfl
  sendNoWait _ _ := rfl
  isAlive _ _ := rfl
  terminate _ := rfl
  openFile _ _ := rfl
  write _ _ _ := rfl

end Recorded

section Tracks

variable {τ α : Type} {lost : τ → Prop} {alike : τ → σ → Prop}

/-- Beside actions that do the same, records that change in the same way stay the same. -/
theorem tracked_beside {wide : StateM τ α} {narrow : StateM σ α}
    (h : Tracked lost alike wide narrow) (change : List Call → List Call) :
    Tracked (fun world => lost world.1)
      (fun world world' => alike world.1 world'.1 ∧ world.2 = world'.2)
      (fun world => ((wide world.1).1, (wide world.1).2, change world.2))
      (fun world => ((narrow world.1).1, (narrow world.1).2, change world.2)) where
  stays world := h.stays world.1
  follows := by
    rintro ⟨first, calls⟩ ⟨first', calls'⟩ ⟨halike, rfl⟩
    refine (h.follows first first' halike).imp_right ?_
    rintro ⟨hresult, hworld⟩
    exact ⟨hresult, hworld, rfl⟩

/-- Hosts that do the same write down the same. -/
theorem Tracks.recorded {wide : Host τ} {narrow : Host σ} (h : wide.Tracks lost alike narrow) :
    wide.recorded.Tracks (fun world => lost world.1)
      (fun world world' => alike world.1 world'.1 ∧ world.2 = world'.2) narrow.recorded where
  send text := tracked_beside (h.send text) (· ++ [Call.send text])
  sendNoWait text := tracked_beside (h.sendNoWait text) (· ++ [Call.sendNoWait text])
  isAlive wait := tracked_beside (h.isAlive wait) (· ++ [Call.isAlive wait])
  terminate := tracked_beside h.terminate (· ++ [Call.terminate])
  openFile path := tracked_beside (h.openFile path) id
  write channel text := tracked_beside (h.write channel text) id

end Tracks

end Host

namespace Session

variable {σ α : Type}

/-- The session with the given calls written down. -/
def recording (session : Session σ) (calls : List Call) : Session (σ × List Call) :=
  { session with world := (session.world, calls) }

/-- The session without what is written down. -/
def forget (session : Session (σ × List Call)) : Session σ :=
  { session with world := session.world.1 }

section Forget

variable (session : Session (σ × List Call))

@[simp] theorem forget_config : session.forget.config = session.config := rfl
@[simp] theorem forget_state : session.forget.state = session.state := rfl
@[simp] theorem forget_decoder : session.forget.decoder = session.decoder := rfl

end Forget

@[simp] theorem forget_recording (session : Session σ) (calls : List Call) :
    (session.recording calls).forget = session := rfl

@[simp] theorem state_recording (session : Session σ) (calls : List Call) :
    (session.recording calls).state = session.state := rfl

@[simp] theorem config_recording (session : Session σ) (calls : List Call) :
    (session.recording calls).config = session.config := rfl

/-- A result without what is written down. -/
def forgetResult : EStateM.Result SessionError (Session (σ × List Call)) α →
    EStateM.Result SessionError (Session σ) α
  | .ok value session => .ok value session.forget
  | .error error session => .error error session.forget

/-- The first action is the second one, but for what is written down. -/
def Forgets (recording : SessionM (σ × List Call) α) (plain : SessionM σ α) : Prop :=
  ∀ session, forgetResult (recording session) = plain session.forget

/-! ## The actions of a session -/

theorem Forgets.of_matches {recording : SessionM (σ × List Call) α} {plain : SessionM σ α}
    (h : Matches Prod.fst recording plain) : Forgets recording plain := by
  intro session
  have hsession : viewedResult Prod.fst (recording session) = plain session.forget := h session
  rw [← hsession]
  cases recording session <;> rfl

variable (host : Host σ) (command : Command)

theorem forgets_diagnose (line : String) :
    Forgets (diagnose host.recorded line) (diagnose host line) :=
  .of_matches (matches_diagnose host.extends_recorded line)

theorem forgets_prepare : Forgets (prepare host.recorded command) (prepare host command) :=
  .of_matches (matches_prepare host.extends_recorded command)

/-- **Recording changes nothing but the record.** -/
theorem forgets_execute : Forgets (execute host.recorded command) (execute host command) :=
  .of_matches (matches_execute host.extends_recorded command)

/-! ## What an execution asks for -/

/-- What the transport is asked for while a command is executed. -/
def calls (session : Session σ) : List Call :=
  match execute host.recorded command (session.recording []) with
  | .ok _ after => after.world.2
  | .error _ after => after.world.2

/-- An execution that gives a response, as it is recorded. -/
theorem exists_recorded_of_ok {session after : Session σ} {response : Response}
    (h : execute host command session = .ok response after) :
    ∃ after', execute host.recorded command (session.recording []) = .ok response after' ∧
      after'.forget = after ∧ after'.world.2 = calls host command session := by
  have hforget := forgets_execute host command (session.recording [])
  rw [forget_recording, h] at hforget
  rw [calls]
  -- the recorded execution ends in the same way, or forgetting would not give this one
  cases hrun : execute host.recorded command (session.recording []) with
  | ok found after' =>
      rw [hrun] at hforget
      cases hforget
      exact ⟨after', rfl, rfl, rfl⟩
  | error error after' => simp [hrun, forgetResult] at hforget

/-- An execution that gives an error, as it is recorded. -/
theorem exists_recorded_of_error {session after : Session σ} {error : SessionError}
    (h : execute host command session = .error error after) :
    ∃ after', execute host.recorded command (session.recording []) = .error error after' ∧
      after'.forget = after ∧ after'.world.2 = calls host command session := by
  have hforget := forgets_execute host command (session.recording [])
  rw [forget_recording, h] at hforget
  rw [calls]
  cases hrun : execute host.recorded command (session.recording []) with
  | ok response after' => simp [hrun, forgetResult] at hforget
  | error found after' =>
      rw [hrun] at hforget
      cases hforget
      exact ⟨after', rfl, rfl, rfl⟩

end Session

end SmtSession
