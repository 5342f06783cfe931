import SmtSession.Host.Scripted
import SmtSession.Proofs.Session.Execution

/-!
# What a failed execution leaves behind

An execution that fails before anything is sent has changed nothing.  One that
fails later leaves the base of the commit it did not reach, and is over if an
exit was sent or if the failure is one of the surroundings
(`Session.execute_error`).
-/

namespace SmtSession.Session

variable {σ : Type}

/-- The state that an execution leaves when the command is sent and not committed. -/
def settled (host : Host σ) (command : Command) (session : Session σ) : State :=
  (session.base host command).sent command

/-- The execution has asked the transport for nothing, and state and channels are what they were. -/
structure Untouched (host : Host σ) (command : Command) (session after : Session σ) : Prop where
  calls : session.calls host command = []
  state : after.state = session.state
  regular : after.regular = session.regular
  diagnostic : after.diagnostic = session.diagnostic

/-- What an execution leaves behind when it fails with an error. -/
def Leaves (host : Host σ) (command : Command) (session after : Session σ) : SessionError → Prop
  | .violation _ => Untouched host command session after
  | .untranslatable _ => Untouched host command session after
  | .channel _ _ => Untouched host command session after
  | .reply _ => after.state = session.settled host command
  | .failure _ => after.state = (session.settled host command).closed
  | .terminated =>
    if session.state.terminated then Untouched host command session after
    else after.state = (session.settled host command).closed

theorem closed_sent (state : State) (command : Command) :
    (state.sent command).closed = state.closed := by
  unfold State.sent
  split <;> rfl

/-- **A failed execution changes nothing but what it says.** -/
theorem execute_error (host : Host σ) (command : Command) (session after : Session σ)
    (error : SessionError) (h : execute host command session = .error error after) :
    Leaves host command session after error := by
  obtain ⟨recorded, hrun, hforget, hcalls⟩ := exists_recorded_of_error host command h
  have hexecuted := executed host command (session.recording [])
  have hbase := base_recording host command session []
  rw [hrun] at hexecuted
  -- the session is the recorded one, without the record
  subst hforget
  cases hexecuted with
  | ended hended =>
      rw [state_recording] at hended
      rw [Leaves, if_pos hended]
      exact ⟨hcalls.symm, rfl, rfl, rfl⟩
  | broken hrunning hplan => exact ⟨hcalls.symm, rfl, rfl, rfl⟩
  | unopened hrunning hset => exact ⟨hcalls.symm, rfl, rfl, rfl⟩
  | untranslatable hrunning htext => exact ⟨hcalls.symm, rfl, rfl, rfl⟩
  | rejected hrunning hhanded =>
      rw [Leaves, settled, ← hbase]
      rfl
  | lost hrunning hhanded =>
      rw [Leaves, settled, closed_sent, ← hbase]
      rfl
  | died hrunning hhanded =>
      rw [state_recording] at hrunning
      rw [Leaves, if_neg (by simp [hrunning]), settled, closed_sent, ← hbase]
      rfl

/-- The pop of a relaxed setting of the logic is kept when the solver is lost after it. -/
theorem execute_error_reopening : ∃ session after : Session Script, ∃ failure,
    session.state.depth = 2 ∧ after.state.depth = 0 ∧
      execute .scripted (.setLogic ⟨"QF_BV"⟩) session = .error (.failure failure) after ∧
      Leaves .scripted (.setLogic ⟨"QF_BV"⟩) session after (.failure failure) := by
  have hdepth : (match execute .scripted (.setLogic ⟨"QF_BV"⟩)
      ⟨{ relax := true, lenient := true }, { State.initial {} with logicSet := true, depth := 2 },
        ⟨1, true⟩, .stdout, .stderr,
        { replies := [.ok "success", .error ⟨.brokenPipe, none⟩] }⟩ with
      | .error (.failure _) after => some after.state.depth
      | _ => none) = some 0 := by
    decide +kernel
  split at hdepth
  · next failure after hrun =>
      exact ⟨_, after, failure, rfl, Option.some.inj hdepth, hrun, execute_error _ _ _ _ _ hrun⟩
  · simp at hdepth

end SmtSession.Session
