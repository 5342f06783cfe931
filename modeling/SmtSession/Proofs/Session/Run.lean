import SmtSession.Proofs.Session.Execution

/-!
# Runs of a session

A run opens a session and executes commands, whatever comes of them
(`Session.Run`).  It keeps a history of what the caller has seen: each command,
the response if there was one, and whether the logic was set again and got past
its pop.

What one turn can do to the state is listed in `Session.Moves`, so an invariant
of runs is shown for the initial state and for these four moves.
-/

namespace SmtSession

/-- A command that was executed, and what came of it. -/
structure Turn where
  command : Command
  /-- The response, if there was one. -/
  answer : Option Response
  /-- Whether a pop was acknowledged on the way to setting the logic again. -/
  popped : Bool

namespace Session

variable {σ : Type} (host : Host σ) (command : Command) (session : Session σ)

/-- The session after a command, whatever came of it. -/
def after : Session σ :=
  match execute host command session with
  | .ok _ after => after
  | .error _ after => after

theorem after_eq_ended : session.after host command = ended (execute host command session) := by
  unfold after
  cases execute host command session <;> rfl

/-- The execution of a command, for the history. -/
def turn : Turn where
  command := command
  answer :=
    match execute host command session with
    | .ok response _ => some response
    | .error _ _ => none
  popped := (session.popped? host command).isSome

variable {host command session} in
theorem exists_of_answered (h : (session.turn host command).answer.isSome) :
    ∃ response, execute host command session = .ok response (session.after host command) := by
  unfold turn at h
  unfold after
  cases hrun : execute host command session with
  | ok response next => exact ⟨response, rfl⟩
  | error error failed => simp [hrun] at h

/-- A run with the given host and configuration: its history, the latest turn first, and the session
it has reached. -/
inductive Run (host : Host σ) (config : Config) : List Turn → Session σ → Prop
  | start {world world' : σ} {session : Session σ}
      (hstart : start host config world = .ok session world') : Run host config [] session
  | turn {turns : List Turn} {session : Session σ} (hrun : Run host config turns session)
      (command : Command) :
      Run host config (session.turn host command :: turns) (session.after host command)

/-- What a turn with the given answer can do to the state. -/
inductive Moves : Option Response → State → Prop
  | kept (hpopped : session.popped? host command = none) : Moves none session.state
  | committed {plan : Plan} {response : Response} (hrunning : session.state.terminated = false)
      (hplan : session.state.plan session.config.relax command = .ok plan) :
      Moves (some response) ((session.base host command).commit command response)
  | settled (hrunning : session.state.terminated = false) :
      Moves none ((session.base host command).sent command)
  | closed (hrunning : session.state.terminated = false) :
      Moves none (session.base host command).closed

variable {host command session} in
theorem moves_of_error {error : SessionError} {failed : Session σ}
    (h : execute host command session = .error error failed) :
    Moves host command session none failed.state := by
  obtain ⟨recorded, hrun, hforget, -⟩ := exists_recorded_of_error host command h
  have hexecuted := executed host command (session.recording [])
  have hbase := base_recording host command session []
  rw [hrun] at hexecuted
  subst hforget
  cases hexecuted with
  | ended hended =>
      refine .kept ?_
      rw [state_recording] at hended
      rw [popped?, if_pos hended]
  | broken hrunning hplan =>
      refine .kept (popped?_of_not_reopen ?_)
      intro levels hreopen
      rw [state_recording, config_recording, hreopen] at hplan
      simp at hplan
  | unopened hrunning hset =>
      obtain ⟨key, value, rfl⟩ := hset
      exact .kept (popped?_of_ne (by simp))
  | untranslatable hrunning htext =>
      -- the text of a logic is never refused, so this is another command
      refine .kept (popped?_of_ne ?_)
      rintro logic rfl
      obtain ⟨text, htranslate⟩ := exists_translate_setLogic .z3 logic
      simp [htranslate] at htext
  | rejected hrunning hhanded =>
      rw [forget_state, state_acted, hbase]
      exact .settled hrunning
  | lost hrunning hhanded =>
      rw [forget_state, state_acted, hbase]
      exact .closed hrunning
  | died hrunning hhanded =>
      rw [forget_state, state_acted, hbase]
      exact .closed hrunning

/-- **A turn makes one of the four moves.** -/
theorem moves :
    Moves host command session (session.turn host command).answer
      (session.after host command).state := by
  unfold turn after
  cases hrun : execute host command session with
  | ok response next =>
      obtain ⟨hrunning, ⟨plan, hplan⟩, hstate⟩ := execute_ok hrun
      dsimp only
      rw [hstate]
      exact .committed hrunning hplan
  | error error failed => exact moves_of_error hrun

/-! ## The start of a run -/

theorem exists_diagnose (line : String) :
    ∃ world, diagnose host line session = .ok () { session with world } := by
  obtain ⟨world, hdiagnose⟩ := exists_diagnose_recorded host line (session.recording [])
  have hforget := forgets_diagnose host line (session.recording [])
  rw [hdiagnose] at hforget
  exact ⟨world, hforget.symm⟩

variable {host session} in
/-- What a session is when it is opened, but for the world. -/
theorem exists_of_start {config : Config} {world world' : σ}
    (h : start host config world = .ok session world') :
    ∃ opened, session =
      ⟨config, .initial config, ⟨1, config.lenient⟩, .stdout, .stderr, opened⟩ := by
  unfold start at h
  split at h
  · simp at h
  · next reply sent hsend =>
    dsimp only at h
    obtain ⟨written, hdiagnose⟩ := exists_diagnose host
      ⟨config, .initial config, ⟨1, config.lenient⟩, .stdout, .stderr, sent⟩
      ("Started " ++ solverName ++ " ")
    rw [hdiagnose] at h
    cases h
    exact ⟨written, rfl⟩

variable {host session} in
theorem state_of_start {config : Config} {world world' : σ}
    (h : start host config world = .ok session world') : session.state = .initial config := by
  obtain ⟨opened, rfl⟩ := exists_of_start h
  rfl

end Session

end SmtSession
