import SmtSession.Proofs.Session.Delivery

/-!
# What an execution does not ask for

An execution sends texts that are answered, asks whether the solver lives, and
stops it, and it asks for nothing else (`Session.calls_of_execute`).  A property
of these three holds of everything in the record, which the host keeps so
whenever it adds to it.
-/

namespace SmtSession.Session

variable {σ : Type} {p : Call → Prop}

/-- Everything that the transport has been asked for has the property. -/
def Asked (p : Call → Prop) (session : Session (σ × List Call)) : Prop :=
  ∀ call ∈ session.world.2, p call

/-- The property holds of the three things that an execution may ask for. -/
structure Expected (p : Call → Prop) : Prop where
  send : ∀ text, p (.send text)
  isAlive : ∀ wait, p (.isAlive wait)
  terminate : p .terminate

theorem keeps_noted {α : Type} {call : Call} (hcall : p call) (action : StateM σ α) :
    Keeps (Asked p) (onWorld (Host.noted call action)) := fun _ h =>
  List.forall_mem_append.mpr ⟨h, List.forall_mem_singleton.mpr hcall⟩

theorem Expected.kept (h : Expected p) (host : Host σ) : KeptByHost host.recorded (Asked p) where
  openFile _ _ h := h
  write _ _ _ h := h
  send text := keeps_noted (h.send text) _
  isAlive wait := keeps_noted (h.isAlive wait) _
  terminate := keeps_noted h.terminate _
  modifyState _ _ h := h

theorem calls_eq_ended (host : Host σ) (command : Command) (session : Session σ) :
    session.calls host command =
      (ended (execute host.recorded command (session.recording []))).world.2 := by
  unfold calls
  cases execute host.recorded command (session.recording []) <;> rfl

/-- **An execution asks for nothing but answers, signs of life, and the end of the solver.** -/
theorem calls_of_execute (host : Host σ) (h : Expected p) (command : Command)
    (session : Session σ) : ∀ call ∈ session.calls host command, p call := by
  have hkeeps : Keeps (Asked p) (execute host.recorded command) :=
    keeps_execute (h.kept host) (fun _ _ _ h => h) command
  rw [calls_eq_ended]
  exact hkeeps (session.recording []) (by simp [Asked, recording])

end SmtSession.Session
