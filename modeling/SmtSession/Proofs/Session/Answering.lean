import SmtSession.Host.Scripted
import SmtSession.Proofs.Session.Run

/-!
# Solvers that answer from a script

A solver may answer every text with the next reply of a script
(`Host.answering`).  Then a call takes some replies from the front of the script,
and it does the same whatever replies follow these (`Session.execute_withScript`).

## Strategy

Two runs of a call are compared with `Session.Tracks`.  Their worlds are alike as
long as both scripts begin with the same replies, and the first one gets lost if
it takes more than the call consumes, which it does not.
-/

namespace SmtSession

/-! ## Solvers that answer from a script -/

/-- What a text is answered. -/
abbrev Reply := Except Failure String

namespace Host

variable {σ : Type}

/-- The next reply of a script. -/
def nextReply (exhausted : Reply) : StateM (List Reply × σ) Reply := fun world =>
  match world.1 with
  | [] => (exhausted, world)
  | reply :: script => (reply, script, world.2)

/-- Replies are taken from the front of the script. -/
theorem suffix_nextReply (exhausted : Reply) (world : List Reply × σ) :
    (nextReply exhausted world).2.1 <:+ world.1 := by
  unfold nextReply
  split
  · exact List.suffix_rfl
  · next reply script hscript => exact hscript ▸ List.suffix_cons reply script

/-- The host whose solver answers every text with the next reply of a script.  When the script is
used up, every text is answered in the same way.  Everything else is left to the given host. -/
def answering (host : Host σ) (exhausted : Reply) : Host (List Reply × σ) where
  send _ := nextReply exhausted
  sendNoWait text := onSecond (host.sendNoWait text)
  isAlive wait := onSecond (host.isAlive wait)
  terminate := onSecond host.terminate
  openFile path := onSecond (host.openFile path)
  write channel text := onSecond (host.write channel text)

end Host

/-- A file that cannot be opened leaves everything as it was. -/
def Outputs.FailsCleanly {σ : Type} (outputs : Outputs σ) : Prop :=
  ∀ path world failure, (outputs.openFile path world).1 = .error failure →
    (outputs.openFile path world).2 = world

theorem Outputs.FailsCleanly.answering {σ : Type} {host : Host σ} {exhausted : Reply}
    (h : host.toOutputs.FailsCleanly) : (host.answering exhausted).toOutputs.FailsCleanly := by
  intro path world failure hopen
  exact congrArg (fun other => (world.1, other)) (h path world.2 failure hopen)

theorem Disk.eq_of_openFile_error {path : String} {disk : Disk} {failure : Failure}
    (h : (openFile path disk).1 = .error failure) : (openFile path disk).2 = disk := by
  unfold openFile at h ⊢
  split
  · rfl
  · next hresolve => simp [hresolve] at h

theorem Host.failsCleanly_scripted : Host.scripted.toOutputs.FailsCleanly := by
  intro path script failure hopen
  have hdisk : (Disk.openFile path script.disk).2 = script.disk :=
    Disk.eq_of_openFile_error hopen
  show { script with disk := (Disk.openFile path script.disk).2 } = script
  rw [hdisk]

/-! ## What is observed of a call -/

/-- What a caller and a transport observe of a call. -/
structure Observation where
  result : Except SessionError Response
  /-- What the transport is asked for. -/
  calls : List Call
  /-- The state after the call. -/
  state : State

namespace Session

variable {σ α : Type}

/-- What an action answers. -/
def outcome : EStateM.Result SessionError (Session σ) α → Except SessionError α
  | .ok value _ => .ok value
  | .error error _ => .error error

section Observation

variable (host : Host σ) (command : Command) (session : Session σ)

/-- What is observed when a command is executed. -/
def observe : Observation where
  result := outcome (execute host command session)
  calls := session.calls host command
  state := (session.after host command).state

/-- Recording is not observed, and it is how calls are observed. -/
theorem observe_eq_recorded :
    session.observe host command =
      ⟨outcome (execute host.recorded command (session.recording [])),
        (ended (execute host.recorded command (session.recording []))).world.2,
        (ended (execute host.recorded command (session.recording []))).state⟩ := by
  have hforget := forgets_execute host command (session.recording [])
  rw [forget_recording] at hforget
  rw [observe, calls, after, ← hforget]
  cases execute host.recorded command (session.recording []) <;> rfl

theorem after_eq_recorded :
    session.after host command =
      (ended (execute host.recorded command (session.recording []))).forget := by
  have hforget := forgets_execute host command (session.recording [])
  rw [forget_recording] at hforget
  rw [after, ← hforget]
  cases execute host.recorded command (session.recording []) <;> rfl

/-- What is observed when commands are executed one after the other. -/
def trace (host : Host σ) : Session σ → List Command → List Observation
  | _, [] => []
  | session, command :: later =>
    session.observe host command :: trace host (session.after host command) later

end Observation

/-! ## Scripts -/

/-- The replies that are left. -/
def script (session : Session (List Reply × σ)) : List Reply :=
  session.world.1

/-- The session with other replies left. -/
def withScript (session : Session (List Reply × σ)) (script : List Reply) :
    Session (List Reply × σ) :=
  { session with world := (script, session.world.2) }

@[simp] theorem withScript_withScript (session : Session (List Reply × σ))
    (script script' : List Reply) :
    (session.withScript script).withScript script' = session.withScript script' := rfl

variable {host : Host σ} {exhausted : Reply} {command : Command}
  {session : Session (List Reply × σ)}

theorem script_suffix_after (host : Host σ) (exhausted : Reply) (command : Command)
    (session : Session (List Reply × σ)) :
    (session.after (host.answering exhausted) command).script <:+ session.script := by
  have hkept : KeptByHost (host.answering exhausted)
      fun (after : Session (List Reply × σ)) => after.script <:+ session.script :=
    { openFile := fun _ _ h => h
      write := fun _ _ _ h => h
      send := fun _ after h => (Host.suffix_nextReply exhausted after.world).trans h
      isAlive := fun _ _ h => h
      terminate := fun _ h => h
      modifyState := fun _ _ h => h }
  rw [after_eq_ended]
  exact keeps_execute hkept (fun _ _ _ h => h) command session List.suffix_rfl

/-- The replies that a command consumes. -/
def consumed (host : Host (List Reply × σ)) (command : Command)
    (session : Session (List Reply × σ)) : List Reply :=
  session.script.take (session.script.length - (session.after host command).script.length)

theorem consumed_append :
    session.consumed (host.answering exhausted) command ++
      (session.after (host.answering exhausted) command).script = session.script :=
  List.suffix_iff_eq_append.mp (script_suffix_after host exhausted command session)

/-! ## The same replies, and others after them -/

/-- Both scripts begin with the same replies, before those that are given, and the worlds are
otherwise the same. -/
structure SameStart (rest script : List Reply) (world world' : List Reply × σ) : Prop where
  scripts : ∃ used, world.1 = used ++ rest ∧ world'.1 = used ++ script
  others : world.2 = world'.2

theorem tracks_answering (host : Host σ) (exhausted : Reply) {rest script : List Reply}
    (hempty : rest = [] → script = []) :
    (host.answering exhausted).Tracks (fun world => world.1.length < rest.length)
      (SameStart rest script) (host.answering exhausted) := by
  -- only sending has to do with the scripts
  have hother {α : Type} (action : StateM σ α) :
      Tracked (fun world : List Reply × σ => world.1.length < rest.length) (SameStart rest script)
        (Host.onSecond action) (Host.onSecond action) :=
    { stays := fun _ h => h
      follows := fun world world' h =>
        .inr ⟨congrArg (fun other => (action other).1) h.others, h.scripts,
          congrArg (fun other => (action other).2) h.others⟩ }
  refine ⟨fun text => ?_, fun _ => hother _, fun _ => hother _, hother _, fun _ => hother _,
    fun _ _ => hother _⟩
  refine ⟨fun world hlost => ?_, ?_⟩
  · have htaken := (Host.suffix_nextReply exhausted world).length_le
    exact Nat.lt_of_le_of_lt htaken hlost
  · rintro ⟨front, other⟩ ⟨front', other'⟩ ⟨⟨used, hfront, hfront'⟩, hothers⟩
    obtain rfl : other = other' := hothers
    obtain rfl : front = used ++ rest := hfront
    obtain rfl : front' = used ++ script := hfront'
    cases used with
    | cons reply used => exact .inr ⟨rfl, ⟨used, rfl, rfl⟩, rfl⟩
    | nil =>
        cases rest with
        | nil =>
            -- there are no replies left in either script
            obtain rfl := hempty rfl
            exact .inr ⟨rfl, ⟨[], rfl, rfl⟩, rfl⟩
        | cons reply rest => exact .inl (Nat.lt_succ_self _)

/-- **A call that consumes the same replies does the same**, whatever replies follow them.  If it
has used up the script, no replies may follow. -/
theorem execute_withScript {script : List Reply}
    (hempty : (session.after (host.answering exhausted) command).script = [] → script = []) :
    (session.withScript
        (session.consumed (host.answering exhausted) command ++ script)).observe
      (host.answering exhausted) command = session.observe (host.answering exhausted) command ∧
    (session.withScript
        (session.consumed (host.answering exhausted) command ++ script)).after
      (host.answering exhausted) command =
      (session.after (host.answering exhausted) command).withScript script := by
  have hafter := after_eq_recorded (host.answering exhausted) command session
  have hworld : Nonempty ((List Reply × σ) × List Call) := ⟨session.world, []⟩
  have htracks := (tracks_answering host exhausted hempty).recorded
  obtain hlost | ⟨world, hlike, hrun⟩ := (tracks_execute htracks command).follows
    (session.recording [])
    ((session.consumed (host.answering exhausted) command ++ script, session.world.2), [])
    ⟨⟨⟨_, consumed_append.symm, rfl⟩, rfl⟩, rfl⟩
  · -- no more is taken than the call consumes
    rw [hafter] at hlost
    exact absurd hlost (Nat.lt_irrefl _)
  · obtain ⟨⟨⟨used, hrest, hscript⟩, hothers⟩, hcalls⟩ := hlike
    obtain rfl : used = [] := by
      rw [hafter] at hrest
      exact List.self_eq_append_left.mp hrest
    have hrun' : execute (host.answering exhausted).recorded command
        ((session.withScript
          (session.consumed (host.answering exhausted) command ++ script)).recording []) = _ := hrun
    rw [observe_eq_recorded, observe_eq_recorded, after_eq_recorded, hafter, hrun']
    obtain rfl : world = ((script, _), _) :=
      Prod.ext (Prod.ext hscript hothers.symm) hcalls.symm
    cases execute (host.answering exhausted).recorded command (session.recording []) <;>
      exact ⟨rfl, rfl⟩

end Session

end SmtSession
