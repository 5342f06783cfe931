import SmtSession.Proofs.Session.Asking
import SmtSession.Proofs.Session.Run

/-!
# Conversations

A caller executes commands, sends comments and prints responses, one after the
other and whatever comes of them (`Session.through`).  On the way the transport
is asked for things, some of which fail: these are the events of the
conversation (`Session.log`).

The events of one request are what a host writes down that keeps a log
(`Host.logged`).  It does what the host does (`Host.extends_logged`), so the log
is that of the conversation with the host itself.
-/

namespace SmtSession

/-! ## Events -/

/-- Something that a transport was asked for, and whether it succeeded: the text was answered or
taken, the solver was alive, the solver was stopped. -/
structure Event where
  call : Call
  succeeded : Bool
  deriving DecidableEq

namespace Host

variable {σ : Type}

/-- Writes down a call that an action makes, and whether it succeeds. -/
def watched {α : Type} (call : Call) (succeeds : α → Bool) (action : StateM σ α) :
    StateM (σ × List Event) α := fun world =>
  let (result, first) := action world.1
  (result, first, world.2 ++ [⟨call, succeeds result⟩])

/-- The host that writes down the events, the latest one last. -/
def logged (host : Host σ) : Host (σ × List Event) where
  send text := watched (.send text) Except.isOk (host.send text)
  sendNoWait text := watched (.sendNoWait text) Except.isOk (host.sendNoWait text)
  isAlive wait := watched (.isAlive wait) id (host.isAlive wait)
  terminate := watched .terminate Except.isOk host.terminate
  openFile path := onFirst (host.openFile path)
  write channel text := onFirst (host.write channel text)

variable (host : Host σ)

/-- The log is not seen. -/
theorem extends_logged : host.logged.Extends Prod.fst host where
  send _ _ := rfl
  sendNoWait _ _ := rfl
  isAlive _ _ := rfl
  terminate _ := rfl
  openFile _ _ := rfl
  write _ _ _ := rfl

/-- The record that a log contains: its calls. -/
def recordOf (world : σ × List Event) : σ × List Call :=
  (world.1, world.2.map Event.call)

theorem seen_watched {α : Type} (call : Call) (succeeds : α → Bool) (action : StateM σ α) :
    Seen recordOf (watched call succeeds action) (noted call action) := by
  intro world
  have hcalls : (world.2 ++ [Event.mk call (succeeds (action world.1).1)]).map Event.call =
      world.2.map Event.call ++ [call] := List.map_append
  exact congrArg (fun calls => ((action world.1).1, (action world.1).2, calls)) hcalls

/-- Of a log, the recording host has the calls. -/
theorem logged_extends_recorded : host.logged.Extends recordOf host.recorded where
  send _ := seen_watched _ _ _
  sendNoWait _ := seen_watched _ _ _
  isAlive _ := seen_watched _ _ _
  terminate := seen_watched _ _ _
  openFile _ _ := rfl
  write _ _ _ := rfl

end Host

/-! ## Requests -/

/-- Something that a caller does with a session. -/
inductive Request where
  | execute (command : Command)
  | comment (text : String)
  | print (response : Response)

namespace Session

variable {σ τ : Type}

/-- The session after a request, whatever came of it. -/
def following (host : Host σ) (session : Session σ) : Request → Session σ
  | .execute command => ended (execute host command session)
  | .comment text => ended (comment host text session)
  | .print response => ended (print host response session)

/-- The session with an empty log. -/
def logging (session : Session σ) : Session (σ × List Event) :=
  { session with world := (session.world, []) }

/-- The session after an event. -/
def seeing (session : Session (σ × List Event)) (world : σ) (event : Event) :
    Session (σ × List Event) :=
  { session with world := (world, session.world.2 ++ [event]) }

theorem onWorld_watched {α : Type} (call : Call) (succeeds : α → Bool) (action : StateM σ α)
    (session : Session (σ × List Event)) :
    onWorld (Host.watched call succeeds action) session =
      .ok (action session.world.1).1 (session.seeing (action session.world.1).2
        ⟨call, succeeds (action session.world.1).1⟩) :=
  rfl

/-- The events of a request. -/
def events (host : Host σ) (session : Session σ) (request : Request) : List Event :=
  (session.logging.following host.logged request).world.2

/-- The session after some requests. -/
def through (host : Host σ) : Session σ → List Request → Session σ
  | session, [] => session
  | session, request :: later => through host (session.following host request) later

/-- The events of some requests, in order. -/
def log (host : Host σ) : Session σ → List Request → List Event
  | _, [] => []
  | session, request :: later =>
    session.events host request ++ log host (session.following host request) later

section Through

variable (host : Host σ) (session : Session σ) (request : Request) (earlier later : List Request)

@[simp] theorem through_nil : session.through host [] = session := rfl

@[simp] theorem through_cons :
    session.through host (request :: later) = (session.following host request).through host later :=
  rfl

theorem through_append :
    session.through host (earlier ++ later) =
      (session.through host earlier).through host later := by
  induction earlier generalizing session with
  | nil => rfl
  | cons request earlier ih => exact ih (session.following host request)

@[simp] theorem log_nil : session.log host [] = [] := rfl

@[simp] theorem log_cons :
    session.log host (request :: later) =
      session.events host request ++ (session.following host request).log host later :=
  rfl

/-- What every request keeps holds after all of them. -/
theorem holds_through {holds : Session σ → Prop}
    (hstep : ∀ session request, holds session → holds (session.following host request))
    {session : Session σ} (h : holds session) (requests : List Request) :
    holds (session.through host requests) := by
  induction requests generalizing session with
  | nil => exact h
  | cons request later ih => exact ih (hstep session request h)

end Through

/-! ## One request -/

variable {host : Host σ} {session : Session σ}

theorem viewed_ended {α : Type} {view : τ → σ} {wide : SessionM τ α} {narrow : SessionM σ α}
    (h : Matches view wide narrow) (session : Session τ) :
    (ended (wide session)).viewed view = ended (narrow (session.viewed view)) := by
  rw [← h session]
  cases wide session <;> rfl

theorem meets_viewed {α : Type} {view : τ → σ} {wide : SessionM τ α} {narrow : SessionM σ α}
    (h : Matches view wide narrow) {session : Session τ} {done : α → Session σ → Prop}
    {failed : SessionError → Session σ → Prop}
    (hmeets : Meets (fun value after => done value (after.viewed view))
      (fun error after => failed error (after.viewed view)) (wide session)) :
    Meets done failed (narrow (session.viewed view)) := by
  rw [← h session]
  cases hrun : wide session with
  | ok value after =>
      rw [hrun] at hmeets
      exact hmeets
  | error error after =>
      rw [hrun] at hmeets
      exact hmeets

/-- What is not seen of the world makes no difference to a request. -/
theorem viewed_following {view : τ → σ} {wide : Host τ} {narrow : Host σ}
    (h : wide.Extends view narrow) (session : Session τ) (request : Request) :
    (session.following wide request).viewed view =
      (session.viewed view).following narrow request := by
  cases request with
  | execute command => exact viewed_ended (matches_execute h command) session
  | comment text => exact viewed_ended (matches_comment h text) session
  | print response => exact viewed_ended (matches_print h response) session

/-- **Keeping a log changes nothing but the log.** -/
theorem viewed_following_logged (request : Request) :
    (session.logging.following host.logged request).viewed Prod.fst =
      session.following host request :=
  viewed_following host.extends_logged session.logging request

/-- The record of a request has the calls of its events. -/
theorem map_call_events (request : Request) :
    (session.events host request).map Event.call =
      ((session.recording []).following host.recorded request).world.2 := by
  have hviewed := viewed_following host.logged_extends_recorded session.logging request
  exact congrArg (fun session => session.world.2) hviewed

variable (host session)

theorem execute_eq_viewed (command : Command) :
    execute host command session =
      viewedResult Prod.fst (execute host.logged command session.logging) :=
  (matches_execute host.extends_logged command session.logging).symm

theorem exists_ended_comment (text : String) :
    ∃ world, ended (comment host text session) = { session with world } := by
  rw [comment, bind_apply, get_apply]
  dsimp only
  cases session.state.terminated with
  | false => exact ⟨_, rfl⟩
  | true => exact ⟨session.world, rfl⟩

theorem exists_ended_print (response : Response) :
    ∃ world, ended (print host response session) = { session with world } := by
  simp only [print, bind_apply, get_apply, onWorld]
  rcases host.write session.regular (response.print ++ "\n") session.world with ⟨result, world⟩
  cases result <;> exact ⟨world, rfl⟩

variable {host session}

theorem keeps_print {holds : Session σ → Prop} (h : KeptByOutputs host holds)
    (response : Response) : Keeps holds (print host response) := by
  refine .bind .get fun session => .bind (h.write _ _) fun result => ?_
  cases result with
  | ok written => exact .pure _
  | error failure => exact .throw _

/-- To print, the transport is asked for nothing. -/
theorem events_print (response : Response) : session.events host (.print response) = [] := by
  have hsilent : KeptByOutputs host.logged fun session => session.world.2 = [] :=
    ⟨fun _ _ h => h, fun _ _ _ h => h⟩
  exact keeps_print hsilent response session.logging rfl

end Session

end SmtSession
