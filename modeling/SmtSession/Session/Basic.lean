import SmtSession.Host.Basic
import SmtSession.Session.Error

/-!
# Sessions

A session executes commands.  A command is first checked against the state, so that a command out
of order never reaches the solver; the state changes only when the command succeeds.
-/

namespace SmtSession

/-- A session and the world around it. -/
structure Session (σ : Type) where
  config : Config
  state : State
  decoder : Decoder
  /-- Where responses are printed. -/
  regular : Channel
  /-- Where the session writes about itself. -/
  diagnostic : Channel
  world : σ

/-- An action of a session, which may fail.  What it has done stays done when it fails. -/
abbrev SessionM (σ : Type) := EStateM SessionError (Session σ)

namespace Session

variable {σ : Type}

/-- The name of the solver, as a session gives it. -/
def solverName : String := "z3-4.3"

/-- The authors of the solver. -/
def solverAuthors : String := "Leonardo de Moura and Nikolaj Bjorner"

/-- The version of the solver. -/
def solverVersion : String := "4.3"

/-- What is sent before the first command. -/
def preamble : String := "(set-option :print-success true)"

/-- Acts on the world. -/
def onWorld {α : Type} (action : StateM σ α) : SessionM σ α := fun session =>
  let (result, world) := action session.world
  .ok result { session with world }

/-- Changes what is known of the solver, and nothing else of the session. -/
def modifyState (f : State → State) : SessionM σ Unit :=
  modify fun session => { session with state := f session.state }

/-- Writes a line about the session, if it is verbose.  A failure to do so is ignored. -/
def diagnose (host : Host σ) (line : String) : SessionM σ Unit := do
  let session ← get
  if session.state.options.verbosity > 0 then
    let _ ← onWorld (host.write session.diagnostic (line ++ "\n"))

/-- Opens a session with a solver that runs. -/
def start (host : Host σ) (config : Config) (world : σ) :
    EStateM.Result SessionError σ (Session σ) :=
  match host.send preamble world with
  | (.error failure, world) => .error (.failure failure) world
  | (.ok _, world) =>
    let session : Session σ :=
      ⟨config, .initial config, ⟨1, config.lenient⟩, .stdout, .stderr, world⟩
    match diagnose host ("Started " ++ solverName ++ " ") session with
    | .ok () session => .ok session session.world
    | .error error session => .error error session.world

/-- Sends a text and waits for the reply.  A failure ends the session. -/
def transmit (host : Host σ) (text : String) : SessionM σ String := do
  match ← onWorld (host.send text) with
  | .ok reply => return reply
  | .error failure =>
    modifyState ({ · with terminated := true })
    throw (.failure failure)

/-- Reads a reply of which the given kind is expected. -/
def decode (reply : String) (shape : ReplyShape) : SessionM σ Response := do
  match (← get).decoder.decode reply shape with
  | .ok response => return response
  | .error error => throw (.reply error)

/-- Sends the text of an exit.  Whatever comes back, the solver is stopped and the session is
over; a solver that is gone without a reply has done what it was told. -/
def leave (host : Host σ) (text : String) : SessionM σ Response := do
  let answered ← onWorld (host.send text)
  let decoder := (← get).decoder
  let _ ← onWorld host.terminate
  modifyState ({ · with terminated := true })
  diagnose host "Ended Z3 "
  match answered with
  | .ok reply =>
    match decoder.decode reply .success with
    | .ok response => return response
    | .error error => throw (.reply error)
  | .error failure =>
    if failure.cause = .unexpectedEnd then return .success else throw (.failure failure)

/-- Sends a command and reads the reply.  A solver that dies during a check ends the session, and
an error report about a push is taken for an acknowledgement. -/
def deliver (host : Host σ) (command : Command) (shape : ReplyShape) : SessionM σ Response := do
  match translate .z3 (.command command) with
  | .error refused => throw (.untranslatable refused)
  | .ok text =>
    match command with
    | .exit => leave host text
    | .checkSat =>
      let reply ← transmit host text
      if ← onWorld (host.isAlive false) then decode reply shape
      else
        modifyState ({ · with terminated := true })
        throw .terminated
    | .push _ =>
      let reply ← transmit host text
      match (← get).decoder.decode reply shape with
      | .ok response => return response
      | .error (.solver _) => return .success
      | .error error => throw (.reply error)
    | _ =>
      let reply ← transmit host text
      decode reply shape

/-- Opens the channel of the given name.  Only a file has to be opened, and this may fail. -/
def openChannel (host : Host σ) (name : String) : SessionM σ Channel := do
  match Channel.ofName name with
  | .file path =>
    match ← onWorld (host.openFile path) with
    | .ok () => return .file path
    | .error failure => throw (.channel path failure)
  | channel => return channel

/-- What is done for a command that is let pass before anything is sent: the logic is announced,
and the channels are redirected. -/
def prepare (host : Host σ) (command : Command) : SessionM σ Unit := do
  match command with
  | .setLogic logic => diagnose host ("#set-logic " ++ logic.text)
  | .setOption key value =>
    if key = .regularOutputChannel then
      let channel ← openChannel host (value.string?.getD "stdout")
      modify ({ · with regular := channel })
    else if key = .diagnosticOutputChannel then
      let channel ← openChannel host (value.string?.getD "stderr")
      modify ({ · with diagnostic := channel })
  | _ => return

/-- Records a command that succeeded. -/
def commit (command : Command) (response : Response) : SessionM σ Unit :=
  modifyState (·.commit command response)

/-- Carries out what is planned for a command. -/
def perform (host : Host σ) (command : Command) : Plan → SessionM σ Response
  | .answer response => return response
  | .send shape => deliver host command shape
  | .reopen levels => do
    let popped ← deliver host (.pop levels) .success
    commit (.pop levels) popped
    deliver host command .success

/-- Executes a command. -/
def execute (host : Host σ) (command : Command) : SessionM σ Response := do
  let session ← get
  if session.state.terminated then throw .terminated
  match session.state.plan session.config.relax command with
  | .error broken => throw (.violation broken)
  | .ok plan =>
    prepare host command
    let response ← perform host command plan
    commit command response
    return response

/-- Sends a comment, every line of it after a semicolon.  Failures are ignored. -/
def comment (host : Host σ) (text : String) : SessionM σ Unit := do
  if !(← get).state.terminated then
    let lines := (Text.lines text).map ("; " ++ ·)
    let _ ← onWorld (host.sendNoWait ("\n".intercalate lines))

/-- Writes a response and a line break to the regular channel. -/
def print (host : Host σ) (response : Response) : SessionM σ Unit := do
  match ← onWorld (host.write (← get).regular (response.print ++ "\n")) with
  | .ok () => return
  | .error failure => throw (.failure failure)

end Session

end SmtSession
