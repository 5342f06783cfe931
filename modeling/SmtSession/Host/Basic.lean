import SmtSession.Failure

/-!
# The surroundings of a session

A session talks to a solver through a transport and writes to output channels.  Both say what an
action answers and how it changes the world, of which `σ` is the type.  A host has both in one
world, in which they may meet, as when a file is written from two sides; `Host.join` has each in
a world of its own.
-/

namespace SmtSession

/-- Where output goes. -/
inductive Channel where
  | stdout
  | stderr
  /-- The end of a file. -/
  | file (path : String)
  deriving DecidableEq

/-- The channel of the given name: a standard one, or a file. -/
def Channel.ofName (name : String) : Channel :=
  if name = "stdout" then .stdout
  else if name = "stderr" then .stderr
  else .file name

/-- The way to a solver. -/
structure Transport (σ : Type) where
  /-- Sends a text and waits for one complete reply. -/
  send : String → StateM σ (Except Failure String)
  /-- Sends a text and waits for nothing. -/
  sendNoWait : String → StateM σ (Except Failure Unit)
  /-- Whether the solver is still running, possibly after waiting for its end. -/
  isAlive : Bool → StateM σ Bool
  /-- Stops the solver. -/
  terminate : StateM σ (Except Failure Unit)

/-- The way to the output channels. -/
structure Outputs (σ : Type) where
  /-- Opens a file that is to be written at its end. -/
  openFile : String → StateM σ (Except Failure Unit)
  /-- Writes a text to a channel that is open. -/
  write : Channel → String → StateM σ (Except Failure Unit)

/-- The surroundings of a session. -/
structure Host (σ : Type) extends Transport σ, Outputs σ

/-- An action on the first part of a world. -/
def Host.onFirst {σ τ α : Type} (action : StateM σ α) : StateM (σ × τ) α := fun world =>
  let (result, first) := action world.1
  (result, first, world.2)

/-- An action on the second part of a world. -/
def Host.onSecond {σ τ α : Type} (action : StateM τ α) : StateM (σ × τ) α := fun world =>
  let (result, second) := action world.2
  (result, world.1, second)

/-- The host whose transport and outputs know nothing of each other. -/
def Host.join {σ τ : Type} (transport : Transport σ) (outputs : Outputs τ) : Host (σ × τ) where
  send text := onFirst (transport.send text)
  sendNoWait text := onFirst (transport.sendNoWait text)
  isAlive wait := onFirst (transport.isAlive wait)
  terminate := onFirst transport.terminate
  openFile path := onSecond (outputs.openFile path)
  write channel text := onSecond (outputs.write channel text)

end SmtSession
