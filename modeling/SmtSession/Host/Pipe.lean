import SmtSession.Host.Disk
import SmtSession.Host.Reply
import SmtSession.Session.Config

/-!
# Solvers behind a pipe

A solver that is a program of its own, seen from outside: it has written all it will ever write,
and reads what it is sent until it is stopped.  A copy of what is sent can be kept in a file.
-/

namespace SmtSession

/-- A solver behind a pipe and its surroundings. -/
structure Pipe where
  /-- What the solver has written and nobody has read. -/
  output : Source
  running : Bool
  /-- The file that receives a copy of what is sent. -/
  transcript : Option String
  disk : Disk

namespace Pipe

/-- Starts the solver of a configuration, `output` being what it writes, if there is such a
program at all.  The file for the copy is opened after it. -/
def start (config : Config) (output : Option Source) (disk : Disk) :
    Except Failure Pipe × Disk :=
  match output with
  | none => (.error (disk.runFailure config.executable), disk)
  | some output =>
    match config.transcript with
    | none => (.ok ⟨output, true, none, disk⟩, disk)
    | some path =>
      match Disk.openFile path disk with
      | (.error failure, disk) => (.error failure, disk)
      | (.ok (), disk) => (.ok ⟨output, true, some path, disk⟩, disk)

/-- Sends a text, which must be read by a solver that runs. -/
def write (text : String) : StateM Pipe (Except Failure Unit) := fun pipe =>
  if !pipe.running then (.error (.ofSystem .brokenPipe), pipe)
  else
    match pipe.transcript with
    | none => (.ok (), pipe)
    | some path =>
      let (result, disk) := Disk.write (.file path) (Text.trimEnd text ++ "\n") pipe.disk
      (result, { pipe with disk })

/-- Changes what has been written to the channels. -/
def onDisk {α : Type} (action : StateM Disk α) : StateM Pipe α := fun pipe =>
  let (result, disk) := action pipe.disk
  (result, { pipe with disk })

end Pipe

/-- The host of a solver behind a pipe. -/
def Host.piped : Host Pipe where
  send text pipe :=
    match Pipe.write text pipe with
    | (.error failure, pipe) => (.error failure, pipe)
    | (.ok (), pipe) =>
      let (reply, output) := readReply pipe.output
      (reply, { pipe with output })
  sendNoWait := Pipe.write
  isAlive wait pipe :=
    if wait then (false, { pipe with running := false }) else (pipe.running, pipe)
  terminate pipe := (.ok (), { pipe with running := false })
  openFile path := Pipe.onDisk (Disk.openFile path)
  write channel text := Pipe.onDisk (Disk.write channel text)

end SmtSession
