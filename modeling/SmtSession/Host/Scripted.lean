import SmtSession.Host.Disk

/-!
# Scripted solvers

A solver whose replies are given in advance.  What it is sent is recorded.
-/

namespace SmtSession

/-- A scripted solver and its surroundings. -/
structure Script where
  /-- The replies, in order.  When there are none left, every text is acknowledged. -/
  replies : List (Except Failure String) := []
  /-- Replies to commands of certain names, which come before the others. -/
  byName : List (String × List (Except Failure String)) := []
  alive : Bool := true
  terminated : Bool := false
  /-- Whether sending without waiting fails. -/
  noWaitFails : Bool := false
  /-- Whether terminating reports a failure. -/
  terminateFails : Bool := false
  /-- What has been sent, in order. -/
  sent : List String := []
  disk : Disk := {}

namespace Script

/-- A failure that the script asks for. -/
def failure (cause : Failure.Cause) : Failure := ⟨cause, some "scripted failure"⟩

/-- The name of the command that a text spells. -/
def commandName (text : String) : String :=
  String.ofList ((text.toList.dropWhile (· == '(')).takeWhile fun c => c != ' ' && c != ')')

/-- Takes the first reply to a name, if there is one left. -/
def takeNamed (name : String) :
    List (String × List (Except Failure String)) →
      Option (Except Failure String × List (String × List (Except Failure String)))
  | [] => none
  | (known, replies) :: rest =>
    if known = name then
      match replies with
      | [] => none
      | reply :: replies => some (reply, (known, replies) :: rest)
    else (takeNamed name rest).map fun (reply, rest) => (reply, (known, replies) :: rest)

/-- The reply to a text. -/
def reply (text : String) : StateM Script (Except Failure String) := fun script =>
  let script := { script with sent := script.sent ++ [text] }
  match takeNamed (commandName text) script.byName with
  | some (reply, byName) => (reply, { script with byName })
  | none =>
    match script.replies with
    | reply :: replies => (reply, { script with replies })
    | [] => (.ok "success\n", script)

/-- Changes what has been written. -/
def onDisk {α : Type} (action : StateM Disk α) : StateM Script α := fun script =>
  let (result, disk) := action script.disk
  (result, { script with disk })

end Script

/-- The host of a scripted solver. -/
def Host.scripted : Host Script where
  send := Script.reply
  sendNoWait text script :=
    if script.noWaitFails then (.error (Script.failure .brokenPipe), script)
    else (.ok (), { script with sent := script.sent ++ [text] })
  isAlive _ script := (script.alive && !script.terminated, script)
  terminate script :=
    let result :=
      if script.terminateFails then .error (Script.failure .other) else .ok ()
    (result, { script with terminated := true })
  openFile path := Script.onDisk (Disk.openFile path)
  write channel text := Script.onDisk (Disk.write channel text)

end SmtSession
