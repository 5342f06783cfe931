import SmtSession.Source
import SmtSession.Text.Blank

/-!
# Cutting a stream into replies

A solver writes its replies one after the other.  A reply ends at the first line break where
something has been written and no parenthesis is open; what stands in strings and between bars
does not count.
-/

namespace SmtSession

open Text (isBlank)

/-- What has been seen of a reply. -/
structure Balance where
  /-- The opening parentheses less the closing ones. -/
  depth : Int := 0
  /-- In a string. -/
  string : Bool := false
  /-- After a backslash in a string. -/
  escaped : Bool := false
  /-- Between bars. -/
  quoted : Bool := false
  /-- Something that is no blank has been seen. -/
  content : Bool := false
  deriving DecidableEq

namespace Balance

/-- Whether a character that comes now ends the reply. -/
def endsWith (balance : Balance) (c : Char) : Bool :=
  c == '\n' && !balance.string && !balance.quoted && balance.content && balance.depth ≤ 0

/-- Takes one character into account. -/
def next (balance : Balance) (c : Char) : Balance :=
  if balance.string then
    if balance.escaped then { balance with escaped := false }
    else if c = '\\' then { balance with escaped := true }
    else if c = '"' then { balance with string := false }
    else balance
  else if balance.quoted then
    if c = '|' then { balance with quoted := false } else balance
  else if c = '(' then { balance with depth := balance.depth + 1, content := true }
  else if c = ')' then { balance with depth := balance.depth - 1, content := true }
  else if c = '"' then { balance with string := true, content := true }
  else if c = '|' then { balance with quoted := true, content := true }
  else if isBlank c then balance
  else { balance with content := true }

end Balance

/-- The solver has closed its output. -/
def closedOutput : Failure := ⟨.unexpectedEnd, some "the solver closed its output"⟩

/-- Reads the rest of a reply, `seen` being what has been read of it, latest first.  At the end of
the stream, what has been read is the reply, unless it is blank. -/
def readRest (balance : Balance) (seen : List Char) : Source → Except Failure String × Source
  | [] =>
    if seen.all isBlank then (.error closedOutput, []) else (.ok (String.ofList seen.reverse), [])
  | .error failure :: rest => (.error failure, rest)
  | .ok c :: rest =>
    if balance.endsWith c then (.ok (String.ofList (c :: seen).reverse), rest)
    else readRest (balance.next c) (c :: seen) rest

/-- Reads one reply. -/
def readReply (source : Source) : Except Failure String × Source :=
  readRest {} [] source

end SmtSession
