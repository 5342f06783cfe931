/-!
# Failures of the surroundings

What goes wrong outside the library: a solver that is gone, bytes that are no text, a file that
cannot be opened.
-/

namespace SmtSession

/-- The kind of a failure. -/
inductive Failure.Cause where
  /-- There was nothing more to read. -/
  | unexpectedEnd
  /-- Nobody reads what is written. -/
  | brokenPipe
  /-- The bytes read are not what they should be. -/
  | invalidData
  | timedOut
  | notFound
  /-- A file was wanted, and the path leads to a directory. -/
  | isDirectory
  /-- The path goes through something that is no directory. -/
  | notADirectory
  /-- The path, or a name in it, is too long. -/
  | invalidFilename
  /-- The file is not one to be run. -/
  | permissionDenied
  /-- The request itself makes no sense. -/
  | invalidInput
  | other
  deriving DecidableEq

/-- A failure of the surroundings.  One that the operating system reports has no message of its
own. -/
structure Failure where
  cause : Failure.Cause
  message : Option String
  deriving DecidableEq

/-- A failure reported by the operating system. -/
def Failure.ofSystem (cause : Failure.Cause) : Failure :=
  ⟨cause, none⟩

end SmtSession
