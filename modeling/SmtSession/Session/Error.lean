import SmtSession.Response.Decoder
import SmtSession.Session.State

/-!
# Errors of a session
-/

namespace SmtSession

/-- Why a session gives no response. -/
inductive SessionError where
  /-- The command breaks a rule; nothing was sent. -/
  | violation (violation : Violation)
  /-- The command cannot be written for the solver; nothing was sent. -/
  | untranslatable (refused : RefusedString)
  /-- The surroundings failed. -/
  | failure (failure : Failure)
  /-- The reply is no response. -/
  | reply (error : DecodeError)
  /-- The session is over. -/
  | terminated
  /-- An output channel cannot be opened; nothing was sent. -/
  | channel (path : String) (failure : Failure)

/-- The message of an error, if the library words it. -/
def SessionError.message? : SessionError → Option String
  | .violation broken => some broken.message
  | .untranslatable refused => some ("unable to translate the command: " ++ refused.message)
  | .failure cause => cause.message.map ("io: " ++ ·)
  | .reply error => some error.message
  | .terminated => some "the solver has terminated"
  | .channel _ _ => none

end SmtSession
