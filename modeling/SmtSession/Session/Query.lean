import SmtSession.Session.Basic

/-!
# Queries

Commands that are executed for the sake of one kind of response.
-/

namespace SmtSession.Session

variable {σ : Type}

/-- Executes a command that must be answered as `read` wants it. -/
def query {α : Type} (host : Host σ) (command : Command) (shape : ReplyShape)
    (read : Response → Option α) : SessionM σ α := do
  let response ← execute host command
  match read response with
  | some value => return value
  | none => throw (.reply (.unexpected shape response.print))

/-- Checks the assertions. -/
def checkSat (host : Host σ) : SessionM σ Verdict :=
  query host .checkSat .verdict Response.verdict?

/-- Asks for a model. -/
def getModel (host : Host σ) : SessionM σ Tree :=
  query host .getModel .sexpr fun
    | .sexpr tree => some tree
    | _ => none

/-- Asks for the values of terms. -/
def getValue (host : Host σ) (terms : List Term) : SessionM σ (List (Term × Term)) :=
  query host (.getValue terms) .values fun
    | .values pairs => some pairs
    | _ => none

/-- Asks which assertions contradict each other. -/
def getUnsatCore (host : Host σ) : SessionM σ (List Symbol) :=
  query host .getUnsatCore .symbols fun
    | .symbols names => some names
    | _ => none

/-- Asks for the assertions. -/
def getAssertions (host : Host σ) : SessionM σ (List Term) :=
  query host .getAssertions .assertions fun
    | .assertions terms => some terms
    | _ => none

/-- Has a text echoed. -/
def echo (host : Host σ) (text : String) : SessionM σ String :=
  query host (.echo text) .text fun
    | .text content => some content
    | _ => none

end SmtSession.Session
