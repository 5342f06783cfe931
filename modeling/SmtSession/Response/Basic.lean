import SmtSession.Formatter.Node

/-!
# Responses

What a solver answers, as values.
-/

namespace SmtSession

/-- The outcome of a satisfiability check. -/
inductive Verdict where
  | sat
  | unsat
  | unknown
  | timeout
  deriving DecidableEq

/-- The word that a solver answers a satisfiability check with. -/
def Verdict.text : Verdict → String
  | .sat => "sat"
  | .unsat => "unsat"
  | .unknown => "unknown"
  | .timeout => "timeout"

/-- The verdict with the given text, if there is one. -/
def Verdict.ofText? (text : String) : Option Verdict :=
  [Verdict.sat, .unsat, .unknown, .timeout].find? (·.text == text)

@[simp] theorem Verdict.ofText?_text (verdict : Verdict) :
    Verdict.ofText? verdict.text = some verdict := by
  cases verdict <;> rfl

/-- The kinds of reply that commands ask for. -/
inductive ReplyShape where
  | success
  /-- The verdict of a satisfiability check. -/
  | verdict
  | symbols
  /-- A list of terms and their values. -/
  | values
  | assertions
  /-- Any S-expression. -/
  | sexpr
  | text
  deriving DecidableEq

/-- The name of a kind of reply in messages. -/
def ReplyShape.name : ReplyShape → String
  | .success => "success"
  | .verdict => "check-sat verdict"
  | .symbols => "list of symbols"
  | .values => "list of values"
  | .assertions => "list of assertions"
  | .sexpr => "s-expression"
  | .text => "text"

/-- What a command is answered with, by the solver or by the session itself. -/
inductive Response where
  | success
  | verdict (outcome : Verdict)
  | unsupported
  | values (pairs : List (Term × Term))
  | symbols (names : List Symbol)
  | assertions (terms : List Term)
  /-- The value of an option. -/
  | value (setting : AttributeValue)
  | sexpr (tree : Tree)
  | text (content : String)

namespace Response

/-- The verdict of a response, if it is one. -/
def verdict? : Response → Option Verdict
  | .verdict outcome => some outcome
  | _ => none

/-- Whether a response is an acknowledgement. -/
def isSuccess : Response → Bool
  | .success => true
  | _ => false

/-- A response as it is printed.  A text is printed as a string constant, between quotes. -/
def print : Response → String
  | .success => "success"
  | .verdict outcome => outcome.text
  | .unsupported => "unsupported"
  | .values pairs =>
    "(" ++ spaced (pairs.map fun pair => "(" ++ pair.1.text ++ " " ++ pair.2.text ++ ")") ++ ")"
  | .symbols names => "(" ++ spaced (names.map Symbol.text) ++ ")"
  | .assertions terms => "(" ++ spaced (terms.map Term.text) ++ ")"
  | .value setting => setting.text
  | .sexpr tree => tree.text
  | .text content => quoteString content

end Response

end SmtSession
