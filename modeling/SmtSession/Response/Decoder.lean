import SmtSession.Response.Basic
import SmtSession.Response.BitVector
import SmtSession.Response.ErrorReport
import SmtSession.SExpr.Parser
import SmtSession.Term.Reader

/-!
# Decoding replies

A raw reply becomes a response of the kind that was asked for, or an error.
-/

namespace SmtSession

/-- Why a reply gives no response. -/
inductive DecodeError where
  /-- The solver reported an error. -/
  | solver (message : String)
  /-- The reply is of another kind. -/
  | unexpected (shape : ReplyShape) (reply : String)
  /-- The reply is no S-expression. -/
  | badSyntax (error : Located SyntaxError)
  /-- A part of the reply is no term. -/
  | badTerm (error : Located TermError)

/-- What the user is told about a reply that gives no response. -/
def DecodeError.message : DecodeError → String
  | .solver message => "solver responded with an error: " ++ message
  | .unexpected shape reply =>
    "unexpected solver response, expected " ++ shape.name ++ ": `" ++ reply ++ "'"
  | .badSyntax error => "syntax error in the solver response: " ++ error.value.message
  | .badTerm error => "unable to compile the solver response: " ++ error.value.message

/-- What decoding depends on. -/
structure Decoder where
  /-- The number of lines sent to the solver that the user did not write. -/
  lineOffset : Nat
  /-- Whether every reply that starts with `success` is an acknowledgement. -/
  lenient : Bool
  deriving DecidableEq

namespace Decoder

/-- A term in a reply. -/
def term (tree : Tree) : Except DecodeError Term :=
  (Term.ofTree tree).mapError .badTerm

/-- The text of a reply to an echo: a string that stands alone, or else the whole reply. -/
def echoed (reply : String) : String :=
  match parseText reply with
  | .ok (.leaf (.constant (.string value)) _) => value
  | _ => Text.trim reply

/-- The response of the given kind that an expression spells, `unexpected` being the error for an
expression of another kind. -/
def respond (shape : ReplyShape) (unexpected : DecodeError) (reply : String) (tree : Tree) :
    Except DecodeError Response :=
  match shape with
  | .success => if tree.isName "success" then .ok .success else .error unexpected
  | .verdict =>
    match tree.symbol?.bind (Verdict.ofText? ·.name) with
    | some verdict => .ok (.verdict verdict)
    | none => .error unexpected
  | .symbols =>
    match tree.items?.bind (·.mapM Tree.symbol?) with
    | some symbols => .ok (.symbols symbols)
    | none => .error unexpected
  | .values =>
    match tree.items? with
    | none => .error unexpected
    | some items => do
      let pairs ← items.mapM fun
        | .list [subject, value] _ => do return (← term subject, ← term value)
        | _ => .error unexpected
      return .values pairs
  | .assertions =>
    match tree.items? with
    | none => .error unexpected
    | some items => do return .assertions (← items.mapM term)
  | .sexpr => .ok (.sexpr tree)
  | .text => .ok (.text (Text.trim reply))

/-- Decodes a reply of which the given kind is expected. -/
def decode (decoder : Decoder) (raw : String) (shape : ReplyShape) :
    Except DecodeError Response :=
  let reply := normalize raw
  if decoder.lenient && "success".toList.isPrefixOf reply.toList then .ok .success
  else if isErrorReport reply then .error (.solver (errorMessage reply decoder.lineOffset))
  else if shape = .text then .ok (.text (echoed reply))
  else
    match parseText reply with
    | .error error => .error (.badSyntax error)
    | .ok tree =>
      if tree.isName "unsupported" then .ok .unsupported
      else respond shape (.unexpected shape (Text.trim reply)) reply tree

end Decoder

end SmtSession
