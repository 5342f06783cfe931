import SmtSession.Token.Lexer

/-!
# Error reports

A solver reports errors as `(error "message")`, one or several in a row.  A message may start
with a line number, which counts all lines the solver has read; subtracting the lines that the
user did not write leads back to the user's own count.
-/

namespace SmtSession

open Text (isBlank)

/-- Whether a reply is an error report: it starts with the word `error`, with an opening
parenthesis before it or not. -/
def isErrorReport (reply : String) : Bool :=
  let text := reply.toList.dropWhile isBlank
  let text := match text with
    | '(' :: rest => rest.dropWhile isBlank
    | _ => text
  match text with
  | 'e' :: 'r' :: 'r' :: 'o' :: 'r' :: rest =>
    match rest with
    | [] => true
    | c :: _ => isBlank c || isSeparator c
  | _ => false

/-- The messages of the error reports that the items start with. -/
def errorMessages : List Item → List String
  | .ok ⟨.opening, _⟩ :: .ok ⟨.ident name, _⟩ :: .ok ⟨.constant (.string message), _⟩ ::
      .ok ⟨.closing, _⟩ :: rest =>
    if name = "error" then message :: errorMessages rest else []
  | _ => []

/-- The greatest line number that is read. -/
def maxLine : Nat := 0x7FFFFFFFFFFFFFFF

/-- The difference of two line numbers, in 64 bits with a sign. -/
def lineDifference (line offset : Nat) : Int :=
  ((line : Int) - offset).bmod UInt64.size

/-- Subtracts `offset` from the line number that a message starts with. -/
def shiftLine (offset : Nat) (message : String) : String :=
  match message.toList with
  | 'l' :: 'i' :: 'n' :: 'e' :: ' ' :: rest =>
    let digits := rest.takeWhile Char.isDigit
    let line := Nat.ofDigitChars 10 digits 0
    if digits.isEmpty || maxLine < line then message
    else
      "line " ++ (lineDifference line offset).repr ++ String.ofList (rest.dropWhile Char.isDigit)
  | _ => message

/-- The message of an error report: those of its groups, or else the whole reply. -/
def errorMessage (reply : String) (offset : Nat) : String :=
  match errorMessages (itemsOfText reply) with
  | [] => Text.trim reply
  | messages => "; ".intercalate (messages.map (shiftLine offset))

end SmtSession
