import SmtSession.Failure
import SmtSession.Token

/-!
# Syntax errors

Why a text is no token, or no expression.
-/

namespace SmtSession

/-- Why a text cannot be read as tokens or as an expression. -/
inductive SyntaxError where
  /-- The text itself could not be read. -/
  | read (failure : Failure)
  /-- A list is still open at the end. -/
  | missingClosingParenthesis
  /-- The second bar of a symbol is missing. -/
  | unterminatedSymbol
  /-- The closing quote of a string is missing. -/
  | unterminatedString
  | unexpectedToken (token : Token)
  | unexpectedEnd
  | invalidLiteral (text : String)
  /-- Something follows the expression. -/
  | trailingInput (token : Token)
  deriving DecidableEq

/-- What the user is told about a syntax error. -/
def SyntaxError.message : SyntaxError → String
  | .read failure => "io: " ++ failure.message.getD ""
  | .missingClosingParenthesis => "missing parenthesis `)'"
  | .unterminatedSymbol => "unterminated quoted symbol"
  | .unterminatedString => "unterminated string litteral"
  | .unexpectedToken token => "unexpected token `" ++ token.text ++ "'"
  | .unexpectedEnd => "unexpected end of input"
  | .invalidLiteral text => "invalid litteral `" ++ text ++ "'"
  | .trailingInput token => "unexpected trailing input `" ++ token.text ++ "'"

end SmtSession
