import SmtSession.Constant

/-!
# Tokens

The words of SMT-LIB.
-/

namespace SmtSession

/-- A token: a parenthesis or an atom. -/
inductive Token where
  | opening
  | closing
  /-- A symbol, without the bars it may be written between. -/
  | ident (name : String)
  /-- A keyword, without its leading colon. -/
  | keyword (name : String)
  | constant (value : Constant)
  deriving DecidableEq

/-- A token as messages show it: names without bars, strings without escapes. -/
def Token.text : Token → String
  | .opening => "("
  | .closing => ")"
  | .ident name => name
  | .keyword name => ":" ++ name
  | .constant (.string value) => "\"" ++ value ++ "\""
  | .constant value => value.text

end SmtSession
