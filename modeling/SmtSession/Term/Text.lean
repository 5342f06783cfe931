import SmtSession.SExpr.Basic
import SmtSession.Term.Basic

/-!
# The text of identifiers and sorts

Identifiers and sorts are written in one way in all dialects.
-/

namespace SmtSession

/-- An index as it is printed. -/
def Index.text : Index → String
  | .numeral value => value.repr
  | .symbol name => name.text

/-- An identifier as it is printed: a symbol, or a list with an underscore if there are indexes. -/
def Ident.text (ident : Ident) : String :=
  if ident.indexes.isEmpty then ident.symbol.text
  else "(_ " ++ ident.symbol.text ++ " " ++ spaced (ident.indexes.map Index.text) ++ ")"

namespace SortExpr

mutual

/-- A sort as it is printed.  A sort without parameters stands without parentheses. -/
def text : SortExpr → String
  | .app head [] => head.text
  | .app head (param :: params) =>
    "(" ++ head.text ++ " " ++ spaced (text param :: texts params) ++ ")"
termination_by structural sort => sort

/-- Some sorts as they are printed. -/
def texts : List SortExpr → List String
  | [] => []
  | sort :: sorts => text sort :: texts sorts
termination_by structural sorts => sorts

end

end SortExpr

end SmtSession
