import SmtSession.SExpr.Basic

/-!
# Attribute values

The values of options and of information about a session.  Truth values are the symbols `true`
and `false`.
-/

namespace SmtSession

/-- The value of an option or of an information item. -/
inductive AttributeValue where
  | constant (value : Constant)
  | symbol (name : Symbol)
  | list (items : List SExpr)
  deriving DecidableEq

namespace AttributeValue

/-- A truth value is given as the symbol `true` or `false`. -/
def bool (b : Bool) : AttributeValue :=
  .symbol ⟨if b then "true" else "false"⟩

/-- A string as an attribute value. -/
def string (value : String) : AttributeValue :=
  .constant (.string value)

/-- A number as an attribute value. -/
def numeral (value : Nat) : AttributeValue :=
  .constant (.numeral value)

/-- The truth value that an attribute value is, if it is one. -/
def bool? : AttributeValue → Option Bool
  | .symbol name =>
    if name.name = "true" then some true
    else if name.name = "false" then some false
    else none
  | _ => none

/-- The string that an attribute value is, if it is one. -/
def string? : AttributeValue → Option String
  | .constant (.string value) => some value
  | _ => none

/-- The numeral that an attribute value is, if it is one. -/
def numeral? : AttributeValue → Option Nat
  | .constant (.numeral value) => some value
  | _ => none

/-- An S-expression as an attribute value.  A keyword becomes the symbol spelled like it. -/
def ofSExpr : SExpr → AttributeValue
  | .atom (.constant value) => .constant value
  | .atom (.symbol name) => .symbol name
  | .atom (.keyword key) => .symbol ⟨key.text⟩
  | .list items => .list items

/-- An attribute value as it is printed. -/
def text : AttributeValue → String
  | .constant value => value.text
  | .symbol name => name.text
  | .list items => (SExpr.list items).text

end AttributeValue

end SmtSession
