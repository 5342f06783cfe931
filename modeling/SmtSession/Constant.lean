/-!
# Constants

The constants of SMT-LIB.  Numerals are numbers of any size; decimals and bit-vector digits keep
the text they were written with; strings are held without quotes and escapes.
-/

namespace SmtSession

/-- A constant of SMT-LIB. -/
inductive Constant where
  | numeral (value : Nat)
  /-- Digits, a point, and digits. -/
  | decimal (text : String)
  /-- The digits after `#x`. -/
  | hexadecimal (digits : String)
  /-- The digits after `#b`. -/
  | binary (digits : String)
  | string (value : String)
  deriving DecidableEq

/-- Writes a backslash before quotes and backslashes. -/
def escape : List Char → List Char
  | [] => []
  | c :: rest => if c = '"' ∨ c = '\\' then '\\' :: c :: escape rest else c :: escape rest

/-- A string as it is printed: between quotes, with a backslash before the quotes and backslashes in
it. -/
def quoteString (value : String) : String :=
  "\"" ++ String.ofList (escape value.toList) ++ "\""

/-- A constant as it is printed. -/
def Constant.text : Constant → String
  | .numeral value => value.repr
  | .decimal text => text
  | .hexadecimal digits => "#x" ++ digits
  | .binary digits => "#b" ++ digits
  | .string value => quoteString value

end SmtSession
