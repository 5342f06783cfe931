/-!
# Symbols and keywords

A symbol is a name; when it is not made of the characters of plain names it is written between
bars.  A keyword is a name written after a colon.
-/

namespace SmtSession

/-- A symbol, without the bars it may be written between. -/
structure Symbol where
  name : String
  deriving DecidableEq

namespace Symbol

/-- The characters of symbols that need no bars. -/
def isPlainChar (c : Char) : Bool :=
  c.isAlphanum || "~!@$%^&*_-+=<>.?/".toList.contains c

/-- Whether the symbol can be written without bars: it is made of plain characters, has at least
one, and does not start with a digit. -/
def isSimple (symbol : Symbol) : Bool :=
  match symbol.name.toList with
  | [] => false
  | c :: rest => !c.isDigit && isPlainChar c && rest.all isPlainChar

/-- A symbol as it is printed: between bars, unless it can do without them. -/
def text (symbol : Symbol) : String :=
  if symbol.isSimple then symbol.name else "|" ++ symbol.name ++ "|"

end Symbol

/-- A keyword, without its leading colon. -/
structure Keyword where
  name : String
  deriving DecidableEq

namespace Keyword

/-- The keyword written as `text`, the leading colon of which may be missing. -/
def of (text : String) : Keyword :=
  match text.toList with
  | ':' :: rest => ⟨String.ofList rest⟩
  | _ => ⟨text⟩

/-- A keyword as it is printed, with its colon. -/
def text (keyword : Keyword) : String :=
  ":" ++ keyword.name

@[simp] theorem of_text (keyword : Keyword) : of keyword.text = keyword := by
  simp [of, text]

end Keyword

end SmtSession
