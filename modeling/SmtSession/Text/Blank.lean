/-!
# Blank characters

The characters with the Unicode property `White_Space`, and the operations on texts that are
defined through them: removing blanks from the ends, and splitting into lines.
-/

namespace SmtSession.Text

/-- The code points with the Unicode property `White_Space`, as inclusive ranges. -/
def blankRanges : List (Nat × Nat) :=
  [(0x09, 0x0D), (0x20, 0x20), (0x85, 0x85), (0xA0, 0xA0), (0x1680, 0x1680), (0x2000, 0x200A),
    (0x2028, 0x2029), (0x202F, 0x202F), (0x205F, 0x205F), (0x3000, 0x3000)]

/-- A blank separates words and has no other meaning. -/
def isBlank (c : Char) : Bool :=
  blankRanges.any fun range => range.1 ≤ c.toNat && c.toNat ≤ range.2

/-- The text without the blanks it starts with. -/
def trimStart (text : String) : String :=
  String.ofList (text.toList.dropWhile isBlank)

/-- The text without the blanks it ends with. -/
def trimEnd (text : String) : String :=
  String.ofList (text.toList.reverse.dropWhile isBlank).reverse

/-- The text without the blanks at its two ends. -/
def trim (text : String) : String :=
  trimEnd (trimStart text)

/-- The lines that follow, the current one having begun with the characters of `line`, latest
first. -/
def linesFrom (line : List Char) : List Char → List String
  | [] => if line.isEmpty then [] else [String.ofList line.reverse]
  | c :: rest =>
    if c = '\n' then
      let ended := if line.head? = some '\r' then line.tail else line
      String.ofList ended.reverse :: linesFrom [] rest
    else
      linesFrom (c :: line) rest

/-- The lines of a text, without the line breaks that end them.  A break is a line feed, with a
carriage return before it or not; no line follows the last break of a text. -/
def lines (text : String) : List String :=
  linesFrom [] text.toList

end SmtSession.Text
