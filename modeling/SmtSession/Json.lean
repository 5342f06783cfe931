/-!
# Reading JSON

A text is cut into tokens, one character at a time, and the tokens are put together, one at a
time, with the arrays and objects that are open on a stack.  The reader is strict: nothing but
blanks may surround the value, and fields keep their order and their repetitions.
-/

namespace SmtSession

/-- A JSON value.  Numbers are kept as they are written.  A string is missing when its escapes
spell half of a surrogate pair, so that it is no text. -/
inductive JsonValue where
  | null
  | bool (value : Bool)
  | number (text : String)
  | string (value : Option String)
  | array (items : List JsonValue)
  | object (fields : List (Option String × JsonValue))

namespace JsonValue

/-! ### Tokens -/

/-- A token: one of the characters `[]{},:`, or a value that is no array and no object. -/
inductive Piece where
  | mark (c : Char)
  | null
  | bool (value : Bool)
  | number (text : String)
  | string (value : Option String)

/-- A character of a string, or a code unit spelled by an escape. -/
inductive Spelled where
  | char (c : Char)
  | unit (value : Nat)

/-- The text that characters and code units spell.  Two units may make one character. -/
def assemble : List Spelled → Option (List Char)
  | [] => some []
  | .char c :: rest => (assemble rest).map (c :: ·)
  | .unit value :: rest =>
    if value < 0xD800 ∨ 0xDFFF < value then (assemble rest).map (Char.ofNat value :: ·)
    else
      match rest with
      | .unit low :: rest =>
        if value ≤ 0xDBFF ∧ 0xDC00 ≤ low ∧ low ≤ 0xDFFF then
          let point := 0x10000 + 0x400 * (value - 0xD800) + (low - 0xDC00)
          (assemble rest).map (Char.ofNat point :: ·)
        else none
      | _ => none

/-- Whether a text is a non-empty run of digits. -/
def isRun (text : List Char) : Bool :=
  !text.isEmpty && text.all Char.isDigit

/-- Whether a text is an exponent, or empty. -/
def isExponent : List Char → Bool
  | [] => true
  | c :: rest =>
    (c == 'e' || c == 'E') &&
      match rest with
      | '+' :: digits => isRun digits
      | '-' :: digits => isRun digits
      | digits => isRun digits

/-- Whether a text is a number: an integer without needless zeros, a fraction, an exponent. -/
def isNumber (text : List Char) : Bool :=
  let unsigned := match text with
    | '-' :: rest => rest
    | _ => text
  let whole := unsigned.takeWhile Char.isDigit
  let rest := unsigned.dropWhile Char.isDigit
  isRun whole && (whole.length = 1 || whole.head? != some '0') &&
    match rest with
    | '.' :: rest =>
      !(rest.takeWhile Char.isDigit).isEmpty && isExponent (rest.dropWhile Char.isDigit)
    | rest => isExponent rest

/-- The token spelled by a word. -/
def Piece.ofWord (word : List Char) : Option Piece :=
  if word = "null".toList then some .null
  else if word = "true".toList then some (.bool true)
  else if word = "false".toList then some (.bool false)
  else if isNumber word then some (.number (String.ofList word))
  else none

/-- Where the scanner is.  What it has gathered is held latest first. -/
inductive ScanState where
  | between
  | word (chars : List Char)
  | string (spelled : List Spelled)
  /-- After a backslash. -/
  | escape (spelled : List Spelled)
  /-- In the digits of a code unit, of which `missing` are still expected. -/
  | unit (spelled : List Spelled) (missing value : Nat)

/-- A scanner and the tokens it has found, latest first. -/
structure Scanner where
  found : List Piece
  state : ScanState

/-- Ends the word the scanner is in, if it is in one. -/
def Scanner.endWord (scanner : Scanner) : Option Scanner :=
  match scanner.state with
  | .word chars => (Piece.ofWord chars.reverse).map fun piece => ⟨piece :: scanner.found, .between⟩
  | _ => some scanner

/-- The value of a hexadecimal digit. -/
def hexDigit? (c : Char) : Option Nat :=
  if c.isDigit then some (c.toNat - '0'.toNat)
  else if 'a' ≤ c ∧ c ≤ 'f' then some (c.toNat - 'a'.toNat + 10)
  else if 'A' ≤ c ∧ c ≤ 'F' then some (c.toNat - 'A'.toNat + 10)
  else none

/-- The character that a backslash and `c` spell. -/
def escaped? (c : Char) : Option Char :=
  match c with
  | '"' => some '"'
  | '\\' => some '\\'
  | '/' => some '/'
  | 'b' => some '\x08'
  | 'f' => some '\x0C'
  | 'n' => some '\n'
  | 'r' => some '\r'
  | 't' => some '\t'
  | _ => none

/-- Scans one character outside of strings. -/
def Scanner.outside (scanner : Scanner) (c : Char) : Option Scanner :=
  if c = ' ' ∨ c = '\t' ∨ c = '\n' ∨ c = '\r' then scanner.endWord
  else if "[]{},:".toList.contains c then
    scanner.endWord.map fun ended => { ended with found := .mark c :: ended.found }
  else if c = '"' then scanner.endWord.map fun ended => { ended with state := .string [] }
  else
    match scanner.state with
    | .word chars => some { scanner with state := .word (c :: chars) }
    | _ => some { scanner with state := .word [c] }

/-- Scans one character, unless it cannot stand there. -/
def Scanner.next (scanner : Scanner) (c : Char) : Option Scanner :=
  match scanner.state with
  | .between => scanner.outside c
  | .word _ => scanner.outside c
  | .string spelled =>
    if c = '"' then
      let text := (assemble spelled.reverse).map String.ofList
      some ⟨.string text :: scanner.found, .between⟩
    else if c = '\\' then some { scanner with state := .escape spelled }
    else if c.toNat < 0x20 then none
    else some { scanner with state := .string (.char c :: spelled) }
  | .escape spelled =>
    if c = 'u' then some { scanner with state := .unit spelled 4 0 }
    else (escaped? c).map fun d => { scanner with state := .string (.char d :: spelled) }
  | .unit spelled missing value =>
    (hexDigit? c).map fun digit =>
      let value := 16 * value + digit
      if missing ≤ 1 then { scanner with state := .string (.unit value :: spelled) }
      else { scanner with state := .unit spelled (missing - 1) value }

/-- The tokens of a text. -/
def pieces (text : List Char) : Option (List Piece) := do
  let scanner ← text.foldlM Scanner.next ⟨[], .between⟩
  let ended ← scanner.endWord
  match ended.state with
  | .between => return ended.found.reverse
  | _ => none

/-! ### Values -/

/-- An array or an object that is open, with what it holds so far, latest first. -/
inductive Frame where
  | array (items : List JsonValue)
  /-- An object in which a value for the last key is still missing. -/
  | object (fields : List (Option String × JsonValue)) (key : Option String)

/-- What the reader waits for. -/
inductive Waiting where
  | value
  /-- A value, or the end of an array that holds nothing yet. -/
  | firstValue
  /-- A key, after the fields that are complete. -/
  | key (fields : List (Option String × JsonValue))
  /-- A key, or the end of an object that holds nothing yet. -/
  | firstKey
  | colon (fields : List (Option String × JsonValue)) (key : Option String)
  /-- The value is complete: a comma, the end of what surrounds it, or nothing. -/
  | separator (value : JsonValue)

/-- What the reader waits for, and what is open, the innermost first. -/
abbrev Reader := Waiting × List Frame

/-- Starts a value. -/
def startValue (frames : List Frame) : Piece → Option Reader
  | .null => some (.separator .null, frames)
  | .bool value => some (.separator (.bool value), frames)
  | .number text => some (.separator (.number text), frames)
  | .string value => some (.separator (.string value), frames)
  | .mark '[' => some (.firstValue, .array [] :: frames)
  | .mark '{' => some (.firstKey, frames)
  | .mark _ => none

/-- Reads one token. -/
def readPiece : Reader → Piece → Option Reader
  | (.value, frames), piece => startValue frames piece
  | (.firstValue, .array items :: frames), .mark ']' =>
    some (.separator (.array items.reverse), frames)
  | (.firstValue, frames), piece => startValue frames piece
  | (.key fields, frames), .string key => some (.colon fields key, frames)
  | (.firstKey, frames), .string key => some (.colon [] key, frames)
  | (.firstKey, frames), .mark '}' => some (.separator (.object []), frames)
  | (.colon fields key, frames), .mark ':' => some (.value, .object fields key :: frames)
  | (.separator value, .array items :: frames), .mark ',' =>
    some (.value, .array (value :: items) :: frames)
  | (.separator value, .array items :: frames), .mark ']' =>
    some (.separator (.array (value :: items).reverse), frames)
  | (.separator value, .object fields key :: frames), .mark ',' =>
    some (.key ((key, value) :: fields), frames)
  | (.separator value, .object fields key :: frames), .mark '}' =>
    some (.separator (.object ((key, value) :: fields).reverse), frames)
  | _, _ => none

/-- The value that a text spells. -/
def parse? (text : String) : Option JsonValue := do
  match ← (← pieces text.toList).foldlM readPiece (.value, []) with
  | (.separator value, []) => return value
  | _ => none

end JsonValue

end SmtSession
