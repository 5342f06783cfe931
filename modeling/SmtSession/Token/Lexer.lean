import SmtSession.Location
import SmtSession.Source
import SmtSession.SyntaxError
import SmtSession.Text.Blank

/-!
# Reading tokens

A source is cut into lexemes.  A lexeme is what one step of reading takes from the source: the
blanks and comments passed over, the characters of the token, and the token or the reason why
there is none.  Nothing is dropped between lexemes, so that positions follow from the characters
taken (`Cursor.past`), and every lexeme takes something (`nextLexeme_rest_lt`), so that reading
ends; it goes on after an error.
-/

namespace SmtSession

open Text (isBlank)

/-! ### Classes of characters -/

/-- A separator ends a word and belongs to no word. -/
def isSeparator (c : Char) : Bool :=
  c == '(' || c == ')' || c == '"' || c == '|' || c == ';'

/-- The characters that words are made of. -/
def isWordChar (c : Char) : Bool :=
  !isBlank c && !isSeparator c

/-- The digits to base sixteen, in both cases. -/
def isHexDigit (c : Char) : Bool :=
  c.isDigit || ('a' ≤ c && c ≤ 'f') || ('A' ≤ c && c ≤ 'F')

/-- The digits to base two. -/
def isBinaryDigit (c : Char) : Bool :=
  c == '0' || c == '1'

namespace Source

/-- Whether an element of a source is a character of the class `p`. -/
def matching (p : Char → Bool) : Except Failure Char → Bool
  | .ok c => p c
  | .error _ => false

/-- The characters of the class `p` that the source begins with. -/
def takeChars (p : Char → Bool) (source : Source) : List Char :=
  (source.takeWhile (matching p)).filterMap Except.toOption

/-- What follows the characters of the class `p` that the source begins with. -/
def dropChars (p : Char → Bool) (source : Source) : Source :=
  source.dropWhile (matching p)

/-- Splits the source after the blanks and comments it begins with, a comment being open at its
start if `comment` says so.  A comment goes from a semicolon to the end of the line. -/
def splitBlanks (comment : Bool) : Source → List Char × Source
  | [] => ([], [])
  | .error failure :: rest => ([], .error failure :: rest)
  | .ok c :: rest =>
    if comment then
      let (blanks, rest) := splitBlanks (c != '\n') rest
      (c :: blanks, rest)
    else if c = ';' ∨ isBlank c then
      let (blanks, rest) := splitBlanks (c = ';') rest
      (c :: blanks, rest)
    else
      ([], .ok c :: rest)

end Source

/-! ### Lexemes -/

/-- What one step of reading takes from a source. -/
structure Lexeme where
  /-- The blanks and comments before the token. -/
  blanks : List Char
  /-- The characters of the token, none when reading failed before it. -/
  chars : List Char
  token : Except SyntaxError Token
  /-- What was not taken. -/
  rest : Source

/-- The lexeme of a word whose characters have been found.  A failure right after the word takes
the word with it. -/
def Lexeme.ofWord (word : List Char) (token : Except SyntaxError Token) (rest : Source) :
    Lexeme :=
  match rest with
  | .error failure :: rest => ⟨[], word, .error (.read failure), rest⟩
  | rest => ⟨[], word, token, rest⟩

/-- The token spelled by `#` and a word: binary or hexadecimal digits. -/
def Token.ofRadix (word : List Char) : Except SyntaxError Token :=
  match word with
  | 'b' :: digits =>
    if !digits.isEmpty && digits.all isBinaryDigit then
      .ok (.constant (.binary (String.ofList digits)))
    else
      .error (.invalidLiteral (String.ofList ('#' :: word)))
  | 'x' :: digits =>
    if !digits.isEmpty && digits.all isHexDigit then
      .ok (.constant (.hexadecimal (String.ofList digits)))
    else
      .error (.invalidLiteral (String.ofList ('#' :: word)))
  | _ => .error (.invalidLiteral (String.ofList ('#' :: word)))

/-- Whether a text is a non-empty run of decimal digits. -/
def isDigits (text : List Char) : Bool :=
  !text.isEmpty && text.all Char.isDigit

/-- The token spelled by a word that starts with a digit: a numeral, or a decimal with digits on
both sides of its first point. -/
def Token.ofNumber (word : List Char) : Except SyntaxError Token :=
  let whole := word.takeWhile (· != '.')
  match word.dropWhile (· != '.') with
  | [] =>
    if isDigits whole then .ok (.constant (.numeral (Nat.ofDigitChars 10 whole 0)))
    else .error (.invalidLiteral (String.ofList word))
  | _ :: fraction =>
    if isDigits whole && isDigits fraction then .ok (.constant (.decimal (String.ofList word)))
    else .error (.invalidLiteral (String.ofList word))

/-- The rest of a symbol written between bars, the first bar having been read. -/
def Lexeme.ofBars (source : Source) : Lexeme :=
  let name := source.takeChars (· != '|')
  match source.dropChars (· != '|') with
  | [] => ⟨[], '|' :: name, .error .unterminatedSymbol, []⟩
  | .error failure :: rest => ⟨[], '|' :: name, .error (.read failure), rest⟩
  | .ok _ :: rest => ⟨[], '|' :: name ++ ['|'], .ok (.ident (String.ofList name)), rest⟩

/-- What follows the opening quote of a string. -/
structure StringTail where
  /-- The characters up to the closing quote, as written. -/
  body : List Char
  /-- Whether the closing quote was found, or why not. -/
  closed : Except SyntaxError Unit
  rest : Source

/-- Adds a character in front of the body. -/
def StringTail.cons (c : Char) (tail : StringTail) : StringTail :=
  { tail with body := c :: tail.body }

/-- Finds the closing quote of a string, `escaped` saying that a backslash stands before the
source.  A quote after a backslash, and two quotes in a row, do not close the string.  A failure
right after the closing quote takes the string with it. -/
def StringTail.find (escaped : Bool) : Source → StringTail
  | [] => ⟨[], .error .unterminatedString, []⟩
  | .error failure :: rest => ⟨[], .error (.read failure), rest⟩
  | .ok c :: rest =>
    if escaped then (find false rest).cons c
    else if c = '\\' then (find true rest).cons c
    else if c = '"' then
      match rest with
      | [] => ⟨[], .ok (), []⟩
      | .error failure :: rest => ⟨[c], .error (.read failure), rest⟩
      | .ok d :: rest' =>
        if d = '"' then ((find false rest').cons d).cons c else ⟨[], .ok (), rest⟩
    else (find false rest).cons c

/-- The value of the body of a string.  A character after a backslash stands for itself, except
that `n` stands for a line break; of two quotes in a row the first stands for itself. -/
def unescape : List Char → List Char
  | [] => []
  | [c] => [c]
  | c :: d :: rest =>
    if c = '\\' then (if d = 'n' then '\n' else d) :: unescape rest
    else if c = '"' then c :: unescape rest
    else c :: unescape (d :: rest)

/-- Escaping a text and reading it back gives the text. -/
@[simp] theorem unescape_escape (text : List Char) : unescape (escape text) = text := by
  induction text with
  | nil => rfl
  | cons c rest ih =>
    rw [escape]
    split
    · next special =>
      rcases special with rfl | rfl <;> simp [unescape, ih]
    · next plain =>
      rw [not_or] at plain
      cases tail : escape rest with
      | nil =>
        have : rest = [] := by simpa [tail, unescape] using ih.symm
        simp [unescape, this]
      | cons d after => simp [unescape, plain, ← tail, ih]

/-- The rest of a string, its opening quote having been read. -/
def Lexeme.ofQuote (source : Source) : Lexeme :=
  let tail := StringTail.find false source
  match tail.closed with
  | .error error => ⟨[], '"' :: tail.body, .error error, tail.rest⟩
  | .ok () =>
    let value := String.ofList (unescape tail.body)
    ⟨[], '"' :: tail.body ++ ['"'], .ok (.constant (.string value)), tail.rest⟩

/-- The lexeme of the digits after a `#`, which has been read. -/
def Lexeme.ofRadix (source : Source) : Lexeme :=
  let word := source.takeChars isWordChar
  .ofWord ('#' :: word) (Token.ofRadix word) (source.dropChars isWordChar)

/-- The lexeme that starts with the character `c`, which is no blank and starts no comment.  A
keyword, a number or a name is read from `c` on; any other token has a first character that says
what follows, and is read from the next one on. -/
def Lexeme.starting (c : Char) (rest : Source) : Lexeme :=
  let source : Source := .ok c :: rest
  let word := source.takeChars isWordChar
  let afterWord := source.dropChars isWordChar
  if c = '(' then ⟨[], [c], .ok .opening, rest⟩
  else if c = ')' then ⟨[], [c], .ok .closing, rest⟩
  else if c = '"' then .ofQuote rest
  else if c = '|' then .ofBars rest
  else if c = '#' then .ofRadix rest
  else if c = ':' then .ofWord word (.ok (.keyword (String.ofList word.tail))) afterWord
  else if c.isDigit then .ofWord word (Token.ofNumber word) afterWord
  else .ofWord word (.ok (.ident (String.ofList word))) afterWord

/-- The next lexeme of a source, if anything but blanks and comments is left. -/
def nextLexeme (source : Source) : Option Lexeme :=
  let (blanks, rest) := source.splitBlanks false
  match rest with
  | [] => none
  | .error failure :: rest => some ⟨blanks, [], .error (.read failure), rest⟩
  | .ok c :: rest => some { Lexeme.starting c rest with blanks }

/-! ### Every lexeme takes something -/

/-- Where neither a blank nor a comment is passed over, a parenthesis, a string, a symbol between
bars or a word begins. -/
theorem eq_or_isWordChar {c : Char} (blank : isBlank c = false) (comment : c ≠ ';') :
    c = '(' ∨ c = ')' ∨ c = '"' ∨ c = '|' ∨ isWordChar c := by
  by_cases separator : isSeparator c
  · simp only [isSeparator, Bool.or_eq_true, beq_iff_eq, comment, or_false] at separator
    rcases separator with ((opening | closing) | quote) | bar
    · exact .inl opening
    · exact .inr (.inl closing)
    · exact .inr (.inr (.inl quote))
    · exact .inr (.inr (.inr (.inl bar)))
  · exact .inr (.inr (.inr (.inr (by simp [isWordChar, blank, separator]))))

namespace Source

theorem takeChars_cons {p : Char → Bool} {c : Char} (holds : p c) (rest : Source) :
    takeChars p (.ok c :: rest) = c :: rest.takeChars p := by
  simp [takeChars, matching, holds, Except.toOption]

theorem dropChars_cons {p : Char → Bool} {c : Char} (holds : p c) (rest : Source) :
    dropChars p (.ok c :: rest) = rest.dropChars p := by
  simp [dropChars, matching, holds]

theorem length_dropChars_le (p : Char → Bool) (source : Source) :
    (source.dropChars p).length ≤ source.length :=
  (List.dropWhile_sublist _).length_le

theorem length_splitBlanks_le (comment : Bool) (source : Source) :
    (source.splitBlanks comment).2.length ≤ source.length := by
  induction source generalizing comment with
  | nil => simp [splitBlanks]
  | cons item rest ih =>
    cases item with
    | error failure => simp [splitBlanks]
    | ok c =>
      rw [splitBlanks]
      split
      · exact Nat.le_succ_of_le (ih _)
      · split
        · exact Nat.le_succ_of_le (ih _)
        · exact Nat.le_refl _

/-- Blanks and comments end at a character that is passed over by neither. -/
theorem head_splitBlanks {comment : Bool} {source rest : Source} {c : Char}
    (found : (source.splitBlanks comment).2 = .ok c :: rest) : isBlank c = false ∧ c ≠ ';' := by
  induction source generalizing comment with
  | nil => simp [splitBlanks] at found
  | cons item more ih =>
    cases item with
    | error failure => simp [splitBlanks] at found
    | ok d =>
      rw [splitBlanks] at found
      split at found
      · exact ih found
      · split at found
        · exact ih found
        · next stop =>
          cases found
          simpa [and_comm] using stop

end Source

theorem Lexeme.length_ofWord_rest_le (word : List Char) (token : Except SyntaxError Token)
    (rest : Source) : (Lexeme.ofWord word token rest).rest.length ≤ rest.length := by
  unfold Lexeme.ofWord
  split <;> simp

theorem Lexeme.length_ofBars_rest_le (source : Source) :
    (Lexeme.ofBars source).rest.length ≤ source.length := by
  have bound := source.length_dropChars_le (· != '|')
  unfold Lexeme.ofBars
  split <;> simp_all <;> omega

theorem StringTail.length_find_rest_le (escaped : Bool) (source : Source) :
    (StringTail.find escaped source).rest.length ≤ source.length := by
  fun_induction StringTail.find escaped source <;> simp_all [StringTail.cons] <;> omega

theorem Lexeme.length_ofQuote_rest_le (source : Source) :
    (Lexeme.ofQuote source).rest.length ≤ source.length := by
  have bound := StringTail.length_find_rest_le false source
  unfold Lexeme.ofQuote
  dsimp only
  split <;> exact bound

theorem Lexeme.length_starting_rest_le {c : Char} (blank : isBlank c = false) (comment : c ≠ ';')
    (rest : Source) : (Lexeme.starting c rest).rest.length ≤ rest.length := by
  have after (word : List Char) (token : Except SyntaxError Token) :=
    Nat.le_trans (Lexeme.length_ofWord_rest_le word token _) (rest.length_dropChars_le isWordChar)
  have quote := Lexeme.length_ofQuote_rest_le rest
  have bars := Lexeme.length_ofBars_rest_le rest
  rcases eq_or_isWordChar blank comment with rfl | rfl | rfl | rfl | word
  · exact Nat.le_refl _
  · exact Nat.le_refl _
  · exact quote
  · exact bars
  · -- what is left after a word is left after its first character
    unfold Lexeme.starting
    dsimp only
    rw [Source.dropChars_cons word]
    repeat' split
    all_goals first | exact Nat.le_refl _ | exact quote | exact bars | exact after _ _

/-- A lexeme takes at least one element of the source. -/
theorem nextLexeme_rest_lt {source : Source} {lexeme : Lexeme}
    (found : nextLexeme source = some lexeme) : lexeme.rest.length < source.length := by
  have blanks := source.length_splitBlanks_le false
  unfold nextLexeme at found
  dsimp only at found
  split at found
  · contradiction
  · next failure rest eq =>
    cases found
    rw [eq] at blanks
    exact blanks
  · next c rest eq =>
    cases found
    obtain ⟨blank, comment⟩ := Source.head_splitBlanks eq
    rw [eq] at blanks
    exact Nat.lt_of_le_of_lt (Lexeme.length_starting_rest_le blank comment rest) blanks

/-- All the lexemes of a source. -/
def lexemes (source : Source) : List Lexeme :=
  match _ : nextLexeme source with
  | none => []
  | some lexeme => lexeme :: lexemes lexeme.rest
termination_by source.length
decreasing_by exact nextLexeme_rest_lt ‹_›

/-! ### Tokens at their places -/

/-- The cursor after a lexeme.  A token is marked where its first character stands; when reading
fails before a token, the mark stays where it was. -/
def Cursor.past (cursor : Cursor) (lexeme : Lexeme) : Cursor :=
  let cursor := cursor.through lexeme.blanks
  if lexeme.chars.isEmpty then cursor else cursor.mark.through lexeme.chars

/-- A token or an error, at its place. -/
abbrev Item := Except (Located SyntaxError) (Located Token)

/-- A lexeme as an item with the given span. -/
def Lexeme.item (lexeme : Lexeme) (span : Span) : Item :=
  match lexeme.token with
  | .ok token => .ok ⟨token, span⟩
  | .error error => .error ⟨error, span⟩

/-- Gives lexemes their places. -/
def place (cursor : Cursor) : List Lexeme → List Item
  | [] => []
  | lexeme :: rest =>
    let cursor := cursor.past lexeme
    lexeme.item cursor.span :: place cursor rest

/-- The tokens and errors of a source that starts at the given position. -/
def items (source : Source) (start : Position) : List Item :=
  place (.reset start) (lexemes source)

/-- The tokens and errors of a text. -/
def itemsOfText (text : String) : List Item :=
  items (.ofText text) .first

end SmtSession
