import Mathlib.Data.List.TakeWhile
import SmtSession.Symbol
import SmtSession.Token.Lexer

/-!
# Tokens read back as they are spelled

A token can be spelled in several ways: a name with bars or without, a string
with backslashes or with doubled quotes (`Token.SpelledAs`).  The reader takes
each of them as one lexeme, whatever follows it, as long as the token ends
there: a word goes on through word characters, and a string through a second
quote (`Token.EndsBefore`).

One of the ways is how the token is printed (`Token.spelling`), unless it is
printed as something else: a symbol with a bar in its name ends at that bar.
`Token.isLexical` excludes these, and `Token.readsAs_spelling` says that every
other token is read back as it is printed.
-/

namespace SmtSession

open Text (isBlank)

/-! ## Lexical validity -/

/-- Whether a symbol can be written between bars: there is none in its name. -/
def Symbol.isLexical (symbol : Symbol) : Bool :=
  !symbol.name.toList.contains '|'

/-- Whether a keyword is one word. -/
def Keyword.isLexical (key : Keyword) : Bool :=
  key.name.toList.all isWordChar

/-- Whether a text is digits, a point, and digits. -/
def isDecimal (text : List Char) : Bool :=
  isDigits (text.takeWhile (· != '.')) &&
    match text.dropWhile (· != '.') with
    | [] => false
    | _ :: fraction => isDigits fraction

/-- Whether a constant has the digits that its kind asks for. -/
def Constant.isLexical : Constant → Bool
  | .numeral _ => true
  | .decimal text => isDecimal text.toList
  | .hexadecimal digits => !digits.toList.isEmpty && digits.toList.all isHexDigit
  | .binary digits => !digits.toList.isEmpty && digits.toList.all isBinaryDigit
  | .string _ => true

namespace Token

/-- Whether a token is read back as it is spelled. -/
def isLexical : Token → Bool
  | .opening => true
  | .closing => true
  | .ident name => (Symbol.mk name).isLexical
  | .keyword name => (Keyword.mk name).isLexical
  | .constant value => value.isLexical

/-- Whether a token is a parenthesis. -/
def isParen : Token → Bool
  | .opening => true
  | .closing => true
  | _ => false

/-- The characters that a token is printed as. -/
def spelling : Token → List Char
  | .opening => ['(']
  | .closing => [')']
  | .ident name => (Symbol.mk name).text.toList
  | .keyword name => (Keyword.mk name).text.toList
  | .constant value => value.text.toList

end Token

/-! ## Classes of characters -/

theorem isSeparator_eq_false_of_isBlank {c : Char} (h : isBlank c) : isSeparator c = false := by
  simp only [isSeparator, Bool.or_eq_false_iff, beq_eq_false_iff_ne, ne_eq]
  refine ⟨⟨⟨⟨?_, ?_⟩, ?_⟩, ?_⟩, ?_⟩ <;> (rintro rfl; revert h; decide)

theorem isSeparator_eq_false_of_isWordChar {c : Char} (h : isWordChar c) :
    isSeparator c = false := by
  simpa using (Bool.and_eq_true_iff.mp h).2

/-- What starts lists, strings, quoted symbols and comments is a separator. -/
theorem ne_of_isSeparator_eq_false {c : Char} (h : isSeparator c = false) :
    c ≠ '(' ∧ c ≠ ')' ∧ c ≠ '"' ∧ c ≠ '|' ∧ c ≠ ';' := by
  simp only [isSeparator, Bool.or_eq_false_iff, beq_eq_false_iff_ne, ne_eq] at h
  exact ⟨h.1.1.1.1, h.1.1.1.2, h.1.1.2, h.1.2, h.2⟩

/-- A blank is none of the characters that start a token or a comment. -/
theorem ne_of_isBlank {c : Char} (h : isBlank c) :
    c ≠ '(' ∧ c ≠ ')' ∧ c ≠ '"' ∧ c ≠ '|' ∧ c ≠ ';' :=
  ne_of_isSeparator_eq_false (isSeparator_eq_false_of_isBlank h)

/-- What belongs to a word is not passed over. -/
theorem not_blank_of_isWordChar {c : Char} (h : isWordChar c) : isBlank c = false ∧ c ≠ ';' := by
  have hseparator := ne_of_isSeparator_eq_false (isSeparator_eq_false_of_isWordChar h)
  exact ⟨by simpa using (Bool.and_eq_true_iff.mp h).1, hseparator.2.2.2.2⟩

theorem isBlank_eq_false_of_ascii {c : Char} (hlow : 0x20 < c.toNat) (hhigh : c.toNat < 0x85) :
    isBlank c = false := by
  simp only [isBlank, Text.blankRanges, List.any_cons, List.any_nil, Bool.or_false,
    Bool.or_eq_false_iff, Bool.and_eq_false_iff, decide_eq_false_iff_not]
  omega

theorem isAlpha_of_letter {c : Char} (h : ('A' ≤ c ∧ c ≤ 'Z') ∨ ('a' ≤ c ∧ c ≤ 'z')) :
    c.isAlpha := by
  show (decide ('A'.val ≤ c.val ∧ c.val ≤ 'Z'.val) ||
    (decide ('a'.val ≤ c.val) && decide (c.val ≤ 'z'.val))) = true
  rw [Bool.or_eq_true, Bool.and_eq_true, decide_eq_true_eq, decide_eq_true_eq, decide_eq_true_eq]
  exact h

theorem isWordChar_of_isAlphanum {c : Char} (h : c.isAlphanum) : isWordChar c := by
  -- letters and digits lie between `0` and `z`, and the semicolon is none of them
  have hclasses : (decide ('A'.val ≤ c.val ∧ c.val ≤ 'Z'.val) ||
      (decide ('a'.val ≤ c.val) && decide (c.val ≤ 'z'.val)) ||
      (decide ('0'.val ≤ c.val) && decide (c.val ≤ '9'.val))) = true := h
  have hrange : 0x30 ≤ c.toNat ∧ c.toNat ≤ 0x7A ∧ c.toNat ≠ 0x3B := by
    simp only [Bool.or_eq_true, Bool.and_eq_true, decide_eq_true_eq, UInt32.le_iff_toNat_le,
      Char.toNat_val] at hclasses
    simp at hclasses
    omega
  have hseparator : isSeparator c = false := by
    simp only [isSeparator, Bool.or_eq_false_iff, beq_eq_false_iff_ne, ne_eq]
    refine ⟨⟨⟨⟨?_, ?_⟩, ?_⟩, ?_⟩, ?_⟩ <;> (rintro rfl; simp at hrange)
  simp [isWordChar, hseparator, isBlank_eq_false_of_ascii (c := c) (by omega) (by omega)]

theorem isWordChar_of_isDigit {c : Char} (h : c.isDigit) : isWordChar c :=
  isWordChar_of_isAlphanum (by simp [Char.isAlphanum, h])

theorem isWordChar_of_isAlpha {c : Char} (h : c.isAlpha) : isWordChar c :=
  isWordChar_of_isAlphanum (by simp [Char.isAlphanum, h])

theorem isWordChar_of_isPlainChar {c : Char} (h : Symbol.isPlainChar c) : isWordChar c := by
  rcases Bool.or_eq_true_iff.mp h with hletter | hpunctuation
  · exact isWordChar_of_isAlphanum hletter
  · have hall : "~!@$%^&*_-+=<>.?/".toList.all isWordChar := by decide
    exact List.all_eq_true.mp hall c (by simpa using hpunctuation)

/-! ## Runs of characters -/

namespace Source

/-- Whether neither a word nor a string goes on with what follows. -/
def stops : Source → Bool
  | [] => true
  | .ok c :: _ => !isWordChar c && c != '"'
  | .error _ :: _ => false

/-- Whether the source does not begin with a character of the class `p` or a failure. -/
def halts (p : Char → Bool) : Source → Bool
  | [] => true
  | .ok c :: _ => !p c
  | .error _ :: _ => false

variable {p : Char → Bool} {chars : List Char} {rest : Source}

theorem takeWhile_chars_append (hall : ∀ c ∈ chars, p c)
    (hrest : rest.takeWhile (matching p) = []) :
    (chars.map Except.ok ++ rest).takeWhile (matching p) = chars.map Except.ok := by
  rw [List.takeWhile_append_of_pos (by simpa [matching] using hall), hrest, List.append_nil]

theorem takeChars_append (hall : ∀ c ∈ chars, p c) (hrest : rest.takeWhile (matching p) = []) :
    takeChars p (chars.map Except.ok ++ rest) = chars := by
  rw [takeChars, takeWhile_chars_append hall hrest, List.filterMap_map]
  simp [Function.comp_def, Except.toOption]

theorem dropChars_append (hall : ∀ c ∈ chars, p c) (hrest : rest.takeWhile (matching p) = []) :
    dropChars p (chars.map Except.ok ++ rest) = rest := by
  rw [dropChars, List.dropWhile_append_of_pos (by simpa [matching] using hall)]
  simpa [hrest] using (List.takeWhile_append_dropWhile (p := matching p) (l := rest))

theorem halts_of_stops (h : rest.stops) : rest.halts isWordChar ∧ rest.halts (· == '"') := by
  match rest, h with
  | [], _ => exact ⟨rfl, rfl⟩
  | .ok c :: more, h => exact Bool.and_eq_true_iff.mp h

theorem takeWhile_of_halts (h : rest.halts p) : rest.takeWhile (matching p) = [] := by
  match rest, h with
  | [], _ => rfl
  | .ok c :: more, h =>
      have hc : p c = false := by simpa [halts] using h
      simp [matching, hc]

end Source

/-- A word is taken up to where the source halts. -/
theorem Lexeme.ofWord_of_halts {p : Char → Bool} {word : List Char}
    {token : Except SyntaxError Token} {rest : Source} (h : rest.halts p) :
    Lexeme.ofWord word token rest = ⟨[], word, token, rest⟩ := by
  match rest, h with
  | [], _ => rfl
  | .ok _ :: _, _ => rfl

/-! ## Each kind of token -/

section

variable {rest : Source}

theorem StringTail.find_escaped (c : Char) :
    StringTail.find true (.ok c :: rest) = (StringTail.find false rest).cons c := by
  rw [StringTail.find.eq_def]
  simp

theorem StringTail.find_backslash :
    StringTail.find false (.ok '\\' :: rest) = (StringTail.find true rest).cons '\\' := by
  rw [StringTail.find.eq_def]
  simp

theorem StringTail.find_plain {c : Char} (hbackslash : c ≠ '\\') (hquote : c ≠ '"') :
    StringTail.find false (.ok c :: rest) = (StringTail.find false rest).cons c := by
  rw [StringTail.find.eq_def]
  simp [hbackslash, hquote]

/-- What can stand between the quotes of a string: a backslash goes with the character after it,
and other quotes come in pairs. -/
inductive StringBody : List Char → Prop
  | nil : StringBody []
  | escaped {c : Char} {body : List Char} : StringBody body → StringBody ('\\' :: c :: body)
  | doubled {body : List Char} : StringBody body → StringBody ('"' :: '"' :: body)
  | plain {c : Char} {body : List Char} :
      c ≠ '\\' → c ≠ '"' → StringBody body → StringBody (c :: body)

theorem stringBody_escape (value : List Char) : StringBody (escape value) := by
  induction value with
  | nil => exact .nil
  | cons c cs ih =>
      rw [escape]
      split
      · exact .escaped ih
      · next hplain =>
          rw [not_or] at hplain
          exact .plain hplain.2 hplain.1 ih

/-- The closing quote of a string is the first one that nothing escapes. -/
theorem StringTail.find_of_body {body : List Char} (h : StringBody body)
    (hhalts : rest.halts (· == '"')) :
    StringTail.find false (body.map Except.ok ++ .ok '"' :: rest) = ⟨body, .ok (), rest⟩ := by
  induction h with
  | nil =>
      match rest, hhalts with
      | [], _ => rfl
      | .ok d :: more, hhalts =>
          have hquote : d ≠ '"' := by simpa [Source.halts] using hhalts
          simp [StringTail.find, hquote]
  | escaped _ ih => simp [find_backslash, find_escaped, ih, cons]
  | doubled _ ih =>
      rw [List.map_cons, List.map_cons, List.cons_append, List.cons_append, StringTail.find.eq_def]
      simp [ih, cons]
  | plain hbackslash hquote _ ih => simp [find_plain hbackslash hquote, ih, cons]

theorem Lexeme.ofQuote_of_body {body : List Char} (h : StringBody body)
    (hhalts : rest.halts (· == '"')) :
    Lexeme.ofQuote (body.map Except.ok ++ .ok '"' :: rest) =
      ⟨[], '"' :: body ++ ['"'], .ok (.constant (.string (String.ofList (unescape body)))),
        rest⟩ := by
  simp [Lexeme.ofQuote, StringTail.find_of_body h hhalts]

/-- Between bars everything but a bar is taken as it stands. -/
theorem Lexeme.ofBars_of_name {name : List Char} (h : '|' ∉ name) :
    Lexeme.ofBars (name.map Except.ok ++ .ok '|' :: rest) =
      ⟨[], '|' :: name ++ ['|'], .ok (.ident (String.ofList name)), rest⟩ := by
  have hall : ∀ c ∈ name, (c != '|') = true := by
    intro c hc
    rw [bne_iff_ne]
    rintro rfl
    exact h hc
  have hbar : (Except.ok '|' :: rest : Source).takeWhile (Source.matching (· != '|')) = [] := rfl
  simp [Lexeme.ofBars, Source.takeChars_append hall hbar, Source.dropChars_append hall hbar]

end

/-! ## Words -/

/-- The token that a word spells, its first character apart. -/
def Token.ofWord (c : Char) (word : List Char) : Except SyntaxError Token :=
  if c = '#' then ofRadix word
  else if c = ':' then .ok (.keyword (String.ofList word))
  else if c.isDigit then ofNumber (c :: word)
  else .ok (.ident (String.ofList (c :: word)))

/-- What starts with a character of words is a word. -/
theorem Lexeme.starting_eq_ofWord {c : Char} (hc : isWordChar c) (rest : Source) :
    Lexeme.starting c rest =
      .ofWord (c :: rest.takeChars isWordChar) (Token.ofWord c (rest.takeChars isWordChar))
        (rest.dropChars isWordChar) := by
  have hspecial := ne_of_isSeparator_eq_false (isSeparator_eq_false_of_isWordChar hc)
  simp only [Lexeme.starting, hspecial, if_false, Source.takeChars_cons hc,
    Source.dropChars_cons hc, List.tail_cons, Token.ofWord]
  split
  · next hradix =>
    subst hradix
    rfl
  · split
    · rfl
    · split <;> rfl

/-- A word is read up to where no character of a word follows. -/
theorem Lexeme.starting_word {c : Char} {word : List Char} {rest : Source}
    (hc : isWordChar c) (hword : ∀ d ∈ word, isWordChar d) (hhalts : rest.halts isWordChar) :
    Lexeme.starting c (word.map Except.ok ++ rest) =
      ⟨[], c :: word, Token.ofWord c word, rest⟩ := by
  have htail := Source.takeWhile_of_halts hhalts
  rw [starting_eq_ofWord hc, Source.takeChars_append hword htail,
    Source.dropChars_append hword htail, ofWord_of_halts hhalts]

/-- A word that spells the token. -/
def Token.IsWord (token : Token) : Prop :=
  ∃ c word, token.spelling = c :: word ∧ isWordChar c ∧ (∀ d ∈ word, isWordChar d) ∧
    Token.ofWord c word = .ok token

namespace Token

theorem isWord_ident {name : String} (h : (Symbol.mk name).isSimple) : (ident name).IsWord := by
  cases hname : name.toList with
  | nil => simp [Symbol.isSimple, hname] at h
  | cons c word =>
      have hsimple := h
      simp only [Symbol.isSimple, hname, Bool.and_eq_true, Bool.not_eq_true',
        List.all_eq_true] at h
      obtain ⟨⟨hdigit, hc⟩, hword⟩ := h
      have hkind : c ≠ '#' ∧ c ≠ ':' := by
        refine ⟨?_, ?_⟩ <;> (rintro rfl; revert hc; decide)
      refine ⟨c, word, ?_, isWordChar_of_isPlainChar hc,
        fun d hd => isWordChar_of_isPlainChar (hword d hd), ?_⟩
      · simp [spelling, Symbol.text, hsimple, hname]
      · simp [ofWord, hkind, hdigit, ← hname]

theorem isWord_keyword {name : String} (h : (Keyword.mk name).isLexical) :
    (keyword name).IsWord := by
  refine ⟨':', name.toList, by simp [spelling, Keyword.text], by decide,
    List.all_eq_true.mp h, by simp [ofWord]⟩

end Token

/-! ## Numbers -/

theorem isDigits_iff {text : List Char} :
    isDigits text ↔ text ≠ [] ∧ ∀ c ∈ text, c.isDigit := by
  simp [isDigits]

theorem isDigits_repr (value : Nat) : isDigits value.repr.toList := by
  rw [isDigits_iff, Nat.toList_repr]
  exact ⟨Nat.toDigits_ne_nil, fun c hc => Nat.isDigit_of_mem_toDigits (by decide) (by decide) hc⟩

theorem isWordChar_of_isHexDigit {c : Char} (h : isHexDigit c) : isWordChar c := by
  simp only [isHexDigit, Bool.or_eq_true, Bool.and_eq_true, decide_eq_true_eq] at h
  rcases h with (hdigit | hlower) | hupper
  · exact isWordChar_of_isDigit hdigit
  · have hz : c ≤ 'z' := Nat.le_trans hlower.2 (by decide)
    exact isWordChar_of_isAlpha (isAlpha_of_letter (.inr ⟨hlower.1, hz⟩))
  · have hz : c ≤ 'Z' := Nat.le_trans hupper.2 (by decide)
    exact isWordChar_of_isAlpha (isAlpha_of_letter (.inl ⟨hupper.1, hz⟩))

theorem isWordChar_of_isBinaryDigit {c : Char} (h : isBinaryDigit c) : isWordChar c := by
  rcases Bool.or_eq_true_iff.mp h with hzero | hone
  · rw [beq_iff_eq.mp hzero]
    decide
  · rw [beq_iff_eq.mp hone]
    decide

namespace Token

/-- A number starts with a digit, so its word is read as a number. -/
theorem ofWord_digit {c : Char} (h : c.isDigit) (word : List Char) :
    ofWord c word = ofNumber (c :: word) := by
  have hkind : c ≠ '#' ∧ c ≠ ':' := by
    refine ⟨?_, ?_⟩ <;> (rintro rfl; revert h; decide)
  simp [ofWord, hkind, h]

theorem ofNumber_repr (value : Nat) :
    ofNumber value.repr.toList = .ok (.constant (.numeral value)) := by
  have hdigits := isDigits_repr value
  have hall : ∀ c ∈ value.repr.toList, (c != '.') = true := by
    intro c hc
    have hdigit := (isDigits_iff.mp hdigits).2 c hc
    rw [bne_iff_ne]
    rintro rfl
    revert hdigit
    decide
  unfold ofNumber
  rw [List.takeWhile_eq_self_iff.mpr hall, List.dropWhile_eq_nil_iff.mpr hall]
  simp only [hdigits, if_true]
  rw [Nat.toList_repr, Nat.ofDigitChars_ten_toDigits]

theorem ofNumber_decimal {text : String} (h : isDecimal text.toList) :
    ofNumber text.toList = .ok (.constant (.decimal text)) := by
  unfold isDecimal at h
  unfold ofNumber
  split at h
  · simp at h
  · next point fraction hdrop => simpa [hdrop] using h

theorem isWord_numeral (value : Nat) : (constant (.numeral value)).IsWord := by
  have hdigits := isDigits_iff.mp (isDigits_repr value)
  have hread := ofNumber_repr value
  cases hrepr : value.repr.toList with
  | nil => exact absurd hrepr hdigits.1
  | cons c word =>
      rw [hrepr] at hdigits hread
      refine ⟨c, word, by simpa [spelling, Constant.text] using hrepr,
        isWordChar_of_isDigit (hdigits.2 c (by simp)),
        fun d hd => isWordChar_of_isDigit (hdigits.2 d (by simp [hd])), ?_⟩
      rw [ofWord_digit (hdigits.2 c (by simp)), hread]

/-- The characters of a decimal are digits and a point. -/
theorem isWordChar_of_mem_decimal {text : List Char} (h : isDecimal text) :
    ∀ c ∈ text, isWordChar c := by
  intro c hc
  rw [← List.takeWhile_append_dropWhile (p := (· != '.')) (l := text)] at hc
  simp only [isDecimal, Bool.and_eq_true] at h
  obtain ⟨hwhole, hfraction⟩ := h
  rcases List.mem_append.mp hc with hc | hc
  · exact isWordChar_of_isDigit ((isDigits_iff.mp hwhole).2 c hc)
  · cases hdrop : text.dropWhile (· != '.') with
    | nil => simp [hdrop] at hc
    | cons point fraction =>
        rw [hdrop] at hc hfraction
        rcases List.mem_cons.mp hc with rfl | hc
        · -- what is dropped starts where the digits before the point end
          have hpoint := List.head_dropWhile_not (p := (· != '.')) (l := text) (by simp [hdrop])
          have hc : c = '.' := by simpa [hdrop] using hpoint
          rw [hc]
          decide
        · exact isWordChar_of_isDigit ((isDigits_iff.mp hfraction).2 c hc)

theorem isWord_decimal {text : String} (h : isDecimal text.toList) :
    (constant (.decimal text)).IsWord := by
  have hchars := isWordChar_of_mem_decimal h
  have hread := ofNumber_decimal h
  cases htext : text.toList with
  | nil => simp [htext, isDecimal, isDigits] at h
  | cons c word =>
      rw [htext] at hchars hread h
      have hdigit : c.isDigit := by
        simp only [isDecimal, Bool.and_eq_true] at h
        have hwhole := isDigits_iff.mp h.1
        by_cases hpoint : c = '.'
        · simp [hpoint] at hwhole
        · exact hwhole.2 c (by simp [hpoint])
      refine ⟨c, word, by simpa [spelling, Constant.text] using htext,
        hchars c (by simp), fun d hd => hchars d (by simp [hd]), ?_⟩
      rw [ofWord_digit hdigit, hread]

/-- A constant that is spelled by a letter for its radix and digits. -/
theorem isWord_radix {value : Constant} {letter : Char} {digits : List Char} {p : Char → Bool}
    (hspelling : (constant value).spelling = '#' :: letter :: digits) (hletter : isWordChar letter)
    (hdigits : digits.all p) (hp : ∀ c, p c → isWordChar c)
    (hread : ofRadix (letter :: digits) = .ok (constant value)) : (constant value).IsWord := by
  refine ⟨'#', letter :: digits, hspelling, by decide, ?_, ?_⟩
  · intro d hd
    rcases List.mem_cons.mp hd with rfl | hd
    · exact hletter
    · exact hp d (List.all_eq_true.mp hdigits d hd)
  · rw [ofWord, if_pos rfl, hread]

theorem isWord_hexadecimal {digits : String} (h : (Constant.hexadecimal digits).isLexical) :
    (constant (.hexadecimal digits)).IsWord := by
  have hdigits : (!digits.toList.isEmpty && digits.toList.all isHexDigit) = true := h
  have hread : ofRadix ('x' :: digits.toList) = .ok (constant (.hexadecimal digits)) := by
    simp [ofRadix, hdigits]
  exact isWord_radix (by simp [spelling, Constant.text]) (by decide)
    (Bool.and_eq_true_iff.mp hdigits).2 (fun _ => isWordChar_of_isHexDigit) hread

theorem isWord_binary {digits : String} (h : (Constant.binary digits).isLexical) :
    (constant (.binary digits)).IsWord := by
  have hdigits : (!digits.toList.isEmpty && digits.toList.all isBinaryDigit) = true := h
  have hread : ofRadix ('b' :: digits.toList) = .ok (constant (.binary digits)) := by
    simp [ofRadix, hdigits]
  exact isWord_radix (by simp [spelling, Constant.text]) (by decide)
    (Bool.and_eq_true_iff.mp hdigits).2 (fun _ => isWordChar_of_isBinaryDigit) hread

end Token

/-! ## Spellings -/

/-- The ways to spell a token.  Only one of them is the way it is printed. -/
inductive Token.SpelledAs : Token → List Char → Prop
  | opening : SpelledAs .opening ['(']
  | closing : SpelledAs .closing [')']
  | word {token : Token} {c : Char} {word : List Char} :
      isWordChar c → (∀ d ∈ word, isWordChar d) → ofWord c word = .ok token →
        SpelledAs token (c :: word)
  | bars {name : List Char} :
      '|' ∉ name → SpelledAs (.ident (String.ofList name)) ('|' :: name ++ ['|'])
  | string {body : List Char} :
      StringBody body →
        SpelledAs (.constant (.string (String.ofList (unescape body)))) ('"' :: body ++ ['"'])

/-- Whether a token with the given spelling ends where the source begins: a word goes on through
word characters, and a string through a second quote. -/
def Token.EndsBefore : List Char → Source → Prop
  | '(' :: _, _ => True
  | ')' :: _, _ => True
  | '|' :: _, _ => True
  | '"' :: _, rest => rest.halts (· == '"')
  | _, rest => rest.halts isWordChar

namespace Token

theorem endsBefore_word {c : Char} (hc : isWordChar c) (word : List Char) (rest : Source) :
    EndsBefore (c :: word) rest = (rest.halts isWordChar : Prop) := by
  unfold EndsBefore
  split
  · next hchars => cases hchars; simp [isWordChar, isSeparator] at hc
  · next hchars => cases hchars; simp [isWordChar, isSeparator] at hc
  · next hchars => cases hchars; simp [isWordChar, isSeparator] at hc
  · next hchars => cases hchars; simp [isWordChar, isSeparator] at hc
  · rfl

/-- Where the source stops, every token ends. -/
theorem endsBefore_of_stops {rest : Source} (h : rest.stops) (chars : List Char) :
    EndsBefore chars rest := by
  obtain ⟨hword, hquote⟩ := Source.halts_of_stops h
  unfold EndsBefore
  split
  · trivial
  · trivial
  · trivial
  · exact hquote
  · exact hword

variable {token : Token}

theorem IsWord.spelledAs (h : token.IsWord) : token.SpelledAs token.spelling := by
  obtain ⟨c, word, hspelling, hc, hword, hread⟩ := h
  rw [hspelling]
  exact .word hc hword hread

theorem spelledAs_ident {name : String} (h : (Symbol.mk name).isLexical) :
    (ident name).SpelledAs (ident name).spelling := by
  by_cases hsimple : (Symbol.mk name).isSimple
  · exact (isWord_ident hsimple).spelledAs
  · -- a name that is no word stands between bars, and there is no bar in it
    have hspelling : (ident name).spelling = '|' :: name.toList ++ ['|'] := by
      simp [spelling, Symbol.text, hsimple]
    have hbar : '|' ∉ name.toList := by simpa [Symbol.isLexical] using h
    rw [hspelling]
    simpa using SpelledAs.bars hbar

theorem spelledAs_string (value : String) :
    (constant (.string value)).SpelledAs (constant (.string value)).spelling := by
  have hspelling : (constant (.string value)).spelling =
      '"' :: escape value.toList ++ ['"'] := by
    simp [spelling, Constant.text, quoteString]
  rw [hspelling]
  simpa using SpelledAs.string (stringBody_escape value.toList)

theorem spelledAs_constant {value : Constant} (h : value.isLexical) :
    (constant value).SpelledAs (constant value).spelling := by
  cases value with
  | numeral value => exact (isWord_numeral value).spelledAs
  | decimal text => exact (isWord_decimal h).spelledAs
  | hexadecimal digits => exact (isWord_hexadecimal h).spelledAs
  | binary digits => exact (isWord_binary h).spelledAs
  | string value => exact spelledAs_string value

/-- A lexically valid token is printed in a way to spell it. -/
theorem spelledAs_spelling (h : token.isLexical) : token.SpelledAs token.spelling := by
  cases token with
  | opening => exact .opening
  | closing => exact .closing
  | ident name => exact spelledAs_ident h
  | keyword name => exact (isWord_keyword h).spelledAs
  | constant value => exact spelledAs_constant h

end Token

/-! ## Spellings as lexemes -/

/-- The reader takes `spelling`, followed by `rest`, as one lexeme for the token. -/
def Token.ReadsAs (token : Token) (spelling : List Char) (rest : Source) : Prop :=
  ∃ c chars, spelling = c :: chars ∧ isBlank c = false ∧ c ≠ ';' ∧
    Lexeme.starting c (chars.map Except.ok ++ rest) = ⟨[], spelling, .ok token, rest⟩

namespace Token

variable {token : Token} {rest : Source}

/-- A token is read however it is spelled, as long as it ends before what follows. -/
theorem SpelledAs.readsAs {chars : List Char} (h : token.SpelledAs chars)
    (hends : EndsBefore chars rest) : token.ReadsAs chars rest := by
  cases h with
  | opening => exact ⟨'(', [], rfl, by decide, by decide, rfl⟩
  | closing => exact ⟨')', [], rfl, by decide, by decide, rfl⟩
  | @word _ c word hc hword hread =>
      obtain ⟨hblank, hcomment⟩ := not_blank_of_isWordChar hc
      have hhalts : rest.halts isWordChar := endsBefore_word hc word rest ▸ hends
      refine ⟨c, word, rfl, hblank, hcomment, ?_⟩
      rw [Lexeme.starting_word hc hword hhalts, hread]
  | @bars name hname =>
      refine ⟨'|', name ++ ['|'], rfl, by decide, by decide, ?_⟩
      rw [List.map_append, List.append_assoc]
      exact Lexeme.ofBars_of_name hname
  | @string body hbody =>
      refine ⟨'"', body ++ ['"'], rfl, by decide, by decide, ?_⟩
      rw [List.map_append, List.append_assoc]
      exact Lexeme.ofQuote_of_body hbody hends

/-- A lexically valid token is read as it is printed.  Only a parenthesis may be followed by
anything. -/
theorem readsAs_spelling (hlexical : token.isLexical) (hnext : token.isParen ∨ rest.stops) :
    token.ReadsAs token.spelling rest := by
  refine (spelledAs_spelling hlexical).readsAs ?_
  rcases hnext with hparen | hstops
  · cases token with
    | opening => trivial
    | closing => trivial
    | ident name => simp [isParen] at hparen
    | keyword name => simp [isParen] at hparen
    | constant value => simp [isParen] at hparen
  · exact endsBefore_of_stops hstops _

end Token

end SmtSession
