import SmtSession.Proofs.Token.Bare

/-!
# The lexemes of a text

In a text nothing fails but the spelling.  A lexeme of a text is a token that is
spelled and ends, or a word that spells no token, or a symbol or a string that
goes on to the end of the text.  `Written` says this of the characters of the
lexeme and of what follows them, and the reader finds exactly these lexemes
(`nextLexeme_text_iff`).

What follows a lexeme matters only in that it must not continue it.  So the
lexeme is read in the same way if the text is cut anywhere after it
(`Written.truncate`).
-/

namespace SmtSession

open Text (isBlank)

/-! ## Strings that are not closed -/

/-- What stands between the opening quote of a string and the end of a text, if the string is not
closed there: the text may end after a backslash. -/
inductive OpenBody : List Char → Prop
  | body {body : List Char} : StringBody body → OpenBody body
  | backslash {body : List Char} : StringBody body → OpenBody (body ++ ['\\'])

namespace OpenBody

variable {body : List Char}

/-- Whatever can stand in front of the body of a string can stand in front of an open one. -/
theorem append (h : OpenBody body) (front : List Char)
    (hfront : ∀ body, StringBody body → StringBody (front ++ body)) : OpenBody (front ++ body) := by
  cases h with
  | body hbody => exact .body (hfront _ hbody)
  | backslash hbody =>
      rw [← List.append_assoc]
      exact .backslash (hfront _ hbody)

end OpenBody

namespace StringTail

/-- The end of the text is reached without a closing quote. -/
theorem find_of_stringBody {body : List Char} (h : StringBody body) (tail : List Char)
    (htail : find false (tail.map Except.ok) = ⟨tail, .error .unterminatedString, []⟩) :
    find false ((body ++ tail).map Except.ok) = ⟨body ++ tail, .error .unterminatedString, []⟩ := by
  induction h with
  | nil => exact htail
  | escaped _ ih =>
      rw [List.cons_append, List.cons_append, List.map_cons, List.map_cons, find_backslash,
        find_escaped, ih]
      rfl
  | doubled _ ih =>
      rw [List.cons_append, List.cons_append, List.map_cons, List.map_cons, find.eq_def]
      simp only [Bool.false_eq_true, if_false, if_true, ih]
      rfl
  | plain hbackslash hquote _ ih =>
      rw [List.cons_append, List.map_cons, find_plain hbackslash hquote, ih, cons]

theorem find_of_openBody {body : List Char} (h : OpenBody body) :
    find false (body.map Except.ok) = ⟨body, .error .unterminatedString, []⟩ := by
  cases h with
  | body hbody => simpa using find_of_stringBody hbody [] rfl
  | backslash hbody => exact find_of_stringBody hbody ['\\'] rfl

/-- A string of a text that is not closed goes on to the end of the text. -/
theorem find_text_error (escaped : Bool) (text : List Char) {error : SyntaxError}
    (h : (find escaped (text.map Except.ok)).closed = .error error) :
    OpenBody ((if escaped then ['\\'] else []) ++ text) ∧
      find escaped (text.map Except.ok) = ⟨text, .error .unterminatedString, []⟩ := by
  generalize hsource : text.map Except.ok = source at h ⊢
  fun_induction find escaped source generalizing text with
  | case1 escaped =>
      obtain rfl : text = [] := List.map_eq_nil_iff.mp hsource
      cases escaped with
      | false => exact ⟨.body .nil, rfl⟩
      | true => exact ⟨.backslash .nil, rfl⟩
  | case2 escaped failure rest =>
      obtain ⟨c, text, rfl, hc, -⟩ := List.map_eq_cons_iff.mp hsource
      cases hc
  | case3 c rest ih =>
      obtain ⟨d, text, rfl, hd, rfl⟩ := List.map_eq_cons_iff.mp hsource
      cases hd
      obtain ⟨hbody, hfind⟩ := ih text rfl h
      exact ⟨hbody.append ['\\', c] fun _ => .escaped, by rw [hfind, cons]⟩
  | case4 escaped rest hescaped ih =>
      obtain ⟨c, text, rfl, hc, rfl⟩ := List.map_eq_cons_iff.mp hsource
      cases hc
      obtain ⟨hbody, hfind⟩ := ih text rfl h
      exact ⟨by simpa [hescaped] using hbody, by rw [hfind, cons]⟩
  | case5 escaped hescaped => simp at h
  | case6 escaped hescaped failure rest =>
      obtain ⟨c, text, rfl, -, hrest⟩ := List.map_eq_cons_iff.mp hsource
      obtain ⟨d, text, rfl, hd, -⟩ := List.map_eq_cons_iff.mp hrest
      cases hd
  | case7 escaped hescaped rest _ ih =>
      obtain ⟨c, text, rfl, hc, hrest⟩ := List.map_eq_cons_iff.mp hsource
      obtain ⟨d, text, rfl, hd, rfl⟩ := List.map_eq_cons_iff.mp hrest
      cases hc
      cases hd
      obtain ⟨hbody, hfind⟩ := ih text rfl h
      simp only [Bool.false_eq_true, if_false, List.nil_append, hescaped] at hbody ⊢
      exact ⟨hbody.append ['"', '"'] fun _ => .doubled, by rw [hfind]; rfl⟩
  | case8 escaped hescaped d rest hquote => simp at h
  | case9 escaped c rest hescaped hbackslash hquote ih =>
      obtain ⟨d, text, rfl, hd, rfl⟩ := List.map_eq_cons_iff.mp hsource
      cases hd
      obtain ⟨hbody, hfind⟩ := ih text rfl h
      simp only [Bool.false_eq_true, if_false, List.nil_append, hescaped] at hbody ⊢
      exact ⟨hbody.append [c] fun _ => .plain hbackslash hquote, by rw [hfind, cons]⟩

end StringTail

/-- A symbol of a text goes on to the end of the text if it has no second bar. -/
theorem Lexeme.ofBars_of_open {name : List Char} (h : '|' ∉ name) :
    Lexeme.ofBars (name.map Except.ok) = ⟨[], '|' :: name, .error .unterminatedSymbol, []⟩ := by
  have hall : ∀ c ∈ name, (c != '|') = true := fun c hc =>
    bne_iff_ne.mpr (ne_of_mem_of_not_mem hc h)
  have htake : Source.takeChars (· != '|') (name.map Except.ok) = name := by
    rw [← List.append_nil (name.map Except.ok)]
    exact Source.takeChars_append hall rfl
  have hdrop : Source.dropChars (· != '|') (name.map Except.ok) = [] := by
    rw [← List.append_nil (name.map Except.ok)]
    exact Source.dropChars_append hall rfl
  simp [Lexeme.ofBars, htake, hdrop]

/-! ## Lexemes of a text -/

/-- The characters are those of a lexeme, with its token or the reason why there is none, and this
is what follows them in the text. -/
inductive Written : List Char → Except SyntaxError Token → List Char → Prop
  | token {token : Token} {chars more : List Char} :
      token.SpelledAs chars → Token.EndsBefore chars (more.map Except.ok) →
        Written chars (.ok token) more
  | word {c : Char} {word more : List Char} {error : SyntaxError} :
      isWordChar c → (∀ d ∈ word, isWordChar d) → Token.ofWord c word = .error error →
        Source.halts isWordChar (more.map Except.ok) → Written (c :: word) (.error error) more
  | bars {name : List Char} :
      '|' ∉ name → Written ('|' :: name) (.error .unterminatedSymbol) []
  | string {body : List Char} :
      OpenBody body → Written ('"' :: body) (.error .unterminatedString) []

/-- The characters of a class at the beginning of a text, and the rest of the text. -/
theorem Source.exists_dropChars_text (p : Char → Bool) (text : List Char) :
    ∃ more, Source.dropChars p (text.map Except.ok) = more.map Except.ok ∧
      text = Source.takeChars p (text.map Except.ok) ++ more ∧
        Source.halts p (more.map Except.ok) := by
  have hsource := Source.map_takeChars_append_dropChars p (text.map Except.ok)
  obtain ⟨more, htext, hmore⟩ := exists_eq_append_of_map_ok hsource
  refine ⟨more, hmore, htext, ?_⟩
  rw [← hmore]
  refine Source.halts_dropChars fun failure rest hrest => ?_
  rw [hmore] at hrest
  obtain ⟨c, more, -, hc, -⟩ := List.map_eq_cons_iff.mp hrest
  cases hc

namespace Lexeme

/-- The blanks before a lexeme are passed over before it is started. -/
theorem blanks_starting (c : Char) (source : Source) : (Lexeme.starting c source).blanks = [] := by
  have hword (word : List Char) (read : Except SyntaxError Token) (rest : Source) :
      (Lexeme.ofWord word read rest).blanks = [] := by
    unfold ofWord
    split <;> rfl
  have hbars : (Lexeme.ofBars source).blanks = [] := by
    unfold ofBars
    split <;> rfl
  have hquote : (Lexeme.ofQuote source).blanks = [] := by
    unfold ofQuote
    dsimp only
    split <;> rfl
  unfold starting
  dsimp only
  repeat' split
  all_goals first | rfl | exact hquote | exact hbars | exact hword _ _ _

variable {c : Char} {text chars : List Char} {error : SyntaxError} {rest : Source}

theorem written_ofQuote
    (h : Lexeme.ofQuote (text.map Except.ok) = ⟨[], chars, .error error, rest⟩) :
    rest = [] ∧ '"' :: text = chars ∧ Written chars (.error error) [] := by
  unfold ofQuote at h
  cases hclosed : (StringTail.find false (text.map Except.ok)).closed with
  | ok closed => simp [hclosed] at h
  | error found =>
      obtain ⟨hbody, hfind⟩ := StringTail.find_text_error false text hclosed
      simp only [hfind, Lexeme.mk.injEq, true_and, Except.error.injEq] at h
      obtain ⟨rfl, rfl, rfl⟩ := h
      exact ⟨rfl, rfl, .string hbody⟩

theorem written_ofBars
    (h : Lexeme.ofBars (text.map Except.ok) = ⟨[], chars, .error error, rest⟩) :
    rest = [] ∧ '|' :: text = chars ∧ Written chars (.error error) [] := by
  obtain ⟨more, hmore, htext, -⟩ := Source.exists_dropChars_text (· != '|') text
  unfold ofBars at h
  cases more with
  | nil =>
      have hname : '|' ∉ text := by
        rw [htext, List.append_nil]
        exact fun hbar => by simpa using Source.of_mem_takeChars hbar
      simp only [hmore, List.map_nil, Lexeme.mk.injEq, true_and, Except.error.injEq] at h
      rw [List.append_nil] at htext
      obtain ⟨rfl, rfl, rfl⟩ := h
      rw [← htext]
      exact ⟨rfl, rfl, .bars hname⟩
  | cons d more => simp [hmore] at h

theorem written_word (hc : isWordChar c)
    (h : Lexeme.starting c (text.map Except.ok) = ⟨[], chars, .error error, rest⟩) :
    ∃ more, rest = more.map Except.ok ∧ c :: text = chars ++ more ∧
      Written chars (.error error) more := by
  obtain ⟨more, hmore, htext, hhalts⟩ := Source.exists_dropChars_text isWordChar text
  rw [starting_eq_ofWord hc, hmore, ofWord_of_halts hhalts] at h
  simp only [Lexeme.mk.injEq, true_and] at h
  obtain ⟨rfl, hread, rfl⟩ := h
  refine ⟨more, rfl, ?_, .word hc (fun d => Source.of_mem_takeChars) hread hhalts⟩
  rw [List.cons_append, ← htext]

/-- What starts with a character that is no blank and no semicolon is written in the text. -/
theorem exists_written (hblank : isBlank c = false) (hcomment : c ≠ ';') (text : List Char) :
    ∃ chars read more, Lexeme.starting c (text.map Except.ok) =
        ⟨[], chars, read, more.map Except.ok⟩ ∧
      c :: text = chars ++ more ∧ Written chars read more := by
  cases hlexeme : Lexeme.starting c (text.map Except.ok) with
  | mk blanks chars read rest =>
    cases read with
    | ok token =>
        have htakes : (Lexeme.starting c (text.map Except.ok)).Takes token
            (.ok c :: text.map Except.ok) := takes_starting hblank hcomment (by rw [hlexeme])
        rw [hlexeme] at htakes
        have hsource : chars.map Except.ok ++ rest = (c :: text).map Except.ok :=
          htakes.source_eq.symm
        obtain ⟨more, htext, rfl⟩ := exists_eq_append_of_map_ok hsource
        obtain rfl : blanks = [] := htakes.blanks_eq
        exact ⟨chars, .ok token, more, rfl, htext, .token htakes.spelled htakes.ends⟩
    | error error =>
        have hblanks := blanks_starting c (text.map Except.ok)
        rw [hlexeme] at hblanks
        subst hblanks
        rcases eq_or_isWordChar hblank hcomment with rfl | rfl | rfl | rfl | hword
        · simp [starting] at hlexeme
        · simp [starting] at hlexeme
        · obtain ⟨rfl, htext, hwritten⟩ := written_ofQuote hlexeme
          exact ⟨chars, .error error, [], rfl, by simpa using htext, hwritten⟩
        · obtain ⟨rfl, htext, hwritten⟩ := written_ofBars hlexeme
          exact ⟨chars, .error error, [], rfl, by simpa using htext, hwritten⟩
        · obtain ⟨more, rfl, htext, hwritten⟩ := written_word hword hlexeme
          exact ⟨chars, .error error, more, rfl, htext, hwritten⟩

end Lexeme

namespace Written

variable {chars more : List Char} {read : Except SyntaxError Token}

/-- What is written in a text is read, from its first character on. -/
theorem readsAs (h : Written chars read more) :
    ∃ c word, chars = c :: word ∧ isBlank c = false ∧ c ≠ ';' ∧
      Lexeme.starting c (word.map Except.ok ++ more.map Except.ok) =
        ⟨[], chars, read, more.map Except.ok⟩ := by
  cases h with
  | token hspelled hends => exact hspelled.readsAs hends
  | @word c word _ error hc hword hread hhalts =>
      obtain ⟨hblank, hcomment⟩ := not_blank_of_isWordChar hc
      exact ⟨c, word, rfl, hblank, hcomment, by rw [Lexeme.starting_word hc hword hhalts, hread]⟩
  | @bars name hname =>
      refine ⟨'|', name, rfl, by decide, by decide, ?_⟩
      simp [Lexeme.starting, Lexeme.ofBars_of_open hname]
  | @string body hbody =>
      refine ⟨'"', body, rfl, by decide, by decide, ?_⟩
      simp [Lexeme.starting, Lexeme.ofQuote, StringTail.find_of_openBody hbody]

theorem ne_nil (h : Written chars read more) : chars ≠ [] := by
  obtain ⟨c, word, rfl, -⟩ := h.readsAs
  exact List.cons_ne_nil c word

/-- The text may be cut anywhere after the lexeme. -/
theorem truncate {after : List Char} (h : Written chars read (more ++ after)) :
    Written chars read more := by
  have hhead (c : Char) (rest : List Char) :
      ((c :: rest ++ after).map Except.ok : Source).head? =
        ((c :: rest).map Except.ok : Source).head? := rfl
  generalize hall : more ++ after = all at h
  cases h with
  | token hspelled hends =>
      refine .token hspelled ?_
      cases more with
      | nil => exact Token.endsBefore_of_stops rfl chars
      | cons c more => exact hends.congr (hall ▸ hhead c more)
  | word hc hword hread hhalts =>
      refine .word hc hword hread ?_
      cases more with
      | nil => rfl
      | cons c more => exact Source.halts_congr (hall ▸ hhead c more) ▸ hhalts
  | bars hname =>
      obtain ⟨rfl, -⟩ := List.append_eq_nil_iff.mp hall
      exact .bars hname
  | string hbody =>
      obtain ⟨rfl, -⟩ := List.append_eq_nil_iff.mp hall
      exact .string hbody

end Written

/-- **What the lexemes of a text are**: each is written after a gap. -/
theorem nextLexeme_text_iff {text blanks chars : List Char} {read : Except SyntaxError Token}
    {rest : Source} :
    nextLexeme (text.map Except.ok) = some ⟨blanks, chars, read, rest⟩ ↔
      ∃ more, rest = more.map Except.ok ∧ text = blanks ++ (chars ++ more) ∧ Gap blanks ∧
        Written chars read more := by
  constructor
  · intro h
    unfold nextLexeme at h
    have hsource := Source.map_splitBlanks_append false (text.map Except.ok)
    dsimp only at h
    obtain ⟨more, htext, hmore⟩ := exists_eq_append_of_map_ok hsource
    cases more with
    | nil => simp [hmore] at h
    | cons c more =>
        have hgap : Gap (Source.splitBlanks false (text.map Except.ok)).1 :=
          Source.gap_splitBlanks hmore
        obtain ⟨hblank, hcomment⟩ := Source.head_splitBlanks hmore
        obtain ⟨found, read', after, hstarting, hchars, hwritten⟩ :=
          Lexeme.exists_written hblank hcomment more
        simp only [hmore, List.map_cons, hstarting, Option.some.injEq, Lexeme.mk.injEq] at h
        obtain ⟨rfl, rfl, rfl, rfl⟩ := h
        exact ⟨after, rfl, by rw [← hchars, ← htext], hgap, hwritten⟩
  · rintro ⟨more, rfl, rfl, hgap, hwritten⟩
    obtain ⟨c, word, rfl, hblank, hcomment, hstart⟩ := hwritten.readsAs
    rw [List.map_append, List.map_append, hgap.nextLexeme]
    simp [nextLexeme, Source.splitBlanks, hblank, hcomment, hstart]

end SmtSession
