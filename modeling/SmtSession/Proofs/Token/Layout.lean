import SmtSession.Proofs.Token.Spelling

/-!
# Layouts of a token list

Between tokens a text may have any gap of blanks and comments, and none at all
next to a parenthesis.  `Laid` relates a token list to the texts that are
written in this way, and `map_token_lexemes` says that the reader gets the same
tokens back from each of them.

The induction goes along the layout.  What has to be known at a token is that
the source stops after it (`Laid.stops`): the first character of the gap, or of
the parenthesis without a gap, is none that a word or a string goes on with.
-/

namespace SmtSession

open Text (isBlank)

/-! ## Gaps -/

/-- Blanks and comments.  Every comment is closed by the end of its line. -/
inductive Gap : List Char → Prop where
  | nil : Gap []
  | blank {c : Char} {gap : List Char} : isBlank c → Gap gap → Gap (c :: gap)
  | comment {text gap : List Char} :
      '\n' ∉ text → Gap gap → Gap (';' :: text ++ '\n' :: gap)

/-- A comment is passed over up to the end of its line. -/
theorem Source.splitBlanks_comment {text : List Char} (h : '\n' ∉ text) (rest : Source) :
    (text.map Except.ok ++ .ok '\n' :: rest : Source).splitBlanks true =
      (text ++ '\n' :: (rest.splitBlanks false).1, (rest.splitBlanks false).2) := by
  induction text with
  | nil => simp [splitBlanks]
  | cons c text ih =>
      rw [List.mem_cons, not_or] at h
      have hc : (c != '\n') = true := bne_iff_ne.mpr (Ne.symm h.1)
      simp [splitBlanks, hc, ih h.2]

theorem Gap.splitBlanks {gap : List Char} (h : Gap gap) (rest : Source) :
    (gap.map Except.ok ++ rest : Source).splitBlanks false =
      (gap ++ (rest.splitBlanks false).1, (rest.splitBlanks false).2) := by
  induction h with
  | nil => rfl
  | @blank c gap hc _ ih =>
      simp [Source.splitBlanks, hc, ne_of_isBlank hc, ih]
  | @comment text gap htext _ ih =>
      have hskip := Source.splitBlanks_comment htext (gap.map Except.ok ++ rest)
      simp [Source.splitBlanks, hskip, ih]

theorem Gap.append {gap more : List Char} (h : Gap gap) (hmore : Gap more) : Gap (gap ++ more) := by
  induction h with
  | nil => exact hmore
  | blank hblank _ ih => exact .blank hblank ih
  | comment htext _ ih =>
      rw [List.append_assoc]
      exact .comment htext ih

/-- Gaps come before the next lexeme and leave it as it is. -/
theorem Gap.nextLexeme {gap : List Char} (h : Gap gap) (rest : Source) :
    nextLexeme (gap.map Except.ok ++ rest) =
      (SmtSession.nextLexeme rest).map fun lexeme =>
        { lexeme with blanks := gap ++ lexeme.blanks } := by
  unfold SmtSession.nextLexeme
  simp only [h.splitBlanks]
  split <;> rfl

theorem Gap.nextLexeme_eq_none {gap : List Char} (h : Gap gap) :
    SmtSession.nextLexeme (gap.map Except.ok) = none := by
  simpa [SmtSession.nextLexeme, Source.splitBlanks] using h.nextLexeme []

/-- Neither a word nor a string goes on with a gap. -/
theorem Gap.stops {gap : List Char} (h : Gap gap) (hne : gap ≠ []) (rest : Source) :
    Source.stops (gap.map Except.ok ++ rest) := by
  cases h with
  | nil => exact absurd rfl hne
  | @blank c gap hc _ =>
      simp [Source.stops, isWordChar, hc, ne_of_isBlank hc]
  | comment _ _ => rfl

/-- A token that ends before a source also ends before a gap in front of it. -/
theorem Gap.endsBefore {gap chars : List Char} {rest : Source} (h : Gap gap)
    (hrest : Token.EndsBefore chars rest) :
    Token.EndsBefore chars (gap.map Except.ok ++ rest) := by
  by_cases hne : gap = []
  · rwa [hne]
  · exact Token.endsBefore_of_stops (h.stops hne rest) chars

/-! ## Layouts -/

/-- The texts that a token list can be written as.  If the token before is no parenthesis, as
`apart` says, a gap is needed before the next one, unless this is a parenthesis. -/
inductive Laid : (apart : Bool) → List Token → List Char → Prop where
  | nil {apart : Bool} {gap : List Char} : Gap gap → Laid apart [] gap
  | cons {apart : Bool} {gap text : List Char} {token : Token} {tokens : List Token} :
      Gap gap → (apart → token.isParen = false → gap ≠ []) → Laid (!token.isParen) tokens text →
        Laid apart (token :: tokens) (gap ++ token.spelling ++ text)

/-! ## Building layouts -/

namespace Laid

variable {apart : Bool} {token : Token} {tokens : List Token} {gap text : List Char}

/-- A layout after a word is a layout after a parenthesis. -/
theorem loosen (h : Laid true tokens text) : Laid apart tokens text := by
  cases h with
  | nil hgap => exact .nil hgap
  | cons hgap hapart hlaid => exact .cons hgap (fun _ => hapart rfl) hlaid

/-- A parenthesis needs no gap before it. -/
theorem tighten (hparen : token.isParen) (h : Laid false (token :: tokens) text) :
    Laid true (token :: tokens) text := by
  cases h with
  | cons hgap _ hlaid => exact .cons hgap (fun _ hword => by simp [hparen] at hword) hlaid

/-- A layout with more room before it is a layout, also after a word if there is room now. -/
theorem prepend {before : Bool} (hgap : Gap gap) (h : Laid before tokens text)
    (hroom : before = false → apart → gap ≠ []) : Laid apart tokens (gap ++ text) := by
  cases h with
  | nil hmore => exact .nil (hgap.append hmore)
  | @cons _ more _ token _ hmore hbefore hlaid =>
      have hne : apart → token.isParen = false → gap ++ more ≠ [] := by
        intro hapart hword
        cases before with
        | false => simp [hroom rfl hapart]
        | true => simp [hbefore rfl hword]
      rw [List.append_assoc, ← List.append_assoc gap, ← List.append_assoc]
      exact .cons (hgap.append hmore) hne hlaid

theorem append {more : List Token} {after : List Char} (h : Laid apart tokens text)
    (hmore : Laid true more after) : Laid apart (tokens ++ more) (text ++ after) := by
  induction h with
  | nil hgap => exact hmore.prepend hgap (by simp)
  | cons hgap hapart _ ih =>
      rw [List.append_assoc]
      exact .cons hgap hapart ih

theorem opening (h : Laid false tokens text) : Laid false (.opening :: tokens) ('(' :: text) :=
  .cons .nil (by simp) h

theorem closing (h : Laid false tokens text) : Laid apart (.closing :: tokens) (')' :: text) :=
  .cons .nil (fun _ hword => by simp [Token.isParen] at hword) h

theorem word (token : Token) (hword : token.isParen = false) (h : Laid true tokens text) :
    Laid false (token :: tokens) (token.spelling ++ text) :=
  .cons .nil (by simp) (by rwa [hword])

end Laid

theorem Laid.stops {tokens : List Token} {text : List Char} (h : Laid true tokens text) :
    Source.stops (text.map Except.ok) := by
  cases h with
  | nil hgap =>
      by_cases hne : text = []
      · simp [hne, Source.stops]
      · simpa using hgap.stops hne []
  | @cons _ gap text token tokens hgap hapart _ =>
      by_cases hne : gap = []
      · -- without a gap the next token is a parenthesis
        cases token with
        | opening => simp [hne, Token.spelling, Source.stops, isWordChar, isSeparator]
        | closing => simp [hne, Token.spelling, Source.stops, isWordChar, isSeparator]
        | ident name => exact absurd hne (hapart rfl rfl)
        | keyword name => exact absurd hne (hapart rfl rfl)
        | constant value => exact absurd hne (hapart rfl rfl)
      · simpa using hgap.stops hne _

/-! ## Reading layouts -/

theorem lexemes_eq (source : Source) :
    lexemes source =
      match nextLexeme source with
      | none => []
      | some lexeme => lexeme :: lexemes lexeme.rest := by
  rw [lexemes]
  split <;> simp_all

/-- **The reader gets back the tokens of every layout.** -/
theorem map_token_lexemes {apart : Bool} {tokens : List Token} {text : List Char}
    (h : Laid apart tokens text) (hlexical : ∀ token ∈ tokens, token.isLexical) :
    (lexemes (text.map Except.ok)).map Lexeme.token = tokens.map Except.ok := by
  induction h with
  | @nil _ gap hgap =>
      rw [lexemes_eq, hgap.nextLexeme_eq_none]
      rfl
  | @cons _ gap text token tokens hgap _ hlaid ih =>
      -- whatever is laid out after a word stops it
      have hnext : token.isParen = true ∨ Source.stops (text.map Except.ok) := by
        cases hparen : token.isParen with
        | true => exact .inl rfl
        | false => exact .inr (Laid.stops (by simpa [hparen] using hlaid))
      obtain ⟨c, chars, hspelling, hblank, hcomment, hstart⟩ :=
        Token.readsAs_spelling (hlexical token (by simp)) hnext
      have hsome : nextLexeme ((gap ++ token.spelling ++ text).map Except.ok) =
          some ⟨gap, token.spelling, .ok token, text.map Except.ok⟩ := by
        rw [List.append_assoc, List.map_append, hgap.nextLexeme, hspelling]
        simp [nextLexeme, Source.splitBlanks, hblank, hcomment, hstart, hspelling]
      rw [lexemes_eq, hsome]
      simp [ih fun token htoken => hlexical token (by simp [htoken])]

/-! ## Items -/

/-- The token or error of an item, without its place. -/
def Item.token : Item → Except SyntaxError Token
  | .ok token => .ok token.value
  | .error error => .error error.value

@[simp] theorem Lexeme.token_item (lexeme : Lexeme) (span : Span) :
    (lexeme.item span).token = lexeme.token := by
  unfold item
  split <;> simp_all [Item.token]

/-- Giving lexemes their places does not change what they are. -/
theorem map_token_place (cursor : Cursor) (lexemes : List Lexeme) :
    (place cursor lexemes).map Item.token = lexemes.map Lexeme.token := by
  induction lexemes generalizing cursor with
  | nil => rfl
  | cons lexeme rest ih => simp [place, ih]

/-- The items of a laid out text are its tokens, at some places. -/
theorem map_token_itemsOfText {apart : Bool} {tokens : List Token} {text : String}
    (h : Laid apart tokens text.toList) (hlexical : ∀ token ∈ tokens, token.isLexical) :
    (itemsOfText text).map Item.token = tokens.map Except.ok := by
  rw [itemsOfText, items, map_token_place]
  exact map_token_lexemes h hlexical

end SmtSession
