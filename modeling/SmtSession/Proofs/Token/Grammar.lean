import SmtSession.Proofs.Token.Layout

/-!
# What the reader takes for a token

The converse of reading what is spelled: a token that is read was spelled, with
blanks and comments before it, and it ends where the rest begins.  Together the
two directions say what a lexeme is (`nextLexeme_eq_some_iff`) without speaking
of how the reader finds it, and `Spelled` says the same of a whole source.

A token that has a spelling is lexically valid, so the reader produces no other
(`Token.SpelledAs.isLexical`).
-/

namespace SmtSession

open Text (isBlank)

/-! ## Runs of characters -/

namespace Source

variable {p : Char → Bool} {source : Source}

theorem map_takeChars_append_dropChars (p : Char → Bool) (source : Source) :
    (source.takeChars p).map Except.ok ++ source.dropChars p = source := by
  induction source with
  | nil => rfl
  | cons item rest ih =>
      cases item with
      | error failure => rfl
      | ok c =>
          cases hc : p c with
          | false => simp [takeChars, dropChars, matching, hc]
          | true => simpa [takeChars, dropChars, matching, hc, Except.toOption] using ih

theorem of_mem_takeChars {c : Char} (h : c ∈ source.takeChars p) : p c := by
  obtain ⟨item, hitem, hc⟩ := List.mem_filterMap.mp h
  have hmatching := List.mem_takeWhile_imp hitem
  cases item with
  | error failure => simp [Except.toOption] at hc
  | ok d =>
      cases hc
      exact hmatching

/-- What is left halts, unless there is a failure. -/
theorem halts_dropChars (h : ∀ failure more, source.dropChars p ≠ .error failure :: more) :
    (source.dropChars p).halts p := by
  cases hdrop : source.dropChars p with
  | nil => rfl
  | cons item more =>
      cases item with
      | error failure => exact absurd hdrop (h failure more)
      | ok c =>
          have hhead := List.head_dropWhile_not (p := matching p) (l := source)
            (by rw [show source.dropWhile (matching p) = _ from hdrop]; simp)
          simp only [show source.dropWhile (matching p) = _ from hdrop, List.head_cons] at hhead
          simpa [halts, matching] using hhead

end Source

/-- A word that is read as a token has been taken with what follows it left alone. -/
theorem Lexeme.ofWord_ok {word : List Char} {read : Except SyntaxError Token} {rest : Source}
    {token : Token} (h : (Lexeme.ofWord word read rest).token = .ok token) :
    Lexeme.ofWord word read rest = ⟨[], word, .ok token, rest⟩ ∧ read = .ok token ∧
      ∀ failure more, rest ≠ .error failure :: more := by
  unfold ofWord at h ⊢
  split at h
  · simp at h
  · next hfailure =>
      have hread : read = .ok token := h
      exact ⟨by rw [hread], hread, hfailure⟩

/-- The body of a string that is closed, and what stands around it. -/
theorem StringTail.find_ok (escaped : Bool) (source : Source)
    (h : (StringTail.find escaped source).closed = .ok ()) :
    StringBody ((if escaped then ['\\'] else []) ++ (StringTail.find escaped source).body) ∧
      source = (StringTail.find escaped source).body.map Except.ok ++
        .ok '"' :: (StringTail.find escaped source).rest ∧
      (StringTail.find escaped source).rest.halts (· == '"') := by
  fun_induction StringTail.find escaped source with
  | case1 escaped => simp at h
  | case2 escaped failure rest => simp at h
  | case3 rest c ih =>
      obtain ⟨hbody, hsource, hhalts⟩ := ih h
      exact ⟨.escaped hbody, by simpa [cons] using hsource, hhalts⟩
  | case4 escaped rest hescaped ih =>
      obtain ⟨hbody, hsource, hhalts⟩ := ih h
      exact ⟨by simpa [hescaped, cons] using hbody, by simpa [cons] using hsource, hhalts⟩
  | case5 escaped hescaped => exact ⟨by simpa [hescaped] using .nil, rfl, rfl⟩
  | case6 escaped hescaped failure rest => simp at h
  | case7 escaped hescaped rest _ ih =>
      obtain ⟨hbody, hsource, hhalts⟩ := ih h
      exact ⟨by simpa [hescaped, cons] using hbody.doubled, by simpa [cons] using hsource, hhalts⟩
  | case8 escaped hescaped d rest hquote =>
      exact ⟨by simpa [hescaped] using .nil, rfl, by simpa [Source.halts] using hquote⟩
  | case9 escaped rest c hescaped hbackslash hquote ih =>
      obtain ⟨hbody, hsource, hhalts⟩ := ih h
      exact ⟨by simpa [hescaped, cons] using hbody.plain hbackslash hquote,
        by simpa [cons] using hsource, hhalts⟩

/-! ## Tokens -/

/-- The lexeme takes the token from the source: its characters spell it, and the rest begins where
the token ends. -/
structure Lexeme.Takes (lexeme : Lexeme) (token : Token) (source : Source) : Prop where
  blanks_eq : lexeme.blanks = []
  token_eq : lexeme.token = .ok token
  spelled : token.SpelledAs lexeme.chars
  source_eq : source = lexeme.chars.map Except.ok ++ lexeme.rest
  ends : Token.EndsBefore lexeme.chars lexeme.rest

namespace Lexeme

variable {c : Char} {source : Source} {token : Token}

theorem takes_ofQuote (h : (Lexeme.ofQuote source).token = .ok token) :
    (Lexeme.ofQuote source).Takes token (.ok '"' :: source) := by
  unfold ofQuote at h ⊢
  cases hclosed : (StringTail.find false source).closed with
  | error error => simp [hclosed] at h
  | ok closed =>
      obtain ⟨hbody, hsource, hhalts⟩ := StringTail.find_ok false source hclosed
      simp only [hclosed, Except.ok.injEq] at h ⊢
      subst h
      exact ⟨rfl, rfl, .string hbody, by simpa using hsource, hhalts⟩

theorem takes_ofBars (h : (Lexeme.ofBars source).token = .ok token) :
    (Lexeme.ofBars source).Takes token (.ok '|' :: source) := by
  unfold ofBars at h ⊢
  have hsource := source.map_takeChars_append_dropChars (· != '|')
  cases hdrop : source.dropChars (· != '|') with
  | nil => simp [hdrop] at h
  | cons item rest =>
      cases item with
      | error failure => simp [hdrop] at h
      | ok d =>
          have hhalts : (source.dropChars (· != '|')).halts (· != '|') :=
            Source.halts_dropChars (by simp [hdrop])
          have hd : d = '|' := by simpa [hdrop, Source.halts] using hhalts
          simp only [hdrop, Except.ok.injEq] at h ⊢
          subst h hd
          have hname : '|' ∉ source.takeChars (· != '|') := fun hbar => by
            simpa using Source.of_mem_takeChars hbar
          exact ⟨rfl, rfl, .bars hname, by simpa [hdrop] using hsource.symm, trivial⟩

theorem takes_word (hc : isWordChar c) (h : (Lexeme.starting c source).token = .ok token) :
    (Lexeme.starting c source).Takes token (.ok c :: source) := by
  rw [starting_eq_ofWord hc] at h ⊢
  obtain ⟨hlexeme, hread, hfailure⟩ := ofWord_ok h
  rw [hlexeme]
  refine ⟨rfl, rfl, .word hc (fun d => Source.of_mem_takeChars) hread, ?_, ?_⟩
  · simp [source.map_takeChars_append_dropChars]
  · rw [Token.endsBefore_word hc]
    exact Source.halts_dropChars hfailure

/-- A token that is read was spelled, from a character on that is no blank and no semicolon. -/
theorem takes_starting (hblank : isBlank c = false) (hcomment : c ≠ ';')
    (h : (Lexeme.starting c source).token = .ok token) :
    (Lexeme.starting c source).Takes token (.ok c :: source) := by
  rcases eq_or_isWordChar hblank hcomment with rfl | rfl | rfl | rfl | hword
  · cases h
    exact ⟨rfl, rfl, .opening, rfl, trivial⟩
  · cases h
    exact ⟨rfl, rfl, .closing, rfl, trivial⟩
  · exact takes_ofQuote h
  · exact takes_ofBars h
  · exact takes_word hword h

end Lexeme

/-! ## Gaps -/

theorem Source.map_splitBlanks_append (comment : Bool) (source : Source) :
    (source.splitBlanks comment).1.map Except.ok ++ (source.splitBlanks comment).2 = source := by
  induction source generalizing comment with
  | nil => rfl
  | cons item rest ih =>
      cases item with
      | error failure => rfl
      | ok c =>
          rw [splitBlanks]
          split
          · simpa using ih _
          · split
            · simpa using ih _
            · rfl

/-- A comment that goes on after its first character. -/
theorem Gap.comment_cons {c : Char} {gap : List Char} (hc : c ≠ '\n') (h : Gap (';' :: gap)) :
    Gap (';' :: c :: gap) := by
  cases h with
  | blank hblank _ => exact absurd hblank (by decide)
  | @comment text gap htext hgap =>
      have hline : '\n' ∉ c :: text := by
        rw [List.mem_cons, not_or]
        exact ⟨hc.symm, htext⟩
      exact .comment hline hgap

/-- Where a character comes after blanks and comments, all the comments are closed. -/
theorem Source.gap_splitBlanks {comment : Bool} {source rest : Source} {c : Char}
    (h : (source.splitBlanks comment).2 = .ok c :: rest) :
    Gap (if comment then ';' :: (source.splitBlanks comment).1
      else (source.splitBlanks comment).1) := by
  induction source generalizing comment with
  | nil => simp [splitBlanks] at h
  | cons item more ih =>
      cases item with
      | error failure => simp [splitBlanks] at h
      | ok d =>
          cases comment with
          | true =>
              -- the comment goes on, unless this is the end of its line
              have htail : (splitBlanks (d != '\n') more).2 = .ok c :: rest := h
              have hgap := ih htail
              by_cases hline : d = '\n'
              · subst hline
                exact .comment (List.not_mem_nil : '\n' ∉ []) hgap
              · simp only [bne_iff_ne, ne_eq, hline, not_false_eq_true, if_true] at hgap
                simpa [splitBlanks, hline] using hgap.comment_cons hline
          | false =>
              by_cases hblanks : d = ';' ∨ isBlank d
              · have htail : (splitBlanks (d = ';') more).2 = .ok c :: rest := by
                  simpa [splitBlanks, hblanks] using h
                have hgap := ih htail
                by_cases hcomment : d = ';'
                · subst hcomment
                  simpa [splitBlanks] using hgap
                · have hblank : isBlank d := hblanks.resolve_left hcomment
                  simp only [hcomment, decide_false, Bool.false_eq_true, if_false] at hgap
                  simpa [splitBlanks, hcomment, hblank] using hgap.blank hblank
              · simpa [splitBlanks, hblanks] using .nil

/-! ## Lexemes -/

/-- **What a lexeme is**: a gap, a spelling of its token, and a rest before which the token ends. -/
theorem nextLexeme_eq_some_iff {source rest : Source} {blanks chars : List Char} {token : Token} :
    nextLexeme source = some ⟨blanks, chars, .ok token, rest⟩ ↔
      source = blanks.map Except.ok ++ (chars.map Except.ok ++ rest) ∧ Gap blanks ∧
        token.SpelledAs chars ∧ Token.EndsBefore chars rest := by
  constructor
  · intro h
    unfold nextLexeme at h
    have hsource := source.map_splitBlanks_append false
    dsimp only at h
    split at h
    · simp at h
    · simp at h
    · next c more hrest =>
        have hgap : Gap (source.splitBlanks false).1 := Source.gap_splitBlanks hrest
        obtain ⟨hblank, hcomment⟩ := Source.head_splitBlanks hrest
        simp only [Option.some.injEq, Lexeme.mk.injEq] at h
        obtain ⟨rfl, rfl, htoken, rfl⟩ := h
        have htakes := Lexeme.takes_starting hblank hcomment htoken
        rw [hrest, htakes.source_eq] at hsource
        exact ⟨hsource.symm, hgap, htakes.spelled, htakes.ends⟩
  · rintro ⟨rfl, hgap, hspelled, hends⟩
    obtain ⟨c, word, rfl, hblank, hcomment, hstart⟩ := hspelled.readsAs hends
    rw [hgap.nextLexeme]
    simp [nextLexeme, Source.splitBlanks, hblank, hcomment, hstart]

/-- The tokens of a text that begins with a gap and the spelling of a token. -/
theorem map_token_lexemes_cons {gap chars rest : List Char} {token : Token} (hgap : Gap gap)
    (hspelled : token.SpelledAs chars) (hends : Token.EndsBefore chars (rest.map Except.ok)) :
    (lexemes ((gap ++ (chars ++ rest)).map Except.ok)).map Lexeme.token =
      .ok token :: (lexemes (rest.map Except.ok)).map Lexeme.token := by
  have hnext : nextLexeme ((gap ++ (chars ++ rest)).map Except.ok) =
      some ⟨gap, chars, .ok token, rest.map Except.ok⟩ :=
    nextLexeme_eq_some_iff.mpr ⟨by simp, hgap, hspelled, hends⟩
  rw [lexemes_eq, hnext]
  rfl

/-! ## Sources of tokens -/

/-- The source spells the tokens one after the other, and blanks and comments apart it spells
nothing else. -/
inductive Spelled : List Token → Source → Prop
  | nil {source : Source} : nextLexeme source = none → Spelled [] source
  | cons {gap chars : List Char} {token : Token} {tokens : List Token} {rest : Source} :
      Gap gap → token.SpelledAs chars → Token.EndsBefore chars rest → Spelled tokens rest →
        Spelled (token :: tokens) (gap.map Except.ok ++ (chars.map Except.ok ++ rest))

theorem map_token_of_spelled {tokens : List Token} {source : Source} (h : Spelled tokens source) :
    (lexemes source).map Lexeme.token = tokens.map Except.ok := by
  induction h with
  | nil hnone =>
      rw [lexemes_eq, hnone]
      rfl
  | cons hgap hspelled hends _ ih =>
      rw [lexemes_eq, nextLexeme_eq_some_iff.mpr ⟨rfl, hgap, hspelled, hends⟩]
      simp [ih]

theorem spelled_of_map_token {tokens : List Token} {source : Source}
    (h : (lexemes source).map Lexeme.token = tokens.map Except.ok) : Spelled tokens source := by
  induction tokens generalizing source with
  | nil =>
      rw [lexemes_eq] at h
      split at h
      · next hnone => exact .nil hnone
      · simp at h
  | cons token tokens ih =>
      rw [lexemes_eq] at h
      split at h
      · simp at h
      · next lexeme hlexeme =>
          obtain ⟨blanks, chars, read, rest⟩ := lexeme
          obtain ⟨rfl, hrest⟩ := List.cons_eq_cons.mp h
          obtain ⟨rfl, hgap, hspelled, hends⟩ := nextLexeme_eq_some_iff.mp hlexeme
          exact .cons hgap hspelled hends (ih hrest)

/-- **The reader reads the tokens that the source spells.** -/
theorem map_token_lexemes_iff {tokens : List Token} {source : Source} :
    (lexemes source).map Lexeme.token = tokens.map Except.ok ↔ Spelled tokens source :=
  ⟨spelled_of_map_token, map_token_of_spelled⟩

/-! ## Lexical validity of what is read -/

namespace Token

variable {token : Token}

theorem exists_constant_of_ofRadix {word : List Char} (h : ofRadix word = .ok token) :
    ∃ value, token = .constant value ∧ value.isLexical := by
  unfold ofRadix at h
  split at h
  · split at h
    · next hdigits =>
        cases h
        exact ⟨_, rfl, by simpa [Constant.isLexical] using hdigits⟩
    · simp at h
  · split at h
    · next hdigits =>
        cases h
        exact ⟨_, rfl, by simpa [Constant.isLexical] using hdigits⟩
    · simp at h
  · simp at h

theorem exists_constant_of_ofNumber {word : List Char} (h : ofNumber word = .ok token) :
    ∃ value, token = .constant value ∧ value.isLexical := by
  unfold ofNumber at h
  dsimp only at h
  split at h
  · split at h
    · cases h
      exact ⟨_, rfl, rfl⟩
    · simp at h
  · next point fraction hfraction =>
      split at h
      · next hdigits =>
          cases h
          exact ⟨_, rfl, by simpa [Constant.isLexical, isDecimal, hfraction] using hdigits⟩
      · simp at h

/-- A word is a keyword, a constant, or a symbol of this name. -/
theorem ofWord_cases {c : Char} {word : List Char} (h : ofWord c word = .ok token) :
    token = .keyword (String.ofList word) ∨ (∃ value, token = .constant value ∧ value.isLexical) ∨
      token = .ident (String.ofList (c :: word)) := by
  unfold ofWord at h
  split at h
  · exact .inr (.inl (exists_constant_of_ofRadix h))
  · split at h
    · cases h
      exact .inl rfl
    · split at h
      · exact .inr (.inl (exists_constant_of_ofNumber h))
      · cases h
        exact .inr (.inr rfl)

theorem isLexical_of_ofWord {c : Char} {word : List Char} (hc : isWordChar c)
    (hword : ∀ d ∈ word, isWordChar d) (h : ofWord c word = .ok token) : token.isLexical := by
  obtain rfl | ⟨value, rfl, hvalue⟩ | rfl := ofWord_cases h
  · simpa [isLexical, Keyword.isLexical] using hword
  · exact hvalue
  · -- no character of a word is a bar
    have hbar : ∀ d, isWordChar d → d ≠ '|' := by
      rintro d hd rfl
      revert hd
      decide
    simp only [isLexical, Symbol.isLexical, String.toList_ofList, Bool.not_eq_true',
      List.contains_eq_mem, decide_eq_false_iff_not, List.mem_cons, not_or]
    exact ⟨(hbar c hc).symm, fun hmem => hbar _ (hword _ hmem) rfl⟩

/-- **What can be spelled is lexically valid.** -/
theorem SpelledAs.isLexical {chars : List Char} (h : token.SpelledAs chars) :
    token.isLexical := by
  cases h with
  | opening => rfl
  | closing => rfl
  | word hc hword hread => exact isLexical_of_ofWord hc hword hread
  | bars hname => simpa [Token.isLexical, Symbol.isLexical] using hname
  | string _ => rfl

end Token

theorem Spelled.isLexical {tokens : List Token} {source : Source} (h : Spelled tokens source) :
    ∀ token ∈ tokens, token.isLexical := by
  induction h with
  | nil _ => simp
  | cons _ hspelled _ _ ih => exact List.forall_mem_cons.mpr ⟨hspelled.isLexical, ih⟩

end SmtSession
