import SmtSession.Proofs.Command.Encoding
import SmtSession.Proofs.Command.Text
import SmtSession.Proofs.SExpr.RoundTrip

/-!
# What a command is read as

A keyword may have any name, and it is written as it is.  What a reader takes
for the keyword is the word that the name begins with (`Keyword.word`), and the
rest of the name is read as whatever it looks like.  Only a keyword that is one
word is read as itself.

The name of a command is always one word.  So a text that is read as a list is
the text of the command that the list is headed by (`Command.name_of_readFrom`),
and a keyword at its second place is the word of the keyword that this command
is given (`Command.word_of_readFrom`).
-/

namespace SmtSession

/-! ## Keywords as words -/

/-- The keyword that is read where the given one is written. -/
def Keyword.word (key : Keyword) : Keyword :=
  ⟨String.ofList (key.name.toList.takeWhile isWordChar)⟩

theorem Keyword.word_of_isLexical {key : Keyword} (h : key.isLexical) : key.word = key := by
  have hall : key.name.toList.takeWhile isWordChar = key.name.toList :=
    List.takeWhile_eq_self_iff.mpr (List.all_eq_true.mp h)
  rw [word, hall, String.ofList_toList]

/-! ## Lexemes of a text -/

/-- The first two tokens of a text that is a parenthesis, a simple name and a delimiter. -/
theorem map_token_lexemes_named {name : String} (hname : (Symbol.mk name).isSimple) {c : Char}
    (hc : c = ' ' ∨ c = ')') (more : List Char) :
    (lexemes (('(' :: (name.toList ++ c :: more)).map Except.ok)).map Lexeme.token =
      .ok .opening :: .ok (.ident name) ::
        (lexemes ((c :: more).map Except.ok)).map Lexeme.token := by
  have hspelled : (Token.ident name).SpelledAs name.toList := by
    have hword := (Token.isWord_ident hname).spelledAs
    rwa [Token.spelling, Symbol.text, if_pos hname] at hword
  have hends : Token.EndsBefore name.toList ((c :: more).map Except.ok) := by
    refine Token.endsBefore_of_stops ?_ _
    rcases hc with rfl | rfl <;> rfl
  calc (lexemes (('(' :: (name.toList ++ c :: more)).map Except.ok)).map Lexeme.token
      = .ok .opening :: (lexemes ((name.toList ++ c :: more).map Except.ok)).map Lexeme.token :=
        map_token_lexemes_cons .nil .opening trivial
    _ = .ok .opening :: .ok (.ident name) ::
          (lexemes ((c :: more).map Except.ok)).map Lexeme.token := by
        rw [← map_token_lexemes_cons .nil hspelled hends]
        rfl

/-- After a blank, a colon and any name are read as the word of the name. -/
theorem exists_map_token_lexemes_keyword (key : Keyword) {c : Char} (hc : c = ' ' ∨ c = ')')
    (more : List Char) : ∃ tokens,
      (lexemes ((' ' :: ':' :: (key.name.toList ++ c :: more)).map Except.ok)).map Lexeme.token =
        .ok (.keyword key.word.name) :: tokens := by
  have hword : ∀ d ∈ key.name.toList.takeWhile isWordChar, isWordChar d := fun d hd =>
    List.mem_takeWhile_imp hd
  have hspelled : (Token.keyword key.word.name).SpelledAs
      (':' :: key.name.toList.takeWhile isWordChar) :=
    .word (by decide) hword (by simp [Token.ofWord, Keyword.word])
  have hends : Token.EndsBefore (':' :: key.name.toList.takeWhile isWordChar)
      ((key.name.toList.dropWhile isWordChar ++ c :: more).map Except.ok) := by
    rw [Token.endsBefore_word (by decide)]
    cases hdrop : key.name.toList.dropWhile isWordChar with
    | nil => rcases hc with rfl | rfl <;> rfl
    | cons d rest =>
        have hd := List.head_dropWhile_not (p := isWordChar) (l := key.name.toList)
          (by rw [hdrop]; simp)
        simpa [hdrop, Source.halts] using hd
  have hblank : Gap [' '] := .blank rfl .nil
  have htext : ' ' :: ':' :: (key.name.toList ++ c :: more) =
      [' '] ++ (':' :: key.name.toList.takeWhile isWordChar ++
        (key.name.toList.dropWhile isWordChar ++ c :: more)) := by
    simp [← List.append_assoc]
  exact ⟨_, by rw [htext, map_token_lexemes_cons hblank hspelled hends]⟩

/-! ## The list that a command is read as -/

namespace Command

variable {d : Dialect} {command : Command} {text name : String} {items : List SExpr}

/-- The tokens of a text that is read as a list with a name at its head. -/
theorem map_token_of_readFrom (hread : (SExpr.list (.named name :: items)).ReadFrom text) :
    (lexemes (.ofText text)).map Lexeme.token = .ok .opening :: .ok (.ident name) ::
      ((SExpr.tokensEach items).map Except.ok ++ [.ok .closing]) := by
  have htokens := SExpr.readFrom_iff_items.mp hread
  rw [itemsOfText, SmtSession.items, map_token_place] at htokens
  simpa [SExpr.tokens, SExpr.tokensEach, SExpr.named, Atom.token] using htokens

/-- A list is read from the text of no other command than the one at its head. -/
theorem name_of_readFrom (h : translate d (.command command) = .ok text)
    (hread : (SExpr.list (.named name :: items)).ReadFrom text) : name = command.name := by
  obtain ⟨c, more, htext, hc⟩ := toList_of_translate h
  have htokens := map_token_of_readFrom hread
  rw [Source.ofText, htext, map_token_lexemes_named command.isSimple_name hc] at htokens
  simp only [List.cons.injEq, Except.ok.injEq, Token.ident.injEq] at htokens
  exact htokens.2.1.symm

/-- A keyword is read as its word. -/
theorem word_of_readFrom {key read : Keyword} {parts : List (List Mark)}
    (hparts : command.arguments d = key.marks :: parts)
    (h : translate d (.command command) = .ok text)
    (hread : (SExpr.list (.named name :: .atom (.keyword read) :: items)).ReadFrom text) :
    read = key.word := by
  obtain ⟨c, more, htext, hc⟩ := toList_of_translate_keyword hparts h
  obtain ⟨tokens, hkeyword⟩ := exists_map_token_lexemes_keyword key hc more
  have htokens := map_token_of_readFrom hread
  rw [Source.ofText, htext, map_token_lexemes_named command.isSimple_name (.inl rfl), hkeyword,
    SExpr.tokensEach, SExpr.tokens, Atom.token] at htokens
  simp only [List.cons_append, List.nil_append, List.map_cons, List.cons.injEq, Except.ok.injEq,
    Token.keyword.injEq] at htokens
  exact congrArg Keyword.mk htokens.2.2.1.symm

end Command

end SmtSession
