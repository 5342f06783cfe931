import SmtSession.Proofs.SExpr.RoundTrip
import SmtSession.Proofs.Token.Bare
import SmtSession.Response.Decoder

/-!
# Two readings of an error report

A reply is looked at twice.  Whether it is an error report is seen from its
first characters (`isErrorReport`), and the messages of a report are found by
the reader (`errorMessages`).  The reader passes over comments and takes a word
between bars for the word itself; the first characters are compared as they
are.  So the two agree on the reports that are written plainly, and only on
them (`isErrorReport_eq`): any other report is decoded as if it were an answer
(`Decoder.decode_report`).

## Strategy

The first two lexemes of a report are a parenthesis and a word, each after a
gap.  Dropping blanks leads past a gap unless there is a comment in it, and then
to the semicolon of the first one; this, or a bar, is not what a report begins
with.
-/

namespace SmtSession

open Text (isBlank)

/-! ## The characters of a token -/

namespace Token

variable {chars : List Char}

theorem SpelledAs.eq_of_opening (h : SpelledAs .opening chars) : chars = ['('] := by
  cases h with
  | opening => rfl
  | word _ _ hread => simpa using ofWord_cases hread

/-- A symbol is spelled as its name, or between bars. -/
theorem SpelledAs.cases_of_ident {name : String} (h : SpelledAs (.ident name) chars) :
    chars = name.toList ∨ ∃ more, chars = '|' :: more := by
  cases h with
  | @word _ c word _ _ hread =>
      have hname : name = String.ofList (c :: word) := by simpa using ofWord_cases hread
      exact .inl (by rw [hname, String.toList_ofList])
  | bars _ => exact .inr ⟨_, rfl⟩

end Token

/-! ## The first lexemes -/

theorem lexemes_eq_cons {source : Source} {lexeme : Lexeme} {more : List Lexeme}
    (h : lexemes source = lexeme :: more) :
    nextLexeme source = some lexeme ∧ lexemes lexeme.rest = more := by
  rw [lexemes_eq] at h
  split at h
  · simp at h
  · next hnext =>
      cases h
      exact ⟨hnext, rfl⟩

/-- The first lexeme of a text: a gap, a spelling of its token, and more text. -/
theorem exists_tail_of_nextLexeme {text blanks chars : List Char} {token : Token} {rest : Source}
    (h : nextLexeme (text.map Except.ok) = some ⟨blanks, chars, .ok token, rest⟩) :
    ∃ tail, text = blanks ++ (chars ++ tail) ∧ rest = tail.map Except.ok ∧ Gap blanks ∧
      token.SpelledAs chars ∧ Token.EndsBefore chars (tail.map Except.ok) := by
  obtain ⟨hsource, hgap, hspelled, hends⟩ := nextLexeme_eq_some_iff.mp h
  obtain ⟨after, rfl, hafter⟩ := exists_eq_append_of_map_ok hsource.symm
  obtain ⟨tail, rfl, rfl⟩ := exists_eq_append_of_map_ok hafter
  exact ⟨tail, rfl, rfl, hgap, hspelled, hends⟩

/-- A gap with a comment in it, without the blanks before the first comment. -/
theorem Gap.dropWhile_isBlank {gap : List Char} (h : Gap gap) (hcomment : gap.all isBlank = false)
    (text : List Char) : ∃ more, (gap ++ text).dropWhile isBlank = ';' :: more := by
  induction h with
  | nil => simp at hcomment
  | @blank c gap hc _ ih =>
      obtain ⟨more, hmore⟩ := ih (by simpa [hc] using hcomment)
      exact ⟨more, by simpa [hc] using hmore⟩
  | comment _ _ => exact ⟨_, rfl⟩

/-- Whether the first of the error reports that a reply starts with is written plainly: there is no
comment before its word, and the word stands without bars. -/
def isPlainReport : List Lexeme → Bool
  | opening :: word :: _ =>
    opening.blanks.all isBlank && word.blanks.all isBlank && word.chars == "error".toList
  | _ => false

/-- **Only what is written plainly is seen to be an error report.** -/
theorem isErrorReport_eq {reply : String} {opening word : Lexeme} {more : List Lexeme}
    (h : lexemes (.ofText reply) = opening :: word :: more)
    (hopening : opening.token = .ok .opening) (hword : word.token = .ok (.ident "error")) :
    isErrorReport reply = isPlainReport (lexemes (.ofText reply)) := by
  obtain ⟨hfirst, hsecond⟩ := lexemes_eq_cons h
  obtain ⟨hsecond, -⟩ := lexemes_eq_cons hsecond
  rw [h]
  obtain ⟨gap, chars, _, after⟩ := opening
  obtain ⟨inner, name, _, rest⟩ := word
  cases hopening
  cases hword
  obtain ⟨after, htext, rfl, hgap, hparen, -⟩ := exists_tail_of_nextLexeme hfirst
  obtain ⟨rest, rfl, rfl, hinner, hname, hends⟩ := exists_tail_of_nextLexeme hsecond
  cases hparen.eq_of_opening
  simp only [isErrorReport, isPlainReport, htext]
  cases hblank : gap.all isBlank with
  | false =>
      obtain ⟨more, hmore⟩ :=
        hgap.dropWhile_isBlank hblank (['('] ++ (inner ++ (name ++ rest)))
      rw [hmore]
      rfl
  | true =>
      have hdrop : (gap ++ (['('] ++ (inner ++ (name ++ rest)))).dropWhile isBlank =
          '(' :: (inner ++ (name ++ rest)) := by
        rw [List.dropWhile_append_of_pos (List.all_eq_true.mp hblank)]
        rfl
      rw [hdrop]
      cases hblanks : inner.all isBlank with
      | false =>
          obtain ⟨more, hmore⟩ := hinner.dropWhile_isBlank hblanks (name ++ rest)
          simp only [hmore]
          rfl
      | true =>
          have hdrop : (inner ++ (name ++ rest)).dropWhile isBlank =
              (name ++ rest).dropWhile isBlank :=
            List.dropWhile_append_of_pos (List.all_eq_true.mp hblanks)
          simp only [hdrop]
          obtain rfl | ⟨bars, rfl⟩ := hname.cases_of_ident
          · -- the word ends, so it is followed by nothing, a blank or a separator
            have hhalts : Source.halts isWordChar (rest.map Except.ok) := by
              rwa [show "error".toList = 'e' :: ['r', 'r', 'o', 'r'] from rfl,
                Token.endsBefore_word (by decide)] at hends
            cases rest with
            | nil => rfl
            | cons c rest =>
                have hc : isBlank c || isSeparator c := by
                  simpa [Source.halts, isWordChar, Bool.or_eq_true] using hhalts
                exact hc
          · rfl

/-! ## Messages -/

/-- Items have messages if they start with a report. -/
theorem errorMessages_ne_nil_iff {items : List Item} :
    errorMessages items ≠ [] ↔ ∃ message rest, items.map Item.token =
      .ok .opening :: .ok (.ident "error") :: .ok (.constant (.string message)) ::
        .ok .closing :: rest := by
  constructor
  · intro h
    unfold errorMessages at h
    split at h
    · next name _ message _ _ rest =>
        split at h
        · next hname => exact ⟨message, rest.map Item.token, by rw [hname]; rfl⟩
        · exact absurd rfl h
    · exact absurd rfl h
  · rintro ⟨message, rest, h⟩
    obtain ⟨opening, items, rfl, hopening, h⟩ := List.map_eq_cons_iff.mp h
    obtain ⟨word, items, rfl, hword, h⟩ := List.map_eq_cons_iff.mp h
    obtain ⟨content, items, rfl, hcontent, h⟩ := List.map_eq_cons_iff.mp h
    obtain ⟨closing, items, rfl, hclosing, -⟩ := List.map_eq_cons_iff.mp h
    obtain ⟨_, rfl⟩ := Item.eq_ok_of_token hopening
    obtain ⟨_, rfl⟩ := Item.eq_ok_of_token hword
    obtain ⟨_, rfl⟩ := Item.eq_ok_of_token hcontent
    obtain ⟨_, rfl⟩ := Item.eq_ok_of_token hclosing
    simp [errorMessages]

/-! ## Responses -/

/-- What comes first fails, or what comes after it. -/
theorem bind_eq_error {ε α β : Type} {first : Except ε α} {next : α → Except ε β} {error : ε}
    (h : (first >>= next) = .error error) :
    first = .error error ∨ ∃ middle, first = .ok middle ∧ next middle = .error error := by
  cases first with
  | error other =>
      cases h
      exact .inl rfl
  | ok middle => exact .inr ⟨middle, rfl, h⟩

/-- Reading a list fails as reading one of its items does. -/
theorem exists_of_mapM_eq_error {ε α β : Type} {read : α → Except ε β} {items : List α} {error : ε}
    (h : items.mapM read = .error error) : ∃ item ∈ items, read item = .error error := by
  induction items with
  | nil => cases h
  | cons item items ih =>
      rw [List.mapM_cons] at h
      obtain hitem | ⟨value, hitem, h⟩ := bind_eq_error h
      · exact ⟨item, List.mem_cons_self, hitem⟩
      · obtain hitems | ⟨values, hitems, h⟩ := bind_eq_error h
        · obtain ⟨item, hmem, hitem⟩ := ih hitems
          exact ⟨item, List.mem_cons_of_mem _ hmem, hitem⟩
        · cases h

namespace Decoder

theorem term_ne_solver (tree : Tree) (message : String) :
    term tree ≠ .error (.solver message) := by
  unfold term
  cases Term.ofTree tree <;> simp [Except.mapError]

/-- An expression of the wrong kind is not taken for a report. -/
theorem respond_ne_solver (shape : ReplyShape) {unexpected : DecodeError} (reply : String)
    (tree : Tree) {message : String} (h : unexpected ≠ .solver message) :
    respond shape unexpected reply tree ≠ .error (.solver message) := by
  intro hrespond
  cases shape with
  | success | verdict | symbols =>
      simp only [respond] at hrespond
      split at hrespond
      · simp at hrespond
      · exact h (Except.error.inj hrespond)
  | values =>
      simp only [respond] at hrespond
      split at hrespond
      · exact h (Except.error.inj hrespond)
      · obtain hpairs | ⟨pairs, -, hpairs⟩ := bind_eq_error hrespond
        · obtain ⟨item, -, hitem⟩ := exists_of_mapM_eq_error hpairs
          split at hitem
          · next subject value _ =>
              obtain hsubject | ⟨_, -, hitem⟩ := bind_eq_error hitem
              · exact term_ne_solver subject message hsubject
              · obtain hvalue | ⟨_, -, hitem⟩ := bind_eq_error hitem
                · exact term_ne_solver value message hvalue
                · cases hitem
          · exact h (Except.error.inj hitem)
        · cases hpairs
  | assertions =>
      simp only [respond] at hrespond
      split at hrespond
      · exact h (Except.error.inj hrespond)
      · obtain hterms | ⟨terms, -, hterms⟩ := bind_eq_error hrespond
        · obtain ⟨item, -, hitem⟩ := exists_of_mapM_eq_error hterms
          exact term_ne_solver item message hitem
        · cases hterms
  | sexpr | text => simp [respond] at hrespond

/-- A reply that does not look like a report is not decoded as one. -/
theorem decode_ne_solver {decoder : Decoder} {raw : String} (hstrict : decoder.lenient = false)
    (hreport : isErrorReport (normalize raw) = false) (shape : ReplyShape) (message : String) :
    decoder.decode raw shape ≠ .error (.solver message) := by
  simp only [decode, hstrict, hreport, Bool.false_and, Bool.false_eq_true, if_false]
  split
  · simp
  · split
    · simp
    · split
      · simp
      · exact respond_ne_solver shape _ _ (by simp)

/-- The expression of a reply that starts with a report is a list. -/
theorem exists_list_of_report {reply : String} {tree : Tree}
    (hreport : errorMessages (itemsOfText reply) ≠ []) (h : parseText reply = .ok tree) :
    ∃ items span, tree = .list items span := by
  obtain ⟨message, rest, htokens⟩ := errorMessages_ne_nil_iff.mp hreport
  have hread := SExpr.readFrom_iff_items.mp ⟨tree, h, rfl⟩
  cases tree with
  | leaf value span => simp [htokens, Tree.sexpr, SExpr.tokens] at hread
  | list items span => exact ⟨items, span, rfl⟩

/-- **A report is decoded as an error if it is written plainly, and as an answer otherwise.** -/
theorem decode_report (decoder : Decoder) (raw : String) (hstrict : decoder.lenient = false)
    (hreport : errorMessages (itemsOfText (normalize raw)) ≠ []) :
    (isPlainReport (lexemes (.ofText (normalize raw))) → ∀ shape,
      decoder.decode raw shape = .error (.solver ("; ".intercalate
        ((errorMessages (itemsOfText (normalize raw))).map (shiftLine decoder.lineOffset))))) ∧
    (isPlainReport (lexemes (.ofText (normalize raw))) = false →
      (∀ shape message, decoder.decode raw shape ≠ .error (.solver message)) ∧
      decoder.decode raw .text = .ok (.text (Text.trim (normalize raw))) ∧
      ∀ tree, parseText (normalize raw) = .ok tree →
        decoder.decode raw .sexpr = .ok (.sexpr tree)) := by
  -- the messages are found in the lexemes that the report starts with
  obtain ⟨first, rest, htokens⟩ := errorMessages_ne_nil_iff.mp hreport
  rw [itemsOfText, items, map_token_place] at htokens
  obtain ⟨opening, more, hlexemes, hopening, htokens⟩ := List.map_eq_cons_iff.mp htokens
  obtain ⟨word, more, rfl, hword, -⟩ := List.map_eq_cons_iff.mp htokens
  have hseen := isErrorReport_eq hlexemes hopening hword
  constructor
  · intro hplain shape
    rw [hplain] at hseen
    have hmessage : errorMessage (normalize raw) decoder.lineOffset = "; ".intercalate
        ((errorMessages (itemsOfText (normalize raw))).map (shiftLine decoder.lineOffset)) := by
      unfold errorMessage
      split
      · next hnone => exact absurd hnone hreport
      · rfl
    simp [decode, hstrict, hseen, hmessage]
  · intro hplain
    rw [hplain] at hseen
    refine ⟨decode_ne_solver hstrict hseen, ?_, ?_⟩
    · have hechoed : echoed (normalize raw) = Text.trim (normalize raw) := by
        unfold echoed
        split
        · next hparse =>
            obtain ⟨_, _, htree⟩ := exists_list_of_report hreport hparse
            cases htree
        · rfl
      simp [decode, hstrict, hseen, hechoed]
    · intro tree hparse
      obtain ⟨items, span, rfl⟩ := exists_list_of_report hreport hparse
      simp [decode, hstrict, hseen, hparse, respond, Tree.isName, Tree.symbol?]

/-- The line of a message is counted from the first one that the user has written. -/
theorem decode_report_line : Decoder.decode ⟨1, false⟩ "( error \"line 3: x\")\nsat" .values =
    .error (.solver "line 2: x") := by
  have hmessages : errorMessages (itemsOfText (normalize "( error \"line 3: x\")\nsat")) =
      ["line 3: x"] := by
    decide +kernel
  have hdecode := (decode_report ⟨1, false⟩ "( error \"line 3: x\")\nsat" rfl
    (by rw [hmessages]; simp)).1 (by decide +kernel) .values
  rw [hdecode, hmessages]
  rfl

/-- A report after a comment is the model that was asked for. -/
theorem decode_report_after_comment :
    errorMessages (itemsOfText (normalize "; note\n(error \"no model\")")) = ["no model"] ∧
      ∃ tree, Decoder.decode ⟨0, false⟩ "; note\n(error \"no model\")" .sexpr =
        .ok (.sexpr tree) ∧
      tree.sexpr = .list [.atom (.symbol ⟨"error"⟩), .atom (.constant (.string "no model"))] := by
  have hreport : isErrorReport (normalize "; note\n(error \"no model\")") = false := by
    decide +kernel
  have hread : SExpr.ReadFrom
      (.list [.atom (.symbol ⟨"error"⟩), .atom (.constant (.string "no model"))])
      (normalize "; note\n(error \"no model\")") := by
    rw [SExpr.readFrom_iff_items]
    decide +kernel
  obtain ⟨tree, hparse, htree⟩ := hread
  refine ⟨by decide +kernel, tree, ?_, htree⟩
  cases tree with
  | leaf value span => simp [Tree.sexpr] at htree
  | list items span => simp [decode, hreport, hparse, respond, Tree.isName, Tree.symbol?]

end Decoder

end SmtSession
