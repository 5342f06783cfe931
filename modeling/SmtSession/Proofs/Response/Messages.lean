import Mathlib.Algebra.Ring.Nat
import Mathlib.Data.List.Forall2
import SmtSession.Proofs.Response.ErrorReport

/-!
# The messages of error reports

A reply may start with several error reports, with blanks and comments anywhere
between their tokens (`Reports`).  A message is written as any string is, so the
reader gets it back whatever characters it has, and a report ends with its
parenthesis, so what follows the last one is read as if it stood alone
(`map_token_lexemes_reports`).  The messages found are therefore those of all
the reports, as far as they go without anything else between them.

A message may start with a line number (`StartsWithLine`).  Numbers and offsets
that fit into 64 bits with a sign have a difference that fits as well, so the
user is told the number that remains after subtracting, below zero if it comes
to that (`countedFrom_shiftLine`).
-/

namespace SmtSession

/-! ## Reports in a row -/

/-- The tokens of an error report. -/
def reportTokens (message : String) : List Token :=
  [.opening, .ident "error", .constant (.string message), .closing]

/-- The text consists of error reports with the given messages. -/
inductive Reports : List String → List Char → Prop
  | nil : Reports [] []
  | cons {message : String} {messages : List String}
      {before opening word closing text : List Char} :
      Gap before → Gap opening → Gap word → Gap closing → Reports messages text →
        Reports (message :: messages)
          (before ++ (['('] ++ (opening ++ ("error".toList ++ (word ++
            ((quoteString message).toList ++ (closing ++ ([')'] ++ text))))))))

/-- **Reports are read apart from what follows them.** -/
theorem map_token_lexemes_reports {messages : List String} {text : List Char}
    (h : Reports messages text) (rest : List Char) :
    (lexemes ((text ++ rest).map Except.ok)).map Lexeme.token =
      (messages.flatMap reportTokens).map Except.ok ++
        (lexemes (rest.map Except.ok)).map Lexeme.token := by
  induction h with
  | nil => rfl
  | @cons message messages before opening word closing text hbefore hopening hword hclosing _ ih =>
      have hchars : ['r', 'r', 'o', 'r'].all isWordChar := by decide
      have hname : (Token.ident "error").SpelledAs "error".toList :=
        .word (by decide) (List.all_eq_true.mp hchars) (by decide)
      have hmessage : (Token.constant (.string message)).SpelledAs (quoteString message).toList :=
        Token.spelledAs_string message
      -- a quote ends the word, and a parenthesis ends the string, also without a gap
      have hquote (more : List Char) : Token.EndsBefore "error".toList
          ((word ++ ((quoteString message).toList ++ more)).map Except.ok) := by
        rw [List.map_append]
        refine hword.endsBefore ?_
        rw [show "error".toList = 'e' :: ['r', 'r', 'o', 'r'] from rfl,
          Token.endsBefore_word (by decide)]
        simp [quoteString, Source.halts, isWordChar, isSeparator]
      have hparen (more : List Char) : Token.EndsBefore (quoteString message).toList
          ((closing ++ ([')'] ++ more)).map Except.ok) := by
        rw [List.map_append]
        exact hclosing.endsBefore (Token.endsBefore_of_stops rfl _)
      simp only [List.append_assoc]
      rw [map_token_lexemes_cons hbefore .opening trivial,
        map_token_lexemes_cons hopening hname (hquote _),
        map_token_lexemes_cons hword hmessage (hparen _),
        map_token_lexemes_cons hclosing .closing trivial, ih]
      simp [reportTokens]

/-! ## Messages found -/

/-- The first tokens of the text are those of an error report. -/
def BeginsWithReport (text : String) : Prop :=
  ∃ message rest, (itemsOfText text).map Item.token =
    (reportTokens message).map Except.ok ++ rest

/-- A report at the beginning gives the first message. -/
theorem errorMessages_of_report {items : List Item} {message : String}
    {rest : List (Except SyntaxError Token)}
    (h : items.map Item.token = (reportTokens message).map Except.ok ++ rest) :
    ∃ more, more.map Item.token = rest ∧ errorMessages items = message :: errorMessages more := by
  obtain ⟨opening, items, rfl, hopening, hwords⟩ := List.map_eq_cons_iff.mp h
  obtain ⟨word, items, rfl, hword, hstrings⟩ := List.map_eq_cons_iff.mp hwords
  obtain ⟨content, items, rfl, hcontent, hclosings⟩ := List.map_eq_cons_iff.mp hstrings
  obtain ⟨closing, items, rfl, hclosing, hitems⟩ := List.map_eq_cons_iff.mp hclosings
  obtain ⟨_, rfl⟩ := Item.eq_ok_of_token hopening
  obtain ⟨_, rfl⟩ := Item.eq_ok_of_token hword
  obtain ⟨_, rfl⟩ := Item.eq_ok_of_token hcontent
  obtain ⟨_, rfl⟩ := Item.eq_ok_of_token hclosing
  exact ⟨items, hitems, by simp [errorMessages]⟩

/-- Reports in a row give all their messages. -/
theorem errorMessages_of_reports {items : List Item} (messages : List String)
    {rest : List (Except SyntaxError Token)}
    (h : items.map Item.token = (messages.flatMap reportTokens).map Except.ok ++ rest) :
    ∃ more, more.map Item.token = rest ∧
      errorMessages items = messages ++ errorMessages more := by
  induction messages generalizing items with
  | nil => exact ⟨items, h, rfl⟩
  | cons message messages ih =>
      rw [List.flatMap_cons, List.map_append, List.append_assoc] at h
      obtain ⟨items', hitems, hfirst⟩ := errorMessages_of_report h
      obtain ⟨more, hmore, hrest⟩ := ih hitems
      exact ⟨more, hmore, by rw [hfirst, hrest, List.cons_append]⟩

theorem errorMessages_eq_nil_of_not {items : List Item} {text : String}
    (hitems : items.map Item.token = (itemsOfText text).map Item.token)
    (h : ¬ BeginsWithReport text) : errorMessages items = [] := by
  by_contra hne
  obtain ⟨message, rest, htokens⟩ := errorMessages_ne_nil_iff.mp hne
  exact h ⟨message, rest, hitems ▸ htokens⟩

theorem errorMessages_reports {messages : List String} {reports rest : String}
    (h : Reports messages reports.toList) (hrest : ¬ BeginsWithReport rest) :
    errorMessages (itemsOfText (reports ++ rest)) = messages := by
  have htokens (text : String) : (itemsOfText text).map Item.token =
      (lexemes (text.toList.map Except.ok)).map Lexeme.token := by
    rw [itemsOfText, items, map_token_place, Source.ofText]
  have hread := map_token_lexemes_reports h rest.toList
  rw [← String.toList_append, ← htokens, ← htokens] at hread
  obtain ⟨more, hmore, hmessages⟩ := errorMessages_of_reports messages hread
  rw [hmessages, errorMessages_eq_nil_of_not hmore hrest, List.append_nil]

/-! ## Line numbers -/

/-- The message starts with a line number, and `more` is what follows the number. -/
def StartsWithLine (message : String) (line : Nat) (more : String) : Prop :=
  ∃ digits : String, message = "line " ++ digits ++ more ∧ isDigits digits.toList ∧
    (∀ c ∈ more.toList.head?, ¬ c.isDigit) ∧ line = Nat.ofDigitChars 10 digits.toList 0 ∧
    line ≤ maxLine

/-- What the user is told of a message: a line number that it starts with is counted from `offset`
on. -/
inductive CountedFrom (offset : Nat) : String → String → Prop
  | line {message more : String} {line : Nat} : StartsWithLine message line more →
      CountedFrom offset message ("line " ++ ((line : Int) - offset).repr ++ more)
  | other {message : String} : (∀ line more, ¬ StartsWithLine message line more) →
      CountedFrom offset message message

/-- The difference of numbers that fit into 64 bits with a sign fits as well. -/
theorem lineDifference_eq {line offset : Nat} (hline : line ≤ maxLine) (hoffset : offset < 2 ^ 63) :
    lineDifference line offset = (line : Int) - offset := by
  rw [maxLine] at hline
  refine Int.bmod_eq_of_le_mul_two ?_ ?_
  · simp only [UInt64.size]
    omega
  · simp only [UInt64.size]
    omega

/-- The number that a message starts with is all its digits. -/
theorem takeWhile_isDigit_of_startsWithLine {message more : String} {line : Nat}
    (h : StartsWithLine message line more) :
    ∃ rest, message.toList = 'l' :: 'i' :: 'n' :: 'e' :: ' ' :: rest ∧
      isDigits (rest.takeWhile Char.isDigit) ∧
      line = Nat.ofDigitChars 10 (rest.takeWhile Char.isDigit) 0 ∧ line ≤ maxLine := by
  obtain ⟨digits, rfl, hdigits, hmore, hline, hmax⟩ := h
  have htake : (digits.toList ++ more.toList).takeWhile Char.isDigit = digits.toList := by
    rw [List.takeWhile_append_of_pos (isDigits_iff.mp hdigits).2]
    cases hmore' : more.toList with
    | nil => simp
    | cons c rest => simpa [hmore'] using hmore
  refine ⟨digits.toList ++ more.toList, ?_, ?_, ?_, hmax⟩
  · simp
  · rwa [htake]
  · rwa [htake]

theorem countedFrom_shiftLine {offset : Nat} (hoffset : offset < 2 ^ 63) (message : String) :
    CountedFrom offset message (shiftLine offset message) := by
  unfold shiftLine
  split
  · next rest hmessage =>
      dsimp only
      split
      · next hnone =>
          refine .other fun line more hstarts => ?_
          obtain ⟨rest', hrest, hdigits, rfl, hmax⟩ := takeWhile_isDigit_of_startsWithLine hstarts
          rw [hmessage] at hrest
          cases hrest
          have hsome := (isDigits_iff.mp hdigits).1
          simp [hsome, Nat.not_lt.mpr hmax] at hnone
      · next hline =>
          simp only [Bool.or_eq_true, not_or, decide_eq_true_eq, Nat.not_lt] at hline
          rw [lineDifference_eq hline.2 hoffset]
          refine .line ⟨String.ofList (rest.takeWhile Char.isDigit), ?_, ?_, ?_, ?_, hline.2⟩
          · rw [← String.toList_inj, hmessage]
            simp [List.takeWhile_append_dropWhile]
          · rw [String.toList_ofList]
            exact isDigits_iff.mpr ⟨by simpa using hline.1, fun c => List.mem_takeWhile_imp⟩
          · rw [String.toList_ofList]
            intro c hc
            have hhead := List.head?_dropWhile_not Char.isDigit rest
            rw [Option.mem_def.mp hc] at hhead
            simpa using hhead
          · rw [String.toList_ofList]
  · next hother =>
      refine .other fun line more hstarts => ?_
      obtain ⟨rest, hrest, -⟩ := takeWhile_isDigit_of_startsWithLine hstarts
      exact hother rest hrest

/-! ## Messages for the user -/

/-- **All the leading messages are told, with the user's line numbers, and any other reply as it
is.** -/
theorem errorMessage_exact (offset : Nat) :
    (offset < 2 ^ 63 → ∀ (messages : List String) (reports rest : String), messages ≠ [] →
      Reports messages reports.toList → ¬ BeginsWithReport rest →
        ∃ told, List.Forall₂ (CountedFrom offset) messages told ∧
          errorMessage (reports ++ rest) offset = "; ".intercalate told) ∧
    ∀ reply, ¬ BeginsWithReport reply → errorMessage reply offset = Text.trim reply := by
  constructor
  · intro hoffset messages reports rest hsome hreports hrest
    refine ⟨messages.map (shiftLine offset), ?_, ?_⟩
    · rw [List.forall₂_map_right_iff]
      exact List.forall₂_same.mpr fun message _ => countedFrom_shiftLine hoffset message
    · unfold errorMessage
      rw [errorMessages_reports hreports hrest]
      split
      · exact absurd rfl hsome
      · rfl
  · intro reply hreply
    unfold errorMessage
    rw [errorMessages_eq_nil_of_not rfl hreply]

/-- Two reports with a comment and a quote, before one that is not closed. -/
theorem errorMessage_exact_unclosed :
    (∃ told, List.Forall₂ (CountedFrom 5) ["line 3: \"x\"", "b"] told ∧
      errorMessage ("; note\n(error \"line 3: \\\"x\\\"\")( error\"b\" )" ++ "(error |c") 5 =
        "; ".intercalate told) ∧
    errorMessage "(error |c" 5 = Text.trim "(error |c" := by
  have hrest : ¬ BeginsWithReport "(error |c" := by
    rintro ⟨message, rest, htokens⟩
    have hread : (itemsOfText "(error |c").map Item.token =
        [.ok .opening, .ok (.ident "error"), .error .unterminatedSymbol] := by decide +kernel
    rw [hread] at htokens
    cases htokens
  have htext : "; note\n(error \"line 3: \\\"x\\\"\")( error\"b\" )".toList =
      (';' :: " note".toList ++ '\n' :: []) ++ (['('] ++ ([] ++ ("error".toList ++ ([' '] ++
        ((quoteString "line 3: \"x\"").toList ++ ([] ++ ([')'] ++
          ([] ++ (['('] ++ ([' '] ++ ("error".toList ++ ([] ++
            ((quoteString "b").toList ++ ([' '] ++ ([')'] ++ []))))))))))))))) := by
    decide +kernel
  have hblank : Gap [' '] := .blank rfl .nil
  have hreports : Reports ["line 3: \"x\"", "b"]
      "; note\n(error \"line 3: \\\"x\\\"\")( error\"b\" )".toList := by
    rw [htext]
    exact .cons (.comment (by decide) .nil) .nil hblank .nil (.cons .nil hblank .nil hblank .nil)
  exact ⟨(errorMessage_exact 5).1 (by decide) _ _ _ (by decide) hreports hrest,
    (errorMessage_exact 5).2 _ hrest⟩

end SmtSession
