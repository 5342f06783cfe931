import SmtSession.Host.Scripted
import SmtSession.Proofs.Formatter.Refusal

/-!
# Texts of commands

A text that is sent says by its first word which command it is the text of
(`commandName_of_translate`), so a text of one kind is never that of another.
Commands without terms can always be written, for a dialect refuses nothing but
strings in terms.
-/

namespace SmtSession

/-! ## The name of a command in its text -/

namespace Formatter

/-- Writing only adds to the text. -/
theorem exists_append_of_write {marks : List Mark} {f g : Formatter}
    {result : Except RefusedString Unit} (h : f.write marks = (g, result)) :
    ∃ more, g.text.toList = f.text.toList ++ more := by
  induction marks generalizing f with
  | nil =>
      cases h
      exact ⟨[], by simp⟩
  | cons mark rest ih =>
      cases mark with
      | opening =>
          obtain ⟨more, hmore⟩ := ih (f := f.opening) h
          exact ⟨f.room ++ '(' :: more, by simp [hmore, opening]⟩
      | closing =>
          obtain ⟨more, hmore⟩ := ih (f := f.closing) h
          exact ⟨')' :: more, by simp [hmore, closing]⟩
      | word text =>
          obtain ⟨more, hmore⟩ := ih (f := f.word text) h
          exact ⟨f.room ++ text.toList ++ more, by simp [hmore, word]⟩
      | refused value =>
          cases h
          exact ⟨[], by simp⟩

/-- Where a blank is due, a word ends: the next character is that blank or a parenthesis. -/
theorem exists_cons_of_write {marks : List Mark} {f g : Formatter} (hdue : f.due)
    (h : f.write (marks ++ [.closing]) = (g, .ok ())) :
    ∃ c more, g.text.toList = f.text.toList ++ c :: more ∧ (c = ' ' ∨ c = ')') := by
  have hroom : f.room = [' '] := if_pos hdue
  obtain ⟨mark, rest, hmarks⟩ : ∃ mark rest, marks ++ [.closing] = mark :: rest :=
    List.exists_cons_of_ne_nil (by simp)
  rw [hmarks] at h
  cases mark with
  | opening =>
      obtain ⟨more, hmore⟩ := exists_append_of_write (f := f.opening) h
      exact ⟨' ', '(' :: more, by simp [hmore, opening, hroom], .inl rfl⟩
  | closing =>
      obtain ⟨more, hmore⟩ := exists_append_of_write (f := f.closing) h
      exact ⟨')', more, by simp [hmore, closing], .inr rfl⟩
  | word text =>
      obtain ⟨more, hmore⟩ := exists_append_of_write (f := f.word text) h
      exact ⟨' ', text.toList ++ more, by simp [hmore, word, hroom], .inl rfl⟩
  | refused value => simp [write] at h

end Formatter

theorem Command.name_no_delimiter (command : Command) :
    ∀ c ∈ command.name.toList, c ≠ '(' ∧ c ≠ ' ' ∧ c ≠ ')' := by
  have hall : command.name.toList.all (fun c => c != '(' && (c != ' ' && c != ')')) := by
    cases command <;> (rw [name]; decide)
  intro c hc
  simpa using List.all_eq_true.mp hall c hc

/-- The name is what stands between the opening parenthesis and the next delimiter. -/
theorem commandName_of_toList {command : Command} {text : String} {c : Char} {more : List Char}
    (htext : text.toList = '(' :: (command.name.toList ++ c :: more)) (hc : c = ' ' ∨ c = ')') :
    Script.commandName text = command.name := by
  have hname : ∀ c ∈ command.name.toList, (c != ' ' && c != ')') = true := by
    intro c hc
    simp [command.name_no_delimiter c hc]
  have hstop : (c != ' ' && c != ')') = false := by
    rcases hc with rfl | rfl <;> decide
  have hopening : (command.name.toList ++ c :: more).dropWhile (· == '(') =
      command.name.toList ++ c :: more := by
    cases hchars : command.name.toList with
    | nil => rcases hc with rfl | rfl <;> rfl
    | cons first chars =>
        have hfirst : first ≠ '(' := (command.name_no_delimiter first (by simp [hchars])).1
        simp [hfirst]
  rw [Script.commandName, htext, List.dropWhile_cons_of_pos rfl, hopening,
    List.takeWhile_append_of_pos hname, List.takeWhile_cons_of_neg (by simp [hstop])]
  simp

/-- The text of a command is its name after a parenthesis, and then a delimiter. -/
theorem Command.toList_of_translate {d : Dialect} {command : Command} {text : String}
    (h : translate d (.command command) = .ok text) :
    ∃ c more, text.toList = '(' :: (command.name.toList ++ c :: more) ∧ (c = ' ' ∨ c = ')') := by
  unfold translate at h
  split at h
  · simp at h
  · next f hwrite =>
      cases h
      -- the name is written after the opening parenthesis, and a blank is due after it
      have hwrite' : (Formatter.mk ("(" ++ command.name) true).write
          ((command.arguments d).flatten ++ [.closing]) = (f, .ok ()) := hwrite
      obtain ⟨c, more, htext, hc⟩ := Formatter.exists_cons_of_write rfl hwrite'
      exact ⟨c, more, by simpa using htext, hc⟩

/-- A keyword that a command is given first comes after the name and a blank. -/
theorem Command.toList_of_translate_keyword {d : Dialect} {command : Command} {key : Keyword}
    {parts : List (List Mark)} {text : String} (hparts : command.arguments d = key.marks :: parts)
    (h : translate d (.command command) = .ok text) :
    ∃ c more, text.toList =
        '(' :: (command.name.toList ++ ' ' :: ':' :: (key.name.toList ++ c :: more)) ∧
      (c = ' ' ∨ c = ')') := by
  unfold translate at h
  split at h
  · simp at h
  · next f hwrite =>
      cases h
      rw [Node.marks, Command.marks, hparts] at hwrite
      have hwrite' : (Formatter.mk ("(" ++ command.name ++ " " ++ key.text) true).write
          (parts.flatten ++ [.closing]) = (f, .ok ()) := hwrite
      obtain ⟨c, more, htext, hc⟩ := Formatter.exists_cons_of_write rfl hwrite'
      exact ⟨c, more, by simpa [Keyword.text] using htext, hc⟩

/-- The text of a command names it. -/
theorem commandName_of_translate {d : Dialect} {command : Command} {text : String}
    (h : translate d (.command command) = .ok text) : Script.commandName text = command.name := by
  obtain ⟨c, more, htext, hc⟩ := Command.toList_of_translate h
  exact commandName_of_toList htext hc

/-- Commands with one text have one name. -/
theorem name_eq_of_translate {d : Dialect} {command command' : Command} {text : String}
    (h : translate d (.command command) = .ok text)
    (h' : translate d (.command command') = .ok text) : command.name = command'.name := by
  rw [← commandName_of_translate h, commandName_of_translate h']

theorem Command.exists_assert_of_name {command : Command} (h : command.name = "assert") :
    ∃ term, command = .assert term := by
  cases command with
  | assert term => exact ⟨term, rfl⟩
  | _ => simp [name] at h

/-! ## Commands that can be written -/

theorem exists_translate_pop (d : Dialect) (levels : Nat) :
    ∃ text, translate d (.command (.pop levels)) = .ok text :=
  exists_translate (.inr rfl)

theorem exists_translate_setLogic (d : Dialect) (logic : Symbol) :
    ∃ text, translate d (.command (.setLogic logic)) = .ok text :=
  exists_translate (.inr rfl)

theorem exists_translate_setOption (d : Dialect) (key : Keyword) (value : AttributeValue) :
    ∃ text, translate d (.command (.setOption key value)) = .ok text :=
  exists_translate (.inr rfl)

end SmtSession
