import SmtSession.Text.Visible

/-!
# Laying out what is written

Whatever is written is first a sequence of marks: parentheses, words, and strings that the
dialect refuses.  A formatter turns marks into text.  It puts a blank before a word or an opening
parenthesis, except at the very beginning and after an opening parenthesis, and it stops at the
first refused string.
-/

namespace SmtSession

/-- A piece of what is written. -/
inductive Mark where
  | opening
  | closing
  | word (text : String)
  /-- A string where the dialect allows none. -/
  | refused (value : String)
  deriving DecidableEq

/-- Pieces between parentheses. -/
def Mark.enclosed (parts : List (List Mark)) : List Mark :=
  .opening :: parts.flatten ++ [.closing]

/-- A string constant stands in a term, and the dialect allows none. -/
structure RefusedString where
  value : String
  deriving DecidableEq

/-- What the user is told about a refused string. -/
def RefusedString.message (refused : RefusedString) : String :=
  "string litteral " ++ Text.visible refused.value ++ " is not accepted inside a term"

/-- A text being written. -/
structure Formatter where
  text : String
  /-- Whether a blank is due before the next word. -/
  due : Bool
  deriving DecidableEq

namespace Formatter

/-- The formatter that has written nothing. -/
def blank : Formatter := ⟨"", false⟩

/-- Makes room for a word: writes the blank that is due.  The next blank is then due. -/
def next (f : Formatter) : Formatter :=
  if f.due then { f with text := f.text ++ " " } else { f with due := true }

/-- Writes a word. -/
def word (f : Formatter) (text : String) : Formatter :=
  { f.next with text := f.next.text ++ text }

/-- Writes an opening parenthesis.  No blank is due after it. -/
def opening (f : Formatter) : Formatter :=
  ⟨f.next.text ++ "(", false⟩

/-- Writes a closing parenthesis, with no blank before it even if one is due. -/
def closing (f : Formatter) : Formatter :=
  ⟨f.text ++ ")", true⟩

/-- Writes marks up to the first refused string, which is returned. -/
def write (f : Formatter) : List Mark → Formatter × Except RefusedString Unit
  | [] => (f, .ok ())
  | .opening :: rest => f.opening.write rest
  | .closing :: rest => f.closing.write rest
  | .word text :: rest => (f.word text).write rest
  | .refused value :: _ => (f, .error ⟨value⟩)

/-- Marks are written one after the other: what follows a refused string is not reached. -/
theorem write_append (f : Formatter) (marks more : List Mark) :
    f.write (marks ++ more) =
      match f.write marks with
      | (g, .ok ()) => g.write more
      | (g, .error refused) => (g, .error refused) := by
  induction marks generalizing f with
  | nil => rfl
  | cons mark rest ih =>
    cases mark with
    | opening => exact ih f.opening
    | closing => exact ih f.closing
    | word text => exact ih (f.word text)
    | refused value => rfl

end Formatter

end SmtSession
