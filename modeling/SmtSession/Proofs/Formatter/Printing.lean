import SmtSession.Proofs.Formatter.Layout

/-!
# Printed expressions

An S-expression has a printed text of its own (`SExpr.text`), and it has marks
that a formatter lays out.  Both give the same text: writing the marks of an
expression is writing one word, the printed text (`Formatter.write_marks`).

The items of a list are words one after the other.  Only the first of them
follows an opening parenthesis, so the induction is for a formatter in any state
and the blanks are counted afterwards (`Formatter.foldl_word_opening`).
-/

namespace SmtSession

/-! ## Texts with blanks between them -/

theorem spaced_cons_cons (first second : String) (rest : List String) :
    spaced (first :: second :: rest) = first ++ " " ++ spaced (second :: rest) :=
  String.intercalate_cons_cons ..

theorem spaced_pair (first second : String) : spaced [first, second] = first ++ " " ++ second := by
  rw [spaced_cons_cons]
  simp [spaced]

theorem SExpr.texts_eq_map (items : List SExpr) : texts items = items.map text := by
  induction items with
  | nil => rfl
  | cons item items ih => rw [texts, ih, List.map_cons]

namespace Formatter

/-! ## Words one after the other -/

theorem foldl_word_due (written text : String) (texts : List String) :
    (text :: texts).foldl word ⟨written, true⟩ =
      ⟨written ++ " " ++ spaced (text :: texts), true⟩ := by
  induction texts generalizing written text with
  | nil => simp [word, next, spaced]
  | cons following texts ih =>
      have hfirst : word ⟨written, true⟩ text = ⟨written ++ " " ++ text, true⟩ := rfl
      rw [List.foldl_cons, hfirst, ih]
      simp [spaced_cons_cons, String.append_assoc]

/-- After an opening parenthesis a blank stands between the words only. -/
theorem foldl_word_opening (f : Formatter) (texts : List String) :
    (texts.foldl word f.opening).text = f.next.text ++ "(" ++ spaced texts := by
  cases texts with
  | nil => simp [opening, spaced]
  | cons text texts =>
      have hfirst : word f.opening text = ⟨f.next.text ++ "(" ++ text, true⟩ := rfl
      rw [List.foldl_cons, hfirst]
      cases texts with
      | nil => simp [spaced]
      | cons following texts =>
          rw [foldl_word_due]
          simp [spaced_cons_cons, String.append_assoc]

/-! ## Expressions -/

mutual

/-- **The marks of an expression are written as its printed text, like one word.** -/
theorem write_marks (f : Formatter) (rest : List Mark) :
    ∀ expr : SExpr, f.write (expr.marks ++ rest) = (f.word expr.text).write rest
  | .atom value => by
      cases value <;> rfl
  | .list items => by
      have hwritten : f.write ((SExpr.list items).marks ++ rest) =
          f.opening.write ((SExpr.marksEach items).flatten ++ .closing :: rest) := by
        rw [SExpr.marks, Mark.enclosed]
        simp [write]
      have hclosed : ((SExpr.texts items).foldl word f.opening).closing =
          f.word (SExpr.list items).text := by
        rw [closing, foldl_word_opening, SExpr.text, word]
        simp [String.append_assoc, due_next]
      rw [hwritten, write_marksEach f.opening (.closing :: rest) items, ← hclosed]
      rfl

theorem write_marksEach (f : Formatter) (rest : List Mark) :
    ∀ items : List SExpr, f.write ((SExpr.marksEach items).flatten ++ rest) =
      ((SExpr.texts items).foldl word f).write rest
  | [] => rfl
  | item :: items => by
      rw [SExpr.marksEach, SExpr.texts, List.flatten_cons, List.append_assoc, List.foldl_cons,
        write_marks f _ item, write_marksEach (f.word item.text) rest items]

end

theorem write_blank_marks (expr : SExpr) :
    blank.write expr.marks = (⟨expr.text, true⟩, .ok ()) := by
  have hwritten := write_marks blank [] expr
  rw [List.append_nil] at hwritten
  rw [hwritten]
  simp [write, word, next, blank]

end Formatter

end SmtSession
