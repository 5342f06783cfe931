import SmtSession.Token.Lexer

/-!
# Places move forward

Reading only moves forward.  A token is therefore marked with a span that is not
empty, that begins where the blanks before the token end, and that ends where
reading goes on (`Cursor.span_past`).
-/

namespace SmtSession

namespace Position

/-- The position after some characters. -/
def through (p : Position) (chars : List Char) : Position :=
  chars.foldl next p

@[simp] theorem through_nil (p : Position) : p.through [] = p := rfl

@[simp] theorem through_cons (p : Position) (c : Char) (chars : List Char) :
    p.through (c :: chars) = (p.next c).through chars := rfl

@[simp] theorem through_append (p : Position) (chars more : List Char) :
    p.through (chars ++ more) = (p.through chars).through more :=
  List.foldl_append

variable {a b c : Position}

theorem lt_iff : a < b ↔ a.line < b.line ∨ a.line = b.line ∧ a.column < b.column := Iff.rfl

theorem lt_irrefl (p : Position) : ¬ p < p := by
  rw [lt_iff]
  omega

theorem lt_trans (h : a < b) (h' : b < c) : a < c := by
  rw [lt_iff] at *
  omega

theorem lt_of_lt_of_not_lt (h : a < b) (h' : ¬ c < b) : a < c := by
  rw [lt_iff] at *
  omega

theorem lt_of_not_lt_of_lt (h : ¬ b < a) (h' : b < c) : a < c := by
  rw [lt_iff] at *
  omega

theorem lt_next (p : Position) (c : Char) : p < p.next c := by
  rw [lt_iff, next]
  split <;> simp

theorem not_through_lt (p : Position) (chars : List Char) : ¬ p.through chars < p := by
  induction chars generalizing p with
  | nil => exact p.lt_irrefl
  | cons c chars ih => exact fun h => ih (p.next c) (lt_trans h (p.lt_next c))

end Position

/-- The span is not empty, and its ends are in order. -/
structure Span.Forward (span : Span) : Prop where
  not_last_lt_start : ¬ span.last < span.start
  last_lt_stop : span.last < span.stop

namespace Cursor

@[simp] theorem start_through (cursor : Cursor) (chars : List Char) :
    (cursor.through chars).start = cursor.start := by
  induction chars generalizing cursor with
  | nil => rfl
  | cons c chars ih => exact ih (cursor.advance c)

@[simp] theorem position_through (cursor : Cursor) (chars : List Char) :
    (cursor.through chars).position = cursor.position.through chars := by
  induction chars generalizing cursor with
  | nil => rfl
  | cons c chars ih => exact ih (cursor.advance c)

theorem through_concat (cursor : Cursor) (chars : List Char) (c : Char) :
    cursor.through (chars ++ [c]) = (cursor.through chars).advance c := by
  rw [through, List.foldl_append]
  rfl

theorem position_past (cursor : Cursor) (lexeme : Lexeme) :
    (cursor.past lexeme).position =
      cursor.position.through (lexeme.blanks ++ lexeme.chars) := by
  unfold past
  dsimp only
  split
  · next hempty => simp [List.isEmpty_iff.mp hempty]
  · simp [mark, reset]

/-- The span of a token goes from its first character to its last one. -/
theorem span_past_concat (cursor : Cursor) {lexeme : Lexeme} {inner : List Char} {c : Char}
    (hchars : lexeme.chars = inner ++ [c]) :
    (cursor.past lexeme).span =
      ⟨cursor.position.through lexeme.blanks,
        cursor.position.through (lexeme.blanks ++ inner),
        cursor.position.through (lexeme.blanks ++ (inner ++ [c]))⟩ := by
  have hpast : cursor.past lexeme =
      ((Cursor.reset (cursor.position.through lexeme.blanks)).through inner).advance c := by
    simp [past, mark, hchars, through_concat]
  have hlast := (cursor.position.through lexeme.blanks).not_through_lt inner
  have hstop := (cursor.position.through lexeme.blanks).not_through_lt (inner ++ [c])
  rw [Position.through_append, Position.through_cons, Position.through_nil] at hstop
  rw [hpast]
  simp [span, Span.of, advance, reset, hlast, hstop]

/-- The span of a token goes from after the blanks to where reading goes on. -/
theorem span_past (cursor : Cursor) {lexeme : Lexeme} (hne : lexeme.chars ≠ []) :
    (cursor.past lexeme).span.start = cursor.position.through lexeme.blanks ∧
      (cursor.past lexeme).span.stop = (cursor.past lexeme).position ∧
      (cursor.past lexeme).span.Forward := by
  obtain ⟨inner, c, hchars⟩ := List.eq_nil_or_concat lexeme.chars |>.resolve_left hne
  rw [List.concat_eq_append] at hchars
  rw [cursor.span_past_concat hchars, cursor.position_past, hchars]
  refine ⟨rfl, rfl, ?_, ?_⟩
  · simpa using (cursor.position.through lexeme.blanks).not_through_lt inner
  · simpa using (cursor.position.through (lexeme.blanks ++ inner)).lt_next c

end Cursor

end SmtSession
