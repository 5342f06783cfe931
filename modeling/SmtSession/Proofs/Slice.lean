import SmtSession.Proofs.Location

/-!
# Pieces of a text

A span delimits a piece of a text: what stands from its start up to its end.
Places move forward through a text, so if the text is cut where the span starts
and where it ends, the piece is what lies between the two cuts
(`Span.slice_of_append`).
-/

namespace SmtSession

/-- An element of two lists side by side belongs to the first of them or to the second. -/
theorem exists_of_append_eq_append_cons {α : Type} {front back before after : List α} {a : α}
    (h : front ++ back = before ++ a :: after) :
    (∃ more, front = before ++ a :: more) ∨
      ∃ more, before = front ++ more ∧ back = more ++ a :: after := by
  rcases List.append_eq_append_iff.mp h with ⟨more, hbefore, hback⟩ | ⟨more, hfront, hmore⟩
  · exact .inr ⟨more, hbefore, hback⟩
  · cases more with
    | nil => exact .inr ⟨[], by simpa using hfront.symm, by simpa using hmore.symm⟩
    | cons b more =>
        obtain ⟨rfl, -⟩ := List.cons_eq_cons.mp hmore
        exact .inl ⟨more, hfront⟩

namespace Position

theorem lt_through_cons (p : Position) (c : Char) (chars : List Char) :
    p < p.through (c :: chars) :=
  lt_of_lt_of_not_lt (p.lt_next c) ((p.next c).not_through_lt chars)

/-- What stands behind a place stands behind all places before it. -/
theorem not_through_lt_of_not_lt {p start : Position} (h : ¬ p < start) (chars : List Char) :
    ¬ p.through chars < start :=
  fun hlt => h (lt_of_not_lt_of_lt (p.not_through_lt chars) hlt)

end Position

namespace Span

/-- Whether the character at the place is one of the stretch. -/
def Covers (span : Span) (p : Position) : Prop :=
  ¬ p < span.start ∧ p < span.stop

instance (span : Span) (p : Position) : Decidable (span.Covers p) :=
  inferInstanceAs (Decidable (¬ p < span.start ∧ p < span.stop))

/-- The characters of the stretch, of those that stand from the given place on. -/
def charsFrom (span : Span) (p : Position) : List Char → List Char
  | [] => []
  | c :: rest =>
      if span.Covers p then c :: charsFrom span (p.next c) rest else charsFrom span (p.next c) rest

/-- The piece of a text that the span delimits. -/
def slice (span : Span) (text : String) : String :=
  String.ofList (span.charsFrom .first text.toList)

/-- The span of a piece, given what stands before it in the text. -/
def ofPiece (before piece : List Char) : Span where
  start := Position.first.through before
  last := Position.first.through (before ++ piece.dropLast)
  stop := Position.first.through (before ++ piece)

section CharsFrom

variable {span : Span} {p : Position} {chars : List Char}

theorem charsFrom_append (more : List Char) :
    span.charsFrom p (chars ++ more) =
      span.charsFrom p chars ++ span.charsFrom (p.through chars) more := by
  induction chars generalizing p with
  | nil => rfl
  | cons c chars ih =>
      rw [List.cons_append, charsFrom, charsFrom, ih]
      split <;> rfl

/-- Nothing is taken before the start. -/
theorem charsFrom_before (h : ¬ span.start < p.through chars) : span.charsFrom p chars = [] := by
  induction chars generalizing p with
  | nil => rfl
  | cons c chars ih =>
      have hbefore : p < span.start :=
        Position.lt_of_lt_of_not_lt (p.lt_through_cons c chars) h
      have hcovers : ¬ span.Covers p := fun hcovers => hcovers.1 hbefore
      rw [charsFrom, if_neg hcovers]
      exact ih h

/-- Everything is taken between the start and the end. -/
theorem charsFrom_within (hstart : ¬ p < span.start) (hstop : ¬ span.stop < p.through chars) :
    span.charsFrom p chars = chars := by
  induction chars generalizing p with
  | nil => rfl
  | cons c chars ih =>
      have hcovers : span.Covers p :=
        ⟨hstart, Position.lt_of_lt_of_not_lt (p.lt_through_cons c chars) hstop⟩
      have hnext : ¬ p.next c < span.start := Position.not_through_lt_of_not_lt hstart [c]
      rw [charsFrom, if_pos hcovers, ih hnext hstop]

/-- Nothing is taken after the end. -/
theorem charsFrom_after (h : ¬ p < span.stop) : span.charsFrom p chars = [] := by
  induction chars generalizing p with
  | nil => rfl
  | cons c chars ih =>
      have hcovers : ¬ span.Covers p := fun hcovers => h hcovers.2
      have hnext : ¬ p.next c < span.stop := Position.not_through_lt_of_not_lt h [c]
      rw [charsFrom, if_neg hcovers, ih hnext]

end CharsFrom

/-- **The piece between two cuts is the slice of the span that starts at the one and ends at the
other.** -/
theorem slice_of_append {span : Span} {text : String} {before piece after : List Char}
    (htext : text.toList = before ++ (piece ++ after))
    (hstart : span.start = Position.first.through before)
    (hstop : span.stop = Position.first.through (before ++ piece)) :
    span.slice text = String.ofList piece := by
  have hbefore : span.charsFrom .first before = [] :=
    charsFrom_before (hstart ▸ Position.lt_irrefl _)
  have hpiece : span.charsFrom (Position.first.through before) piece = piece := by
    refine charsFrom_within (hstart ▸ Position.lt_irrefl _) ?_
    rw [← Position.through_append, ← hstop]
    exact Position.lt_irrefl _
  have hafter : span.charsFrom (Position.first.through (before ++ piece)) after = [] :=
    charsFrom_after (hstop ▸ Position.lt_irrefl _)
  rw [slice, htext, charsFrom_append, charsFrom_append, hbefore, hpiece,
    ← Position.through_append, hafter, List.nil_append, List.append_nil]

/-! ## Spans of pieces -/

section OfPiece

variable {before piece : List Char}

@[simp] theorem start_ofPiece (before piece : List Char) :
    (ofPiece before piece).start = Position.first.through before := rfl

@[simp] theorem stop_ofPiece (before piece : List Char) :
    (ofPiece before piece).stop = Position.first.through (before ++ piece) := rfl

/-- The last character of a piece ends it. -/
theorem stop_ofPiece_concat (before piece : List Char) (c : Char) :
    (ofPiece before (piece ++ [c])).stop = (ofPiece before (piece ++ [c])).last.next c := by
  simp [ofPiece]

theorem forward_ofPiece (hne : piece ≠ []) : (ofPiece before piece).Forward := by
  obtain ⟨inner, c, rfl⟩ := (List.eq_nil_or_concat piece).resolve_left hne
  rw [List.concat_eq_append]
  refine ⟨?_, ?_⟩
  · simpa [ofPiece] using (Position.first.through before).not_through_lt inner
  · rw [stop_ofPiece_concat]
    exact Position.lt_next _ c

/-- The places of a piece are covered by its span. -/
theorem covers_ofPiece {front back : List Char} {c : Char} (h : piece = front ++ c :: back) :
    (ofPiece before piece).Covers (Position.first.through (before ++ front)) := by
  rw [h]
  refine ⟨?_, ?_⟩
  · simpa [ofPiece] using (Position.first.through before).not_through_lt front
  · simpa [ofPiece] using
      (Position.first.through (before ++ front)).lt_through_cons c back

end OfPiece

end Span

/-- A token is marked with the span of its characters. -/
theorem Cursor.span_past_eq {cursor : Cursor} {lexeme : Lexeme} {before : List Char}
    (hposition : cursor.position = Position.first.through before) (hne : lexeme.chars ≠ []) :
    (cursor.past lexeme).span = .ofPiece (before ++ lexeme.blanks) lexeme.chars := by
  obtain ⟨inner, c, hchars⟩ := List.eq_nil_or_concat lexeme.chars |>.resolve_left hne
  rw [List.concat_eq_append] at hchars
  rw [cursor.span_past_concat hchars, hposition, hchars, Span.ofPiece, List.dropLast_concat]
  simp

end SmtSession
