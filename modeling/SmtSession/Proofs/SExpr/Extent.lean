import SmtSession.Proofs.Location
import SmtSession.Proofs.SExpr.RoundTrip
import SmtSession.Proofs.Token.Bare

/-!
# Where an expression ends

The span of a list joins those of its parentheses.  Since places move forward,
the join ends where the closing parenthesis does, so an expression ends where
the last of its tokens ends (`stop_of_parseWithin`).
-/

namespace SmtSession

/-- The span is not empty and lies before the position. -/
structure Span.Before (span : Span) (p : Position) : Prop where
  last_lt_stop : span.last < span.stop
  not_lt_stop : ¬ p < span.stop

theorem Span.Before.through {span : Span} {p : Position} (h : span.Before p)
    (chars : List Char) : span.Before (p.through chars) := by
  refine ⟨h.last_lt_stop, ?_⟩
  intro hlt
  exact p.not_through_lt chars (Position.lt_of_lt_of_not_lt hlt h.not_lt_stop)

theorem Span.Forward.before_stop {span : Span} (h : span.Forward) : span.Before span.stop :=
  ⟨h.last_lt_stop, span.stop.lt_irrefl⟩

/-- Joined with a later span, a span ends where the later one does. -/
theorem Span.stop_union {a b : Span} (h : a.Before b.start) (hb : b.Forward) :
    (a.union b).stop = b.stop := by
  have hstop : ¬ b.last < a.stop := by
    intro hlt
    exact hb.not_last_lt_start (Position.lt_of_lt_of_not_lt hlt h.not_lt_stop)
  have hbefore : a.last < b.last := Position.lt_of_lt_of_not_lt h.last_lt_stop hstop
  have hafter : a.stop < b.stop := Position.lt_of_not_lt_of_lt hstop hb.last_lt_stop
  simp [union, hbefore, hafter]

namespace Progress

variable {stack after : List OpenList} {tree : Tree} {token : Token} {span : Span}

/-- A list that is open after a token was open before it, or the token opens it. -/
theorem map_span_of_next (h : next stack (.ok ⟨token, span⟩) = .within after) :
    ∀ opened ∈ after.map OpenList.span, opened = span ∨ opened ∈ stack.map OpenList.span := by
  obtain ⟨-, hnext⟩ | ⟨-, -, hnext⟩ | ⟨tree, below, hcompletes, hnext⟩ :=
    next_cases stack token span
  all_goals rw [hnext] at h
  · cases h
    intro opened hopened
    exact List.mem_cons.mp hopened
  · cases h
  · -- the tree is put on a list that was open
    obtain ⟨top, rest, rfl, rfl⟩ := settle_eq_within_iff.mp h
    intro opened hopened
    right
    cases hcompletes with
    | atom value => exact hopened
    | list closed => exact List.mem_cons_of_mem _ hopened

/-- An expression ends with the token that completes it. -/
theorem stop_of_next (h : next stack (.ok ⟨token, span⟩) = .done (.ok tree))
    (hstack : ∀ opened ∈ stack.map OpenList.span, opened.Before span.start)
    (hspan : span.Forward) : tree.span.stop = span.stop := by
  obtain ⟨-, hnext⟩ | ⟨-, -, hnext⟩ | ⟨tree, below, hcompletes, hnext⟩ :=
    next_cases stack token span
  all_goals rw [hnext] at h
  · cases h
  · cases h
  · obtain ⟨rfl, rfl⟩ := settle_eq_done_iff.mp h
    cases hcompletes with
    | atom value => rfl
    | list top => exact Span.stop_union (hstack top.span (by simp)) hspan

end Progress

/-- The characters that a lexeme takes from its source. -/
def Lexeme.taken (lexeme : Lexeme) : List Char :=
  lexeme.blanks ++ lexeme.chars

/-- **An expression ends where its last token ends.** -/
theorem stop_of_parseWithin {lexemes : List Lexeme} {cursor : Cursor} {stack : List OpenList}
    {tree : Tree} (hparse : parseWithin stack (place cursor lexemes) = (.ok tree, []))
    (hchars : ∀ lexeme ∈ lexemes, lexeme.chars ≠ [])
    (hstack : ∀ opened ∈ stack.map OpenList.span, opened.Before cursor.position) :
    tree.span.stop = cursor.position.through (lexemes.flatMap Lexeme.taken) := by
  induction lexemes generalizing cursor stack with
  | nil => simp [place, parseWithin] at hparse
  | cons lexeme lexemes ih =>
      rw [List.forall_mem_cons] at hchars
      obtain ⟨hstart, hstop, hforward⟩ := cursor.span_past hchars.1
      have hposition : (cursor.past lexeme).position = cursor.position.through lexeme.taken :=
        cursor.position_past lexeme
      rw [place, parseWithin_cons] at hparse
      cases htoken : lexeme.token with
      | error error => simp [Lexeme.item, htoken, Progress.next, Progress.resume] at hparse
      | ok token =>
          simp only [Lexeme.item, htoken] at hparse
          generalize (cursor.past lexeme).span = span at hstart hstop hforward hparse
          cases hnext : Progress.next stack (.ok ⟨token, span⟩) with
          | within after =>
              rw [hnext] at hparse
              have hafter : ∀ opened ∈ after.map OpenList.span,
                  opened.Before (cursor.past lexeme).position := by
                intro opened hopened
                rcases Progress.map_span_of_next hnext opened hopened with rfl | hopened
                · rw [← hstop]
                  exact hforward.before_stop
                · rw [hposition]
                  exact (hstack opened hopened).through lexeme.taken
              rw [ih hparse hchars.2 hafter, hposition, List.flatMap_cons,
                Position.through_append]
          | done result =>
              rw [hnext] at hparse
              obtain ⟨rfl, hrest⟩ := Prod.mk.inj hparse
              obtain rfl : lexemes = [] := by
                cases lexemes with
                | nil => rfl
                | cons lexeme lexemes => simp [place] at hrest
              have hbefore : ∀ opened ∈ stack.map OpenList.span, opened.Before span.start := by
                intro opened hopened
                rw [hstart]
                exact (hstack opened hopened).through lexeme.blanks
              rw [Progress.stop_of_next hnext hbefore hforward, hstop, hposition]
              simp

/-! ## The end of a body -/

theorem Token.SpelledAs.ne_nil {token : Token} {chars : List Char} (h : token.SpelledAs chars) :
    chars ≠ [] := by
  cases h <;> simp

namespace Bare

variable {tokens : List Token} {body tail : List Char}

/-- Reading takes the body, and leaves the blanks after it. -/
theorem flatMap_taken (h : Bare tokens body) (htail : ∀ c ∈ tail, Text.isBlank c) :
    (lexemes ((body ++ tail).map Except.ok)).flatMap Lexeme.taken = body ∧
      ∀ lexeme ∈ lexemes ((body ++ tail).map Except.ok), lexeme.chars ≠ [] := by
  induction h with
  | nil => simp [lexemes_eq, (gap_of_blanks htail).nextLexeme_eq_none]
  | @cons blanks chars more token tokens hblanks hspelled hends _ ih =>
      have hnext : nextLexeme ((blanks ++ (chars ++ more) ++ tail).map Except.ok) =
          some ⟨blanks, chars, .ok token, (more ++ tail).map Except.ok⟩ :=
        nextLexeme_eq_some_iff.mpr
          ⟨by simp, gap_of_blanks hblanks, hspelled, hends.append_blanks htail⟩
      rw [lexemes_eq, hnext]
      refine ⟨?_, List.forall_mem_cons.mpr ⟨hspelled.ne_nil, ih.2⟩⟩
      simp only [List.flatMap_cons, ih.1, Lexeme.taken, List.append_assoc]

/-- The expression of a text without comments ends with the body of the text. -/
theorem stop_eq {text : String} {tree : Tree} (hparse : parseText text = .ok tree)
    (h : Bare tokens body) (htail : ∀ c ∈ tail, Text.isBlank c)
    (htext : text.toList = body ++ tail) :
    tree.span.stop = Position.first.through body := by
  obtain ⟨htaken, hchars⟩ := h.flatMap_taken htail
  rw [parseText_eq_ok_iff, itemsOfText, items, Source.ofText, htext] at hparse
  rw [stop_of_parseWithin hparse hchars (by simp), htaken]
  rfl

end Bare

end SmtSession
