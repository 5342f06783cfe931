import Mathlib.Data.List.Forall2
import SmtSession.Formatter.Node
import SmtSession.Proofs.SExpr.Tokens

/-!
# What a formatter writes is a layout

A formatter puts one blank where one is due and nothing elsewhere.  A blank is
due after every word, so what it writes for the marks of a token list is a
layout of this list (`exists_laid_write`).

Refused strings stand outside this picture.  A text exists only if the marks
have none (`map_accepted_of_write`), and then the marks are those of a token
list in which the string is spelled out.  So marks are compared with those of
an expression up to refused strings (`SExpr.MarkedBy`).
-/

namespace SmtSession

/-! ## Marks of tokens -/

/-- The mark that a token is written by. -/
def Mark.ofToken : Token → Mark
  | .opening => .opening
  | .closing => .closing
  | token => .word (String.ofList token.spelling)

theorem Mark.ofToken_word {token : Token} (h : token.isParen = false) :
    Mark.ofToken token = .word (String.ofList token.spelling) := by
  cases token with
  | opening => simp [Token.isParen] at h
  | closing => simp [Token.isParen] at h
  | ident name => rfl
  | keyword name => rfl
  | constant value => rfl

theorem Symbol.marks_eq (symbol : Symbol) :
    symbol.marks = [Mark.ofToken (.ident symbol.name)] := by
  simp [Symbol.marks, Mark.ofToken, Token.spelling]

theorem Constant.marks_eq (value : Constant) : value.marks = [Mark.ofToken (.constant value)] := by
  simp [Constant.marks, Mark.ofToken, Token.spelling]

theorem Keyword.marks_eq (key : Keyword) : key.marks = [Mark.ofToken (.keyword key.name)] := by
  simp [Keyword.marks, Mark.ofToken, Token.spelling]

theorem Atom.marks_eq (value : Atom) : value.marks = [Mark.ofToken value.token] := by
  cases value with
  | constant value => exact value.marks_eq
  | symbol name => exact name.marks_eq
  | keyword key => exact key.marks_eq

namespace SExpr

theorem marksEach_eq_map (items : List SExpr) : marksEach items = items.map marks := by
  induction items with
  | nil => rfl
  | cons item items ih => rw [marksEach, ih, List.map_cons]

mutual

/-- The marks of an expression are those of its tokens. -/
theorem marks_eq_map_ofToken : ∀ expr : SExpr, expr.marks = expr.tokens.map Mark.ofToken
  | .atom value => by rw [marks, tokens, value.marks_eq, List.map_singleton]
  | .list items => by
      rw [marks, tokens, Mark.enclosed, flatten_marksEach items]
      simp [Mark.ofToken]

/-- The same for some expressions, one after the other. -/
theorem flatten_marksEach : ∀ items : List SExpr,
    (marksEach items).flatten = (tokensEach items).map Mark.ofToken
  | [] => rfl
  | item :: items => by
      rw [marksEach, tokensEach, List.flatten_cons, List.map_append, marks_eq_map_ofToken item,
        flatten_marksEach items]

end

end SExpr

/-! ## Writing -/

namespace Formatter

/-- The blank that is due. -/
def room (f : Formatter) : List Char :=
  if f.due then [' '] else []

theorem gap_room (f : Formatter) : Gap f.room := by
  unfold room
  split
  · exact .blank rfl .nil
  · exact .nil

theorem room_ne_nil {f : Formatter} (h : f.due) : f.room ≠ [] := by
  simp [room, h]

@[simp] theorem toList_next_text (f : Formatter) :
    f.next.text.toList = f.text.toList ++ f.room := by
  unfold next room
  split <;> simp

@[simp] theorem due_next (f : Formatter) : f.next.due = true := by
  unfold next
  split <;> simp_all

/-- **The marks of a token list are written as a layout of it.** -/
theorem exists_laid_write (tokens : List Token) (f : Formatter) :
    ∃ g text, f.write (tokens.map Mark.ofToken) = (g, .ok ()) ∧
      g.text.toList = f.text.toList ++ text ∧ Laid f.due tokens text := by
  induction tokens generalizing f with
  | nil => exact ⟨f, [], rfl, by simp, .nil .nil⟩
  | cons token tokens ih =>
      cases hparen : token.isParen with
      | false =>
          -- a word takes the blank that is due, and leaves one due
          obtain ⟨g, text, hwrite, htext, hlaid⟩ := ih (f.word (String.ofList token.spelling))
          refine ⟨g, f.room ++ token.spelling ++ text, ?_, ?_, ?_⟩
          · rw [List.map_cons, Mark.ofToken_word hparen]
            exact hwrite
          · simpa [word] using htext
          · exact .cons f.gap_room (fun hdue _ => room_ne_nil hdue)
              (by simpa [word, hparen] using hlaid)
      | true =>
          cases token with
          | opening =>
              obtain ⟨g, text, hwrite, htext, hlaid⟩ := ih f.opening
              exact ⟨g, f.room ++ ['('] ++ text, hwrite, by simpa [opening] using htext,
                .cons f.gap_room (fun _ h => absurd h (by simp [Token.isParen])) hlaid⟩
          | closing =>
              -- a blank is due after it that a layout does not ask for
              obtain ⟨g, text, hwrite, htext, hlaid⟩ := ih f.closing
              exact ⟨g, [] ++ [')'] ++ text, hwrite, by simpa [closing] using htext,
                .cons .nil (fun _ h => absurd h (by simp [Token.isParen])) hlaid.loosen⟩
          | ident name => simp [Token.isParen] at hparen
          | keyword name => simp [Token.isParen] at hparen
          | constant value => simp [Token.isParen] at hparen

end Formatter

/-! ## Refused strings -/

/-- The mark with a refused string spelled out. -/
def Mark.accepted : Mark → Mark
  | .refused value => .word (quoteString value)
  | mark => mark

theorem Mark.map_accepted_enclosed (parts : List (List Mark)) :
    (Mark.enclosed parts).map Mark.accepted =
      Mark.enclosed (parts.map (·.map Mark.accepted)) := by
  simp [Mark.enclosed, Mark.accepted, List.map_flatten]

theorem SExpr.map_accepted_marks (expr : SExpr) : expr.marks.map Mark.accepted = expr.marks := by
  have haccepted : Mark.accepted ∘ Mark.ofToken = Mark.ofToken := by
    funext token
    cases token <;> rfl
  rw [expr.marks_eq_map_ofToken, List.map_map, haccepted]

/-- The marks are those of the expression, up to refused strings. -/
def SExpr.MarkedBy (marks : List Mark) (expr : SExpr) : Prop :=
  marks.map Mark.accepted = expr.marks

namespace SExpr

theorem MarkedBy.of_eq {marks : List Mark} {expr : SExpr} (h : expr.marks = marks) :
    MarkedBy marks expr := by
  rw [MarkedBy, ← h, map_accepted_marks]

/-- A list is marked by the marks of its items, between parentheses. -/
theorem markedBy_list {parts : List (List Mark)} {exprs : List SExpr}
    (h : List.Forall₂ MarkedBy parts exprs) : MarkedBy (Mark.enclosed parts) (.list exprs) := by
  have hparts : parts.map (·.map Mark.accepted) = marksEach exprs := by
    induction h with
    | nil => rfl
    | cons hfirst _ ih => rw [List.map_cons, marksEach, ih, hfirst]
  rw [MarkedBy, Mark.map_accepted_enclosed, hparts, marks]

/-- Marks and items that come from the same values match one by one. -/
theorem forall₂_markedBy {α : Type} {mark : α → List Mark} {encode : α → SExpr}
    (h : ∀ value, MarkedBy (mark value) (encode value)) (values : List α) :
    List.Forall₂ MarkedBy (values.map mark) (values.map encode) := by
  rw [List.forall₂_map_left_iff, List.forall₂_map_right_iff]
  exact List.forall₂_same.mpr fun value _ => h value

theorem markedBy_list_map {α : Type} {mark : α → List Mark} {encode : α → SExpr}
    (h : ∀ value, MarkedBy (mark value) (encode value)) (values : List α) :
    MarkedBy (Mark.enclosed (values.map mark)) (.list (values.map encode)) :=
  markedBy_list (forall₂_markedBy h values)

end SExpr

theorem Symbol.markedBy (name : Symbol) : SExpr.MarkedBy name.marks (.atom (.symbol name)) := rfl

/-- Marks that are all written have no refused string. -/
theorem map_accepted_of_write {marks : List Mark} {f g : Formatter}
    (h : f.write marks = (g, .ok ())) : marks.map Mark.accepted = marks := by
  induction marks generalizing f with
  | nil => rfl
  | cons mark rest ih =>
      cases mark with
      | opening => rw [List.map_cons, ih (f := f.opening) h]; rfl
      | closing => rw [List.map_cons, ih (f := f.closing) h]; rfl
      | word text => rw [List.map_cons, ih (f := f.word text) h]; rfl
      | refused value => simp [Formatter.write] at h

/-- A text in a dialect is a layout of the tokens that its marks stand for. -/
theorem laid_of_translate {d : Dialect} {node : Node} {tokens : List Token} {text : String}
    (hmarks : (node.marks d).map Mark.accepted = tokens.map Mark.ofToken)
    (htext : translate d node = .ok text) : Laid false tokens text.toList := by
  unfold translate at htext
  split at htext
  · simp at htext
  · next f hwrite =>
      cases htext
      obtain ⟨g, laid, hwrite', htext, hlaid⟩ := Formatter.exists_laid_write tokens .blank
      rw [← hmarks, map_accepted_of_write hwrite, hwrite] at hwrite'
      cases hwrite'
      simpa [htext, Formatter.blank] using hlaid

end SmtSession
