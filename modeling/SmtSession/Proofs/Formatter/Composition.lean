import Mathlib.Data.List.Induction
import SmtSession.Proofs.Formatter.Printing
import SmtSession.Proofs.Formatter.Refusal
import SmtSession.Term.Text

/-!
# Writing piece by piece

All that a formatter carries over from one piece of syntax to the next is
whether a blank is due.  None is due as long as nothing has been written, and
right after an opening parenthesis (`Formatter.due_reached_eq_false_iff`).  What
a piece of syntax adds is this blank and its own translation, and a blank is due
after it (`Formatter.write_node`).

Symbols, keywords, constants, S-expressions, indexes, identifiers, sorts and
values of attributes also have a plain text, which is put together without a
formatter (`Node.plainText?`).  In every dialect it is their translation.

## Strategy

* **What was written before is not looked at.**  A formatter that has written a
  text before goes on as it does without (`Formatter.write_after`).
* **A piece of syntax is one unit.**  It is a word or stands between parentheses
  (`Node.single`).  So its first mark takes the blank that is due, which
  nothing inside sees, and its last mark leaves a blank due
  (`Formatter.write_single`).
* **A plain text is that of an expression** which has the marks of the piece, and
  expressions are printed as they are written (`Formatter.write_blank_marks`).
-/

namespace SmtSession

/-! ## Units -/

/-- Marks that are one word, or stand between parentheses. -/
inductive Mark.Single : List Mark → Prop
  | word (text : String) : Single [.word text]
  | refused (value : String) : Single [.refused value]
  | enclosed (parts : List (List Mark)) : Single (Mark.enclosed parts)

namespace Formatter

/-- The formatter that has written a text before what it has written. -/
def after (prior : String) (f : Formatter) : Formatter :=
  ⟨prior ++ f.text, f.due⟩

section After

variable (prior : String) (f : Formatter)

theorem text_next : f.next.text = f.text ++ (if f.due then " " else "") := by
  unfold next
  split <;> simp

theorem next_after : (f.after prior).next = f.next.after prior := by
  obtain ⟨text, due⟩ := f
  cases due with
  | false => rfl
  | true => simp [next, after, String.append_assoc]

theorem opening_after : (f.after prior).opening = f.opening.after prior := by
  rw [opening, next_after]
  simp [opening, after, String.append_assoc]

theorem closing_after : (f.after prior).closing = f.closing.after prior := by
  simp [closing, after, String.append_assoc]

theorem word_after (text : String) : (f.after prior).word text = (f.word text).after prior := by
  rw [word, next_after]
  simp [word, after, String.append_assoc]

/-- What was written before makes no difference to what is written. -/
theorem write_after (marks : List Mark) :
    (f.after prior).write marks = ((f.write marks).1.after prior, (f.write marks).2) := by
  induction marks generalizing f with
  | nil => rfl
  | cons mark rest ih =>
      cases mark with
      | opening =>
          rw [write, opening_after]
          exact ih f.opening
      | closing =>
          rw [write, closing_after]
          exact ih f.closing
      | word text =>
          rw [write, word_after]
          exact ih (f.word text)
      | refused value => rfl

end After

/-- Once what stands between parentheses is written, a blank is due. -/
theorem due_of_write_enclosed {f g : Formatter} {parts : List (List Mark)}
    (h : f.write (Mark.enclosed parts) = (g, .ok ())) : g.due = true := by
  rw [Mark.enclosed, write_append] at h
  split at h
  · cases h
    rfl
  · cases h

/-- **A unit adds the blank that is due and its own text.** -/
theorem write_single {marks : List Mark} (hsingle : Mark.Single marks) (f : Formatter)
    {g : Formatter} (hwrite : blank.write marks = (g, .ok ())) :
    f.write marks = (⟨f.text ++ (if f.due then " " else "") ++ g.text, true⟩, .ok ()) := by
  rw [← text_next]
  cases hsingle with
  | word text =>
      have hblank : blank.next = ⟨"", true⟩ := rfl
      cases hwrite
      simp [write, word, hblank]
  | refused value => cases hwrite
  | enclosed parts =>
      have hopening : f.opening = blank.opening.after f.next.text := by
        simp [opening, after, blank, next]
      have hwrite' : f.write (Mark.enclosed parts) = (g.after f.next.text, .ok ()) := by
        show f.opening.write (parts.flatten ++ [.closing]) = _
        rw [hopening, write_after]
        exact congrArg (fun result : Formatter × Except RefusedString Unit =>
          (result.1.after f.next.text, result.2)) hwrite
      rw [hwrite', after, due_of_write_enclosed hwrite]

end Formatter

/-! ## Pieces of syntax -/

namespace Mark

theorem single_leftCalls (head first second : List Mark) (rest : List (List Mark)) :
    Single (Grouping.leftCalls head (first :: second :: rest)) := by
  rw [Grouping.leftCalls, List.foldl_cons]
  -- what has been applied so far is an application, whatever is left
  have hcall : Single (Grouping.call head [first, second]) := .enclosed _
  generalize Grouping.call head [first, second] = done at hcall
  induction rest generalizing done with
  | nil => exact hcall
  | cons arg rest ih => exact ih _ (.enclosed _)

theorem single_rightCalls (head first second : List Mark) (rest : List (List Mark)) :
    Single (Grouping.rightCalls head (first :: second :: rest)) := by
  rw [Grouping.rightCalls]
  · exact .enclosed _
  · simp

/-- An application is a unit, however it is grouped. -/
theorem single_apply (d : Dialect) (head : Ident) (args : List (List Mark)) :
    Single (d.apply head args) := by
  unfold Dialect.apply
  split
  · exact .enclosed _
  · next hmany =>
      match args, hmany with
      | first :: second :: rest, _ =>
          cases d.grouping head (first :: second :: rest).length with
          | flat => exact .enclosed _
          | left => exact single_leftCalls _ _ _ _
          | right => exact single_rightCalls _ _ _ _
          | chainable => exact .enclosed _
      | [_], hmany => simp at hmany
      | [], hmany => simp at hmany

end Mark

theorem SExpr.single (expr : SExpr) : Mark.Single expr.marks := by
  cases expr with
  | atom value => cases value <;> exact .word _
  | list items => exact .enclosed _

theorem Term.single (d : Dialect) (term : Term) : Mark.Single (term.marks d) := by
  cases term with
  | ident head =>
      rw [marks, ← head.marks_encode]
      exact head.encode.single
  | constant value =>
      cases value with
      | string value =>
          rw [marks]
          split
          · exact .word _
          · exact .refused _
      | numeral _ | decimal _ | hexadecimal _ | binary _ => exact .word _
  | app head args => exact Mark.single_apply d head _
  | letIn bindings body => exact .enclosed _
  | quantified quantifier vars body => exact .enclosed _

/-- **A piece of syntax is one unit.** -/
theorem Node.single (d : Dialect) (node : Node) : Mark.Single (node.marks d) := by
  cases node with
  | symbol name => exact .word _
  | keyword key => exact .word _
  | constant value => exact .word _
  | sexpr expr => exact expr.single
  | index index => cases index <;> exact .word _
  | ident ident =>
      rw [marks, ← ident.marks_encode]
      exact ident.encode.single
  | sort sort =>
      rw [marks, ← sort.marks_encode]
      exact sort.encode.single
  | sortedVar var => exact .enclosed _
  | binding name value => exact .enclosed _
  | term term => exact term.single d
  | attributeValue value =>
      cases value with
      | constant value => exact .word _
      | symbol name => exact .word _
      | list items => exact .enclosed _
  | sortDecl decl => exact .enclosed _
  | selector selector => exact .enclosed _
  | constructor constructor => exact .enclosed _
  | datatype datatype =>
      show Mark.Single datatype.marks
      unfold Datatype.marks
      split <;> exact .enclosed _
  | command command => exact .enclosed _

/-! ## Whether a blank is due -/

/-- Something that a formatter is told to do. -/
inductive FormatterCall where
  | next
  | opening
  | closing
  /-- A word of any kind: a symbol, a keyword, a constant, or a given text. -/
  | word (text : String)
  /-- Pieces of syntax without parentheses around them, such as a single one. -/
  | row (nodes : List Node)
  | list (nodes : List Node)
  | apply (head : Ident) (args : List Term)

namespace FormatterCall

/-- The marks that a call writes.  Making room for a word is writing an empty one. -/
def marks (d : Dialect) : FormatterCall → List Mark
  | .next => [.word ""]
  | .opening => [.opening]
  | .closing => [.closing]
  | .word text => [.word text]
  | .row nodes => (nodes.map (Node.marks d)).flatten
  | .list nodes => Mark.enclosed (nodes.map (Node.marks d))
  | .apply head args => d.apply head (args.map (Term.marks d))

end FormatterCall

namespace Formatter

/-- The formatter after a call, whether it fails or not. -/
def call (d : Dialect) (f : Formatter) : FormatterCall → Formatter
  | .next => f.next
  | .opening => f.opening
  | .closing => f.closing
  | .word text => f.word text
  | .row nodes => (f.write (nodes.map (Node.marks d)).flatten).1
  | .list nodes => (f.write (Mark.enclosed (nodes.map (Node.marks d)))).1
  | .apply head args => (f.write (d.apply head (args.map (Term.marks d)))).1

/-- The formatter that some calls lead to. -/
def reached (d : Dialect) (calls : List FormatterCall) : Formatter :=
  calls.foldl (call d) blank

/-- Marks up to the first refused string. -/
def written (marks : List Mark) : List Mark :=
  marks.takeWhile (·.refused?.isNone)

/-- The marks that some calls have written. -/
def trail (d : Dialect) (calls : List FormatterCall) : List Mark :=
  calls.flatMap fun call => written (call.marks d)

theorem call_eq_write (d : Dialect) (f : Formatter) (c : FormatterCall) :
    call d f c = (f.write (c.marks d)).1 := by
  cases c with
  | next =>
      have hword : f.word "" = f.next := by
        rw [word, String.append_empty]
      exact hword.symm
  | _ => rfl

theorem written_cons {mark : Mark} (h : mark.refused? = none) (rest : List Mark) :
    written (mark :: rest) = mark :: written rest := by
  simp [written, h]

/-- A blank is due unless an opening parenthesis was written last. -/
theorem due_write (f : Formatter) (marks : List Mark) :
    (f.write marks).1.due = (written marks).getLast?.elim f.due (· ≠ .opening) := by
  induction marks generalizing f with
  | nil => rfl
  | cons mark rest ih =>
      cases mark with
      | opening =>
          rw [write, ih, written_cons rfl, List.getLast?_cons]
          cases (written rest).getLast? <;> rfl
      | closing =>
          rw [write, ih, written_cons rfl, List.getLast?_cons]
          cases (written rest).getLast? <;> rfl
      | word text =>
          rw [write, ih, written_cons rfl, List.getLast?_cons]
          cases (written rest).getLast? with
          | none => simp [word]
          | some last => rfl
      | refused value => rfl

theorem due_reached (d : Dialect) (calls : List FormatterCall) :
    (reached d calls).due = (trail d calls).getLast?.elim false (· ≠ .opening) := by
  induction calls using List.reverseRecOn with
  | nil => rfl
  | append_singleton calls c ih =>
      rw [reached, List.foldl_concat, call_eq_write, due_write]
      simp only [trail, List.flatMap_append, List.flatMap_singleton, List.getLast?_append]
      cases (written (c.marks d)).getLast? with
      | none => exact ih
      | some last => rfl

/-- **No blank is due as long as nothing is written, and right after an opening parenthesis.** -/
theorem due_reached_eq_false_iff (d : Dialect) (calls : List FormatterCall) :
    (reached d calls).due = false ↔
      trail d calls = [] ∨ (trail d calls).getLast? = some .opening := by
  rw [due_reached]
  cases hlast : (trail d calls).getLast? with
  | none => simp [List.getLast?_eq_none_iff.mp hlast]
  | some last =>
      have hne : trail d calls ≠ [] := by
        rintro hnil
        simp [hnil] at hlast
      simp [hne]

end Formatter

/-! ## Plain texts -/

theorem SExpr.text_named {name : String} (h : (Symbol.mk name).isSimple) :
    (SExpr.named name).text = name := by
  simp [SExpr.named, SExpr.text, Atom.text, Symbol.text, h]

theorem Index.text_encode (index : Index) : index.encode.text = index.text := by
  cases index <;> rfl

theorem Ident.text_encode (ident : Ident) : ident.encode.text = ident.text := by
  unfold encode text
  split
  · rfl
  · next hindexes =>
    obtain ⟨index, indexes, hcons⟩ := List.exists_cons_of_ne_nil (by simpa using hindexes)
    have htexts : SExpr.text ∘ Index.encode = Index.text := funext Index.text_encode
    have hsymbol : (SExpr.atom (.symbol ident.symbol)).text = ident.symbol.text := rfl
    have hopening : "(_ " = "(" ++ "_" ++ " " := rfl
    rw [SExpr.text, SExpr.texts_eq_map, List.map_cons, List.map_cons, List.map_map, htexts,
      SExpr.text_named (by decide), hsymbol, hcons, List.map_cons, spaced_cons_cons,
      spaced_cons_cons, hopening]
    simp only [String.append_assoc]

namespace SortExpr

mutual

theorem text_encode : ∀ sort : SortExpr, sort.encode.text = sort.text
  | .app head [] => by rw [encode, text, head.text_encode]
  | .app head (param :: params) => by
      rw [encode, text, SExpr.text, SExpr.texts, SExpr.texts, head.text_encode,
        text_encode param, texts_encodeEach params, spaced_cons_cons]
      simp [String.append_assoc]

theorem texts_encodeEach : ∀ sorts : List SortExpr, SExpr.texts (encodeEach sorts) = texts sorts
  | [] => rfl
  | sort :: sorts => by
      rw [encodeEach, texts, SExpr.texts, text_encode sort, texts_encodeEach sorts]

end

end SortExpr

namespace Node

/-- The text of a piece of syntax that is printed without a formatter, if it is of such a kind. -/
def plainText? : Node → Option String
  | .symbol name => some name.text
  | .keyword key => some key.text
  | .constant value => some value.text
  | .sexpr expr => some expr.text
  | .index value => some value.text
  | .ident head => some head.text
  | .sort value => some value.text
  | .attributeValue value => some value.text
  | _ => none

/-- A plain text is the text of an expression that has the same marks. -/
theorem exists_sexpr_of_plainText? {node : Node} {text : String} (h : node.plainText? = some text)
    (d : Dialect) : ∃ expr : SExpr, node.marks d = expr.marks ∧ text = expr.text := by
  cases node with
  | symbol name => cases h; exact ⟨.atom (.symbol name), rfl, rfl⟩
  | keyword key => cases h; exact ⟨.atom (.keyword key), rfl, rfl⟩
  | constant value => cases h; exact ⟨.atom (.constant value), rfl, rfl⟩
  | sexpr expr => cases h; exact ⟨expr, rfl, rfl⟩
  | index index => cases h; exact ⟨index.encode, index.marks_encode.symm, index.text_encode.symm⟩
  | ident ident => cases h; exact ⟨ident.encode, ident.marks_encode.symm, ident.text_encode.symm⟩
  | sort sort => cases h; exact ⟨sort.encode, sort.marks_encode.symm, sort.text_encode.symm⟩
  | attributeValue value =>
      cases h
      cases value with
      | constant value => exact ⟨.atom (.constant value), rfl, rfl⟩
      | symbol name => exact ⟨.atom (.symbol name), rfl, rfl⟩
      | list items => exact ⟨.list items, rfl, rfl⟩
  | _ => cases h

end Node

/-- **Plain texts are translations, in every dialect.** -/
theorem translate_of_plainText? {node : Node} {text : String} (h : node.plainText? = some text)
    (d : Dialect) : translate d node = .ok text := by
  obtain ⟨expr, hmarks, rfl⟩ := Node.exists_sexpr_of_plainText? h d
  rw [translate, hmarks, Formatter.write_blank_marks]

/-! ## Writing a piece of syntax -/

namespace Formatter

/-- **Writing is compositional.**  In whatever state some calls have left a formatter, a blank is
due unless nothing is written yet or an opening parenthesis was written last.  A piece of syntax
that has a translation adds the blank that is due and its translation, and a blank is due after it.
The translation is the plain text of the piece, if it has one. -/
theorem write_node (d : Dialect) (calls : List FormatterCall) (node : Node) :
    ((reached d calls).due = false ↔
        trail d calls = [] ∨ (trail d calls).getLast? = some .opening) ∧
      (∀ text, translate d node = .ok text →
        (reached d calls).write (node.marks d) =
          (⟨(reached d calls).text ++ (if (reached d calls).due then " " else "") ++ text, true⟩,
            .ok ())) ∧
      ∀ text, node.plainText? = some text → translate d node = .ok text := by
  refine ⟨due_reached_eq_false_iff d calls, fun text htext => ?_, fun text hplain => ?_⟩
  · unfold translate at htext
    split at htext
    · cases htext
    · next g hwrite =>
      cases htext
      exact write_single (node.single d) (reached d calls) hwrite
  · exact translate_of_plainText? hplain d

/-- A difference of three terms after an opening parenthesis, a word and an empty row, and a sort
after an opening parenthesis. -/
theorem write_node_nested :
    (reached .z3 [.opening, .word "=", .row []]).write
        (Node.marks .z3 (.term (.app (.plain ⟨"-"⟩)
          [.ident (.plain ⟨"a"⟩), .ident (.plain ⟨"b"⟩), .ident (.plain ⟨"c"⟩)]))) =
      (⟨"(= (- (- a b) c)", true⟩, .ok ()) ∧
    (reached .standard [.opening]).write
        (Node.marks .standard
          (.sort (.app (.plain ⟨"Set"⟩) [.app ⟨⟨"BitVec"⟩, [.numeral 8]⟩ []]))) =
      (⟨"((Set (_ BitVec 8))", true⟩, .ok ()) := by
  obtain ⟨-, hterm, -⟩ := write_node .z3 [.opening, .word "=", .row []]
    (.term (.app (.plain ⟨"-"⟩)
      [.ident (.plain ⟨"a"⟩), .ident (.plain ⟨"b"⟩), .ident (.plain ⟨"c"⟩)]))
  obtain ⟨-, hsort, hplain⟩ := write_node .standard [.opening]
    (.sort (.app (.plain ⟨"Set"⟩) [.app ⟨⟨"BitVec"⟩, [.numeral 8]⟩ []]))
  refine ⟨?_, ?_⟩
  · exact hterm "(- (- a b) c)" (by decide +kernel)
  · exact hsort "(Set (_ BitVec 8))" (hplain _ (by decide +kernel))

end Formatter

end SmtSession
