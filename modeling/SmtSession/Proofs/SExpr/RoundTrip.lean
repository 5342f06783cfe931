import SmtSession.Proofs.SExpr.Tokens
import SmtSession.Proofs.Token.Grammar

/-!
# Reading and printing S-expressions

An expression is read from a text exactly when the text spells its tokens
(`SExpr.readFrom_iff`).  One direction is `parseWithin_tokens`; for the other
the reader's stack is seen as the tokens that have led to it
(`OpenList.tokensOf`), to which every item read adds its own.

The printed text of an expression is one of its layouts (`SExpr.laid_text`), so
an expression that was read from some text is read again from its own.
-/

namespace SmtSession

/-! ## What has been read -/

/-- The tokens after which the given lists are open. -/
def OpenList.tokensOf : List OpenList → List Token
  | [] => []
  | top :: below =>
      tokensOf below ++ .opening :: SExpr.tokensEach (Tree.sexprs top.items.reverse)

namespace Progress

/-- The tokens that have led to the progress, unless there was an error. -/
def tokens? : Progress → Option (List Token)
  | .within stack => some (OpenList.tokensOf stack)
  | .done (.ok tree) => some tree.sexpr.tokens
  | .done (.error _) => none

theorem tokens?_settle (tree : Tree) (stack : List OpenList) :
    (settle tree stack).tokens? = some (OpenList.tokensOf stack ++ tree.sexpr.tokens) := by
  cases stack with
  | nil => rfl
  | cons top below =>
      simp [settle, tokens?, OpenList.tokensOf, Tree.sexprs_eq_map, SExpr.tokensEach_eq_flatMap]

theorem Completes.tokensOf_eq {span : Span} {stack below : List OpenList} {token : Token}
    {tree : Tree} (h : Completes span stack token tree below) :
    OpenList.tokensOf below ++ tree.sexpr.tokens = OpenList.tokensOf stack ++ [token] := by
  cases h with
  | atom value => simp [Tree.sexpr, SExpr.tokens]
  | list top => simp [OpenList.tokensOf, Tree.sexpr, SExpr.tokens]

/-- An item adds its token to those read so far. -/
theorem tokens?_next {stack : List OpenList} {item : Item} {tokens : List Token}
    (h : (next stack item).tokens? = some tokens) :
    ∃ token, item.token = .ok token ∧ tokens = OpenList.tokensOf stack ++ [token] := by
  cases item with
  | error error => simp [next, tokens?] at h
  | ok located =>
      obtain ⟨token, span⟩ := located
      refine ⟨token, rfl, Option.some.inj ?_⟩
      rw [← h]
      obtain ⟨rfl, hnext⟩ | ⟨rfl, rfl, hnext⟩ | ⟨tree, below, hcompletes, hnext⟩ :=
        next_cases stack token span
      · simp [hnext, tokens?, OpenList.tokensOf, Tree.sexprs, SExpr.tokensEach]
      · simp [hnext, tokens?] at h
      · rw [hnext, tokens?_settle, hcompletes.tokensOf_eq]

end Progress

/-- An expression is read from the tokens that led to the open lists and those of the items
used. -/
theorem tokens_of_parseWithin {stack : List OpenList} {items rest : List Item} {tree : Tree}
    (h : parseWithin stack items = (.ok tree, rest)) :
    ∃ used tokens, items = used ++ rest ∧ used.map Item.token = tokens.map Except.ok ∧
      tree.sexpr.tokens = OpenList.tokensOf stack ++ tokens := by
  induction items generalizing stack with
  | nil => simp [parseWithin] at h
  | cons item items ih =>
      rw [parseWithin] at h
      split at h
      · next after hnext =>
          obtain ⟨used, tokens, hitems, hused, htree⟩ := ih h
          obtain ⟨token, htoken, hafter⟩ := Progress.tokens?_next (by rw [hnext]; rfl)
          refine ⟨item :: used, token :: tokens, by simp [hitems], by simp [htoken, hused], ?_⟩
          simp [htree, hafter]
      · next result hnext =>
          cases h
          obtain ⟨token, htoken, htree⟩ := Progress.tokens?_next (by rw [hnext]; rfl)
          exact ⟨[item], [token], rfl, by simp [htoken], htree⟩

theorem parseText_eq_ok_iff {text : String} {tree : Tree} :
    parseText text = .ok tree ↔ parseWithin [] (itemsOfText text) = (.ok tree, []) := by
  unfold parseText
  constructor
  · intro h
    split at h
    · simp at h
    · next hparse =>
        cases h
        exact hparse
    · simp at h
    · simp at h
  · intro h
    rw [h]

/-! ## Expressions and the texts they are read from -/

namespace SExpr

/-- Reading the text gives the expression, at some places. -/
def ReadFrom (expr : SExpr) (text : String) : Prop :=
  ∃ tree, parseText text = .ok tree ∧ tree.sexpr = expr

variable {expr : SExpr} {text : String}

theorem readFrom_iff_items :
    expr.ReadFrom text ↔ (itemsOfText text).map Item.token = expr.tokens.map Except.ok := by
  constructor
  · rintro ⟨tree, htree, rfl⟩
    obtain ⟨used, tokens, hitems, hused, htokens⟩ :=
      tokens_of_parseWithin (parseText_eq_ok_iff.mp htree)
    rw [hitems, List.append_nil, hused, htokens]
    rfl
  · intro h
    obtain ⟨tree, htree, hread⟩ := parseWithin_tokens [] [] h
    rw [List.append_nil] at hread
    exact ⟨tree, parseText_eq_ok_iff.mpr hread, htree⟩

/-- **An expression is read from the texts that spell its tokens.** -/
theorem readFrom_iff : expr.ReadFrom text ↔ Spelled expr.tokens (.ofText text) := by
  rw [readFrom_iff_items, itemsOfText, items, map_token_place, map_token_lexemes_iff]

/-- Whatever is read is lexically valid. -/
theorem ReadFrom.isLexical (h : expr.ReadFrom text) : expr.isLexical :=
  List.all_eq_true.mpr (readFrom_iff.mp h).isLexical

end SExpr

/-! ## Expressions one after the other -/

/-- The tokens of some expressions are read as these expressions. -/
theorem parseEach_of_tokens {exprs : List SExpr} {items : List Item}
    (h : items.map Item.token = (SExpr.tokensEach exprs).map Except.ok) :
    (parseEach items).map (Except.map Tree.sexpr) = exprs.map Except.ok := by
  induction exprs generalizing items with
  | nil =>
      obtain rfl : items = [] := by simpa [SExpr.tokensEach] using h
      rw [parseEach]
      rfl
  | cons expr exprs ih =>
      rw [SExpr.tokensEach, List.map_append] at h
      obtain ⟨first, others, rfl, hfirst, hothers⟩ := List.map_eq_append_iff.mp h
      obtain ⟨tree, htree, hread⟩ := parseWithin_tokens [] others hfirst
      cases first with
      | nil =>
          -- every expression has a token
          cases expr <;> simp [SExpr.tokens] at hfirst
      | cons item first =>
          rw [List.cons_append] at hread ⊢
          rw [parseEach, hread]
          simp [Progress.settle, Progress.resume, Except.map, htree, ih hothers]

/-- A layout of some lexically valid expressions is read as these expressions. -/
theorem parseEach_of_laid {apart : Bool} {exprs : List SExpr} {text : String}
    (h : Laid apart (SExpr.tokensEach exprs) text.toList)
    (hlexical : ∀ expr ∈ exprs, expr.isLexical) :
    (parseEach (itemsOfText text)).map (Except.map Tree.sexpr) = exprs.map Except.ok := by
  refine parseEach_of_tokens (map_token_itemsOfText h fun token htoken => ?_)
  rw [SExpr.tokensEach_eq_flatMap, List.mem_flatMap] at htoken
  obtain ⟨expr, hexpr, htoken⟩ := htoken
  exact List.all_eq_true.mp (hlexical expr hexpr) token htoken

/-! ## Printing -/

theorem toList_spaced_cons (text next : String) (texts : List String) :
    (spaced (text :: next :: texts)).toList =
      text.toList ++ ' ' :: (spaced (next :: texts)).toList := by
  simp [spaced, String.intercalate_cons_cons]

theorem Atom.toList_text (value : Atom) : value.text.toList = value.token.spelling := by
  cases value <;> rfl

theorem Atom.isParen_token (value : Atom) : value.token.isParen = false := by
  cases value <;> rfl

namespace SExpr

mutual

/-- An expression is printed in one of its layouts. -/
theorem laid_text : ∀ expr : SExpr, Laid false expr.tokens expr.text.toList
  | .atom value => by
      rw [text, tokens, value.toList_text]
      simpa using Laid.word value.token value.isParen_token (.nil .nil)
  | .list items => by
      simpa [text, tokens] using ((laid_texts items).append (.closing (.nil .nil))).opening

/-- The same for some expressions, with a space between each two. -/
theorem laid_texts :
    ∀ items : List SExpr, Laid false (tokensEach items) (spaced (texts items)).toList
  | [] => .nil .nil
  | [item] => by
      simpa [tokensEach, texts, spaced] using laid_text item
  | item :: next :: items => by
      rw [tokensEach, texts, texts, toList_spaced_cons]
      have hgap : Gap [' '] := .blank rfl .nil
      have hspace : Laid true (tokensEach (next :: items))
          ([' '] ++ (spaced (texts (next :: items))).toList) :=
        (laid_texts (next :: items)).prepend hgap (by simp)
      exact (laid_text item).append hspace

end

/-- **Reading undoes printing in every layout, and printing is a canonical form.**  What is read
from a text is lexically valid.  A lexically valid expression is read from each of its layouts.
An expression that is read from a text is also read from its printed text. -/
theorem readFrom_layouts (expr : SExpr) :
    (∀ text, expr.ReadFrom text → expr.isLexical) ∧
      (∀ text, expr.isLexical → Laid false expr.tokens text.toList → expr.ReadFrom text) ∧
      (∀ text, expr.ReadFrom text → expr.ReadFrom expr.text) := by
  have hlaid (text : String) (hlexical : expr.isLexical)
      (h : Laid false expr.tokens text.toList) : expr.ReadFrom text :=
    parseText_of_laid h hlexical
  refine ⟨fun text => ReadFrom.isLexical, hlaid, ?_⟩
  intro text h
  exact hlaid expr.text h.isLexical expr.laid_text

/-- Bars, a comment with a parenthesis in it, and an escaped quote. -/
theorem readFrom_layouts_commented :
    (list [.atom (.symbol ⟨"a b"⟩), .atom (.constant (.string "\""))]).ReadFrom
      "(|a b| ;)\n\"\\\"\")\n" := by
  have hcomment : Gap [' ', ';', ')', '\n'] :=
    .blank rfl (.comment (show '\n' ∉ [')'] by decide) .nil)
  have hstring : Laid false [.constant (.string "\""), .closing] "\"\\\"\")\n".toList :=
    .word (.constant (.string "\"")) rfl (.closing (.nil (.blank rfl .nil)))
  have hlaid := Laid.opening (.word (.ident "a b") rfl (hstring.prepend hcomment (by simp)))
  exact (readFrom_layouts _).2.1 _ (by decide) hlaid

end SExpr

end SmtSession
