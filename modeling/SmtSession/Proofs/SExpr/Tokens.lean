import SmtSession.Proofs.Token.Layout
import SmtSession.SExpr.Parser

/-!
# S-expressions as token lists

An S-expression is written as its tokens in order (`SExpr.tokens`).  Given items
with these tokens, `Tree.From` says which tree is read from them and where its
nodes are located; there is such a tree (`exists_from`), the reader finds it, and
goes on with what follows (`parseWithin_tokens`).  Together with the layouts of a
token list this gives `parseText_of_laid`: every layout of a lexically valid
expression is read as this expression.
-/

namespace SmtSession

/-! ## Tokens of an expression -/

/-- The token that an atom is written as. -/
def Atom.token : Atom → Token
  | .constant value => .constant value
  | .symbol name => .ident name.name
  | .keyword key => .keyword key.name

namespace SExpr

mutual

/-- The tokens of an S-expression, in order. -/
def tokens : SExpr → List Token
  | .atom value => [value.token]
  | .list items => .opening :: tokensEach items ++ [.closing]
termination_by structural expr => expr

/-- The tokens of some S-expressions, one after the other. -/
def tokensEach : List SExpr → List Token
  | [] => []
  | item :: items => item.tokens ++ tokensEach items
termination_by structural items => items

end

theorem tokensEach_eq_flatMap (items : List SExpr) : tokensEach items = items.flatMap tokens := by
  induction items with
  | nil => rfl
  | cons item items ih => rw [tokensEach, ih, List.flatMap_cons]

/-- Whether every token of the expression is read back as it is spelled. -/
def isLexical (expr : SExpr) : Bool :=
  expr.tokens.all Token.isLexical

@[simp] theorem isLexical_atom (value : Atom) : (atom value).isLexical = value.token.isLexical := by
  simp [isLexical, tokens]

@[simp] theorem isLexical_list (items : List SExpr) :
    (list items).isLexical = items.all isLexical := by
  simp [isLexical, tokens, tokensEach_eq_flatMap, Token.isLexical, List.all_flatMap]
  rfl

end SExpr

/-! ## Reading the tokens -/

/-- Goes on reading the items after some progress. -/
def Progress.resume (items : List Item) :
    Progress → Except (Located SyntaxError) Tree × List Item
  | .within stack => parseWithin stack items
  | .done result => (result, items)

theorem parseWithin_cons (stack : List OpenList) (item : Item) (rest : List Item) :
    parseWithin stack (item :: rest) = (Progress.next stack item).resume rest := by
  rw [parseWithin]
  cases Progress.next stack item <;> rfl

/-- An item with a token is this token at some place. -/
theorem Item.eq_ok_of_token {item : Item} {token : Token} (h : item.token = .ok token) :
    ∃ span, item = .ok ⟨token, span⟩ := by
  cases item with
  | ok located =>
      cases h
      exact ⟨located.span, rfl⟩
  | error error => simp [Item.token] at h

namespace Progress

theorem next_atom (stack : List OpenList) (value : Atom) (span : Span) :
    next stack (.ok ⟨value.token, span⟩) = settle (.leaf value span) stack := by
  cases value <;> rfl

/-- While the given lists are open, the token at the span completes a tree, and the last lists
remain open around it. -/
inductive Completes (span : Span) : List OpenList → Token → Tree → List OpenList → Prop where
  | atom (value : Atom) (stack : List OpenList) :
      Completes span stack value.token (.leaf value span) stack
  | list (top : OpenList) (below : List OpenList) :
      Completes span (top :: below) .closing (.list top.items.reverse (top.span.union span)) below

/-- All that a token can do: it opens a list, it closes one that is not open, or it completes a
tree. -/
theorem next_cases (stack : List OpenList) (token : Token) (span : Span) :
    (token = .opening ∧ next stack (.ok ⟨token, span⟩) = .within (⟨span, []⟩ :: stack)) ∨
      (token = .closing ∧ stack = [] ∧
        next stack (.ok ⟨token, span⟩) =
          .done (.error ⟨.unexpectedToken .closing, span⟩)) ∨
      ∃ tree below, Completes span stack token tree below ∧
        next stack (.ok ⟨token, span⟩) = settle tree below := by
  cases token with
  | opening => exact .inl ⟨rfl, rfl⟩
  | closing =>
      cases stack with
      | nil => exact .inr (.inl ⟨rfl, rfl, rfl⟩)
      | cons top below => exact .inr (.inr ⟨_, below, .list top below, rfl⟩)
  | ident name => exact .inr (.inr ⟨_, stack, .atom (.symbol ⟨name⟩) stack, rfl⟩)
  | keyword name => exact .inr (.inr ⟨_, stack, .atom (.keyword ⟨name⟩) stack, rfl⟩)
  | constant value => exact .inr (.inr ⟨_, stack, .atom (.constant value) stack, rfl⟩)

variable {tree whole : Tree} {stack after : List OpenList}

theorem settle_eq_within_iff : settle tree stack = .within after ↔
    ∃ top below, stack = top :: below ∧
      after = { top with items := tree :: top.items } :: below := by
  cases stack with
  | nil => simp [settle]
  | cons top below =>
      constructor
      · intro h
        cases h
        exact ⟨top, below, rfl, rfl⟩
      · rintro ⟨_, _, hstack, rfl⟩
        cases hstack
        rfl

theorem settle_eq_done_iff : settle tree stack = .done (.ok whole) ↔
    stack = [] ∧ whole = tree := by
  cases stack with
  | nil => simp [settle, eq_comm]
  | cons top below => simp [settle]

end Progress

/-! ## Trees and the items they are read from -/

mutual

/-- The tree is read from the items.  A leaf is located at its item, and a list from its opening to
its closing parenthesis. -/
inductive Tree.From : Tree → List Item → Prop
  | leaf (value : Atom) (span : Span) : Tree.From (.leaf value span) [.ok ⟨value.token, span⟩]
  | list {trees : List Tree} {inner : List Item} (opened closed : Span) :
      Tree.FromEach trees inner →
        Tree.From (.list trees (opened.union closed))
          (.ok ⟨.opening, opened⟩ :: (inner ++ [.ok ⟨.closing, closed⟩]))

/-- Some trees are read from the items, one after the other. -/
inductive Tree.FromEach : List Tree → List Item → Prop
  | nil : Tree.FromEach [] []
  | cons {tree : Tree} {trees : List Tree} {first others : List Item} :
      Tree.From tree first → Tree.FromEach trees others →
        Tree.FromEach (tree :: trees) (first ++ others)

end

mutual

/-- The items from which a tree is read have the tokens of its expression. -/
theorem Tree.From.map_token {tree : Tree} {items : List Item} (h : tree.From items) :
    items.map Item.token = tree.sexpr.tokens.map Except.ok := by
  match h with
  | .leaf value span => simp [Tree.sexpr, SExpr.tokens, Item.token]
  | .list opened closed hinner =>
      simp [Tree.sexpr, SExpr.tokens, Item.token, hinner.map_token]

theorem Tree.FromEach.map_token {trees : List Tree} {items : List Item}
    (h : Tree.FromEach trees items) :
    items.map Item.token = (SExpr.tokensEach (Tree.sexprs trees)).map Except.ok := by
  match h with
  | .nil => rfl
  | .cons hfirst hothers =>
      simp [Tree.sexprs, SExpr.tokensEach, hfirst.map_token, hothers.map_token]

end

mutual

/-- From items that have the tokens of an expression, a tree of this expression is read. -/
theorem exists_from : ∀ (expr : SExpr) (items : List Item),
    items.map Item.token = expr.tokens.map Except.ok →
      ∃ tree : Tree, tree.sexpr = expr ∧ tree.From items
  | .atom value, items, h => by
      obtain ⟨item, rfl⟩ : ∃ item, items = [item] :=
        List.length_eq_one_iff.mp (by simpa [SExpr.tokens] using congrArg List.length h)
      obtain ⟨span, rfl⟩ := Item.eq_ok_of_token (List.cons_eq_cons.mp h).1
      exact ⟨.leaf value span, by rw [Tree.sexpr], .leaf value span⟩
  | .list exprs, items, h => by
      rw [SExpr.tokens, List.cons_append, List.map_cons, List.map_append] at h
      obtain ⟨first, items, rfl, hfirst, h⟩ := List.map_eq_cons_iff.mp h
      obtain ⟨inner, last, rfl, hinner, hlast⟩ := List.map_eq_append_iff.mp h
      obtain ⟨final, rfl, hfinal⟩ := List.map_eq_singleton_iff.mp hlast
      obtain ⟨opened, rfl⟩ := Item.eq_ok_of_token hfirst
      obtain ⟨closed, rfl⟩ := Item.eq_ok_of_token hfinal
      obtain ⟨trees, htrees, hfrom⟩ := exists_fromEach exprs inner hinner
      exact ⟨.list trees (opened.union closed), by rw [Tree.sexpr, htrees],
        .list opened closed hfrom⟩

theorem exists_fromEach : ∀ (exprs : List SExpr) (items : List Item),
    items.map Item.token = (SExpr.tokensEach exprs).map Except.ok →
      ∃ trees, Tree.sexprs trees = exprs ∧ Tree.FromEach trees items
  | [], items, h => by
      obtain rfl : items = [] := by simpa [SExpr.tokensEach] using h
      exact ⟨[], rfl, .nil⟩
  | expr :: exprs, items, h => by
      rw [SExpr.tokensEach, List.map_append] at h
      obtain ⟨first, others, rfl, hfirst, hothers⟩ := List.map_eq_append_iff.mp h
      obtain ⟨tree, htree, hfrom⟩ := exists_from expr first hfirst
      obtain ⟨trees, htrees, hfroms⟩ := exists_fromEach exprs others hothers
      exact ⟨tree :: trees, by rw [Tree.sexprs, htree, htrees], .cons hfrom hfroms⟩

end

mutual

/-- The reader finds the tree that is read from the items, and goes on with what follows. -/
theorem Tree.From.parseWithin_append {tree : Tree} {items : List Item} (h : tree.From items)
    (stack : List OpenList) (rest : List Item) :
    parseWithin stack (items ++ rest) = (Progress.settle tree stack).resume rest := by
  match h with
  | .leaf value span => rw [List.singleton_append, parseWithin_cons, Progress.next_atom]
  | @Tree.From.list trees inner opened closed hinner =>
      -- between its parentheses the list is the innermost one that is open
      have hread := hinner.parseWithin_append ⟨opened, []⟩ stack (.ok ⟨.closing, closed⟩ :: rest)
      calc parseWithin stack (.ok ⟨.opening, opened⟩ :: (inner ++ [.ok ⟨.closing, closed⟩]) ++ rest)
          = parseWithin (⟨opened, []⟩ :: stack) (inner ++ .ok ⟨.closing, closed⟩ :: rest) := by
            rw [List.cons_append, parseWithin_cons, List.append_assoc]
            rfl
        _ = parseWithin (⟨opened, trees.reverse⟩ :: stack) (.ok ⟨.closing, closed⟩ :: rest) := by
            simpa using hread
        _ = (Progress.settle (.list trees (opened.union closed)) stack).resume rest := by
            rw [parseWithin_cons]
            simp [Progress.next]

/-- The same for some trees in an open list. -/
theorem Tree.FromEach.parseWithin_append {trees : List Tree} {items : List Item}
    (h : Tree.FromEach trees items) (top : OpenList) (below : List OpenList) (rest : List Item) :
    parseWithin (top :: below) (items ++ rest) =
      parseWithin ({ top with items := trees.reverse ++ top.items } :: below) rest := by
  match h with
  | .nil => rfl
  | @Tree.FromEach.cons tree trees first others hfirst hothers =>
      -- the first tree is put on the open list, and the others go on top of it
      have hreads := hothers.parseWithin_append { top with items := tree :: top.items } below rest
      rw [List.append_assoc, hfirst.parseWithin_append]
      simp only [Progress.settle, Progress.resume, hreads]
      simp

end

/-- The tokens of an expression are read as a tree of this expression, and reading goes on. -/
theorem parseWithin_tokens (stack : List OpenList) (rest : List Item) {expr : SExpr}
    {items : List Item} (h : items.map Item.token = expr.tokens.map Except.ok) :
    ∃ tree, tree.sexpr = expr ∧
      parseWithin stack (items ++ rest) = (Progress.settle tree stack).resume rest := by
  obtain ⟨tree, htree, hfrom⟩ := exists_from expr items h
  exact ⟨tree, htree, hfrom.parseWithin_append stack rest⟩

/-- **Every layout of a lexically valid expression is read as this expression.** -/
theorem parseText_of_laid {apart : Bool} {expr : SExpr} {text : String}
    (h : Laid apart expr.tokens text.toList) (hlexical : expr.isLexical) :
    ∃ tree, parseText text = .ok tree ∧ tree.sexpr = expr := by
  have hitems := map_token_itemsOfText h (List.all_eq_true.mp hlexical)
  obtain ⟨tree, htree, hread⟩ := parseWithin_tokens [] [] hitems
  rw [List.append_nil] at hread
  refine ⟨tree, ?_, htree⟩
  rw [parseText, hread]
  rfl

end SmtSession
