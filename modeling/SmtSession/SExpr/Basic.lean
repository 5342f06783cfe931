import SmtSession.Constant
import SmtSession.Symbol
import SmtSession.Location

/-!
# S-expressions

An S-expression is an atom or a list.  A tree is an S-expression in which every node also says
where it was read; forgetting the places leads back (`Tree.sexpr`), and trees are compared by
what is left.
-/

namespace SmtSession

/-- An S-expression that is not a list. -/
inductive Atom where
  | constant (value : Constant)
  | symbol (name : Symbol)
  | keyword (key : Keyword)
  deriving DecidableEq

/-- An atom as it is printed. -/
def Atom.text : Atom → String
  | .constant value => value.text
  | .symbol name => name.text
  | .keyword key => key.text

/-- An S-expression. -/
inductive SExpr where
  | atom (value : Atom)
  | list (items : List SExpr)

/-- The shapes of S-expressions. -/
inductive Shape where
  | constant
  | symbol
  | keyword
  | list
  deriving DecidableEq

/-- The name of a shape in messages. -/
def Shape.name : Shape → String
  | .constant => "constant"
  | .symbol => "symbol"
  | .keyword => "keyword"
  | .list => "list"

/-- Texts with a space between each two. -/
def spaced (texts : List String) : String :=
  " ".intercalate texts

namespace SExpr

mutual

/-- An S-expression as it is printed: one space between the items of a list, and none elsewhere. -/
def text : SExpr → String
  | .atom value => value.text
  | .list items => "(" ++ spaced (texts items) ++ ")"
termination_by structural expr => expr

/-- Some S-expressions as they are printed. -/
def texts : List SExpr → List String
  | [] => []
  | item :: items => item.text :: texts items
termination_by structural items => items

end

mutual

/-- Decides whether two S-expressions are equal. -/
def decEq : (a b : SExpr) → Decidable (a = b)
  | .atom a, .atom b =>
    if same : a = b then .isTrue (by rw [same]) else .isFalse (by simp [same])
  | .atom _, .list _ => .isFalse (by simp)
  | .list _, .atom _ => .isFalse (by simp)
  | .list as, .list bs =>
    match decEqs as bs with
    | .isTrue same => .isTrue (by rw [same])
    | .isFalse different => .isFalse (by simp [different])
termination_by structural a => a

/-- Decides whether two lists of S-expressions are equal. -/
def decEqs : (as bs : List SExpr) → Decidable (as = bs)
  | [], [] => .isTrue rfl
  | [], _ :: _ => .isFalse (by simp)
  | _ :: _, [] => .isFalse (by simp)
  | a :: as, b :: bs =>
    match decEq a b with
    | .isFalse different => .isFalse (by simp [different])
    | .isTrue same =>
      match decEqs as bs with
      | .isTrue same' => .isTrue (by rw [same, same'])
      | .isFalse different => .isFalse (by simp [different])
termination_by structural as => as

end

instance : DecidableEq SExpr := decEq

end SExpr

/-- An S-expression with the place of every node. -/
inductive Tree where
  | leaf (value : Atom) (span : Span)
  | list (items : List Tree) (span : Span)

namespace Tree

/-- Where a tree was read, its parentheses included. -/
def span : Tree → Span
  | .leaf _ span => span
  | .list _ span => span

mutual

/-- The S-expression of a tree, without places. -/
def sexpr : Tree → SExpr
  | .leaf value _ => .atom value
  | .list items _ => .list (sexprs items)
termination_by structural tree => tree

/-- The S-expressions of some trees. -/
def sexprs : List Tree → List SExpr
  | [] => []
  | item :: items => item.sexpr :: sexprs items
termination_by structural items => items

end

theorem sexprs_eq_map (items : List Tree) : sexprs items = items.map sexpr := by
  induction items with
  | nil => rfl
  | cons item items ih => rw [sexprs, ih, List.map_cons]

/-- Trees are compared without their places. -/
instance : BEq Tree := ⟨fun a b => a.sexpr == b.sexpr⟩

/-- A tree as it is printed, wherever it was read. -/
def text (tree : Tree) : String :=
  tree.sexpr.text

/-- The symbol that a tree consists of, if it is one. -/
def symbol? : Tree → Option Symbol
  | .leaf (.symbol name) _ => some name
  | _ => none

/-- The items of a tree, if it is a list. -/
def items? : Tree → Option (List Tree)
  | .list items _ => some items
  | .leaf _ _ => none

/-- The shape of a tree at its root. -/
def shape : Tree → Shape
  | .leaf (.constant _) _ => .constant
  | .leaf (.symbol _) _ => .symbol
  | .leaf (.keyword _) _ => .keyword
  | .list _ _ => .list

end Tree

namespace SExpr

mutual

/-- The S-expression as a tree that was read from no text. -/
def unlocated : SExpr → Tree
  | .atom value => .leaf value .nowhere
  | .list items => .list (unlocateds items) .nowhere
termination_by structural expr => expr

/-- Some S-expressions as trees that were read from no text. -/
def unlocateds : List SExpr → List Tree
  | [] => []
  | item :: items => item.unlocated :: unlocateds items
termination_by structural items => items

end

end SExpr

end SmtSession
