import SmtSession.SExpr.Basic
import SmtSession.Token.Lexer

/-!
# Reading S-expressions

The reader goes once through the items of a source and keeps the lists that are open, the
innermost one first.  An error in the source ends the expression in which it occurs; what follows
can be read as the next one (`parseEach`).
-/

namespace SmtSession

/-- A list that has been opened and not yet closed. -/
structure OpenList where
  /-- The place of its opening parenthesis. -/
  span : Span
  /-- The items read so far, the latest first. -/
  items : List Tree

/-- How far an expression has been read. -/
inductive Progress where
  /-- These lists are open, the innermost one first. -/
  | within (stack : List OpenList)
  /-- The expression is complete, or cannot be. -/
  | done (result : Except (Located SyntaxError) Tree)

namespace Progress

/-- Puts a complete expression where it belongs. -/
def settle (tree : Tree) : List OpenList → Progress
  | [] => .done (.ok tree)
  | top :: below => .within ({ top with items := tree :: top.items } :: below)

/-- Reads one item while the given lists are open. -/
def next (stack : List OpenList) : Item → Progress
  | .error error => .done (.error error)
  | .ok ⟨token, span⟩ =>
    match token with
    | .opening => .within (⟨span, []⟩ :: stack)
    | .closing =>
      match stack with
      | [] => .done (.error ⟨.unexpectedToken .closing, span⟩)
      | top :: below => settle (.list top.items.reverse (top.span.union span)) below
    | .ident name => settle (.leaf (.symbol ⟨name⟩) span) stack
    | .keyword name => settle (.leaf (.keyword ⟨name⟩) span) stack
    | .constant value => settle (.leaf (.constant value) span) stack

/-- What is missing when the items end while the given lists are open. -/
def unfinished : List OpenList → Located SyntaxError
  | [] => ⟨.unexpectedEnd, .nowhere⟩
  | top :: _ => ⟨.missingClosingParenthesis, top.span⟩

end Progress

/-- Reads one expression while the given lists are open.  The items that are not needed are
returned. -/
def parseWithin (stack : List OpenList) :
    List Item → Except (Located SyntaxError) Tree × List Item
  | [] => (.error (Progress.unfinished stack), [])
  | item :: rest =>
    match Progress.next stack item with
    | .within stack => parseWithin stack rest
    | .done result => (result, rest)

theorem length_parseWithin_le (stack : List OpenList) (items : List Item) :
    (parseWithin stack items).2.length ≤ items.length - 1 := by
  induction items generalizing stack with
  | nil => exact Nat.le_refl _
  | cons item rest ih =>
    rw [parseWithin]
    split
    · exact Nat.le_trans (ih _) (Nat.sub_le _ _)
    · exact Nat.le_refl _

/-- Reads the items as expressions, going on after errors. -/
def parseEach : List Item → List (Except (Located SyntaxError) Tree)
  | [] => []
  | item :: rest =>
    let parsed := parseWithin [] (item :: rest)
    parsed.1 :: parseEach parsed.2
termination_by items => items.length
decreasing_by exact Nat.lt_succ_of_le (length_parseWithin_le [] (item :: rest))

/-- Reads a text that consists of one expression, with blanks and comments around it. -/
def parseText (text : String) : Except (Located SyntaxError) Tree :=
  match parseWithin [] (itemsOfText text) with
  | (.error error, _) => .error error
  | (.ok tree, []) => .ok tree
  | (.ok _, .error error :: _) => .error error
  | (.ok _, .ok ⟨token, span⟩ :: _) => .error ⟨.trailingInput token, span⟩

end SmtSession
