import SmtSession.Term.Basic

/-!
# Dialects

The points on which solvers disagree about the standard: how an application of many arguments is
written, and whether strings may stand in terms.
-/

namespace SmtSession

/-- How an application with more than two arguments is written. -/
inductive Grouping where
  /-- `(f a b c d)` -/
  | flat
  /-- `(f (f (f a b) c) d)` -/
  | left
  /-- `(f a (f b (f c d)))` -/
  | right
  /-- `(and (f a b) (f b c) (f c d))` -/
  | chainable
  deriving DecidableEq

/-- What a solver accepts. -/
structure Dialect where
  /-- How applications of a function to the given number of arguments are written.  It matters for
  more than two arguments only. -/
  grouping : Ident → Nat → Grouping
  /-- Whether string constants may stand in terms. -/
  strings : Bool

namespace Dialect

/-- The standard itself. -/
def standard : Dialect := ⟨fun _ _ => .flat, true⟩

/-- The dialect of Z3 4.3: a difference has two sides, and terms hold no strings. -/
def z3 : Dialect :=
  ⟨fun head arity => if head.is "-" && arity > 2 then .left else .flat, false⟩

end Dialect

end SmtSession
