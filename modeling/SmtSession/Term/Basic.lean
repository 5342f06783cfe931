import SmtSession.Constant
import SmtSession.Symbol

/-!
# Sorts and terms

The expressions that are sent to a solver and read back from it.  Sorts and terms are nested
through lists, so equality is decided by mutual recursion with the lists.
-/

namespace SmtSession

/-- An index of an identifier. -/
inductive Index where
  | numeral (value : Nat)
  | symbol (name : Symbol)
  deriving DecidableEq

/-- A symbol with its indexes, of which a plain identifier has none. -/
structure Ident where
  symbol : Symbol
  indexes : List Index
  deriving DecidableEq

namespace Ident

/-- The identifier without indexes. -/
def plain (symbol : Symbol) : Ident := ⟨symbol, []⟩

/-- Whether this is the plain identifier of the given name. -/
def is (ident : Ident) (name : String) : Bool :=
  ident.indexes.isEmpty && ident.symbol.name == name

end Ident

/-- A sort: an identifier applied to some sorts, of which a plain sort has none. -/
inductive SortExpr where
  | app (head : Ident) (params : List SortExpr)

namespace SortExpr

/-- The sort without parameters. -/
def plain (head : Ident) : SortExpr := .app head []

mutual

/-- Decides whether two sorts are equal. -/
def decEq : (a b : SortExpr) → Decidable (a = b)
  | .app f as, .app g bs =>
    if same : f = g then
      match decEqs as bs with
      | .isTrue same' => .isTrue (by rw [same, same'])
      | .isFalse different => .isFalse (by simp [different])
    else .isFalse (by simp [same])
termination_by structural a => a

/-- Decides whether two lists of sorts are equal. -/
def decEqs : (as bs : List SortExpr) → Decidable (as = bs)
  | [], [] => .isTrue rfl
  | [], _ :: _ => .isFalse (by simp)
  | _ :: _, [] => .isFalse (by simp)
  | a :: as, b :: bs =>
    match decEq a b with
    | .isFalse different => .isFalse (by simp [different])
    | .isTrue same =>
      match decEqs as bs with
      | .isTrue same' => .isTrue (by rw [same, same'])
      | .isFalse different => .isFalse (by simp [different])
termination_by structural as => as

end

instance : DecidableEq SortExpr := decEq

end SortExpr

/-- A variable with its sort. -/
structure SortedVar where
  name : Symbol
  sort : SortExpr
  deriving DecidableEq

/-- A quantifier. -/
inductive Quantifier where
  | universal
  | existential
  deriving DecidableEq

/-- The word that introduces a quantified term. -/
def Quantifier.name : Quantifier → String
  | .universal => "forall"
  | .existential => "exists"

/-- A term. -/
inductive Term where
  | ident (head : Ident)
  | constant (value : Constant)
  /-- A function applied to some arguments, possibly none. -/
  | app (head : Ident) (args : List Term)
  /-- The names are bound at once, and are visible in the body only. -/
  | letIn (bindings : List (Symbol × Term)) (body : Term)
  | quantified (quantifier : Quantifier) (vars : List SortedVar) (body : Term)

namespace Term

mutual

/-- Decides whether two terms are equal. -/
def decEq : (a b : Term) → Decidable (a = b)
  | .ident f, .ident g =>
    if same : f = g then .isTrue (by rw [same]) else .isFalse (by simp [same])
  | .constant c, .constant d =>
    if same : c = d then .isTrue (by rw [same]) else .isFalse (by simp [same])
  | .app f as, .app g bs =>
    if same : f = g then
      match decEqs as bs with
      | .isTrue same' => .isTrue (by rw [same, same'])
      | .isFalse different => .isFalse (by simp [different])
    else .isFalse (by simp [same])
  | .letIn xs a, .letIn ys b =>
    match decEqBindings xs ys with
    | .isFalse different => .isFalse (by simp [different])
    | .isTrue same =>
      match decEq a b with
      | .isTrue same' => .isTrue (by rw [same, same'])
      | .isFalse different => .isFalse (by simp [different])
  | .quantified p xs a, .quantified q ys b =>
    if same : p = q ∧ xs = ys then
      match decEq a b with
      | .isTrue same' => .isTrue (by rw [same.1, same.2, same'])
      | .isFalse different => .isFalse (by simp [different])
    else .isFalse (by simp_all)
  | .ident _, .constant _ => .isFalse (by simp)
  | .ident _, .app _ _ => .isFalse (by simp)
  | .ident _, .letIn _ _ => .isFalse (by simp)
  | .ident _, .quantified _ _ _ => .isFalse (by simp)
  | .constant _, .ident _ => .isFalse (by simp)
  | .constant _, .app _ _ => .isFalse (by simp)
  | .constant _, .letIn _ _ => .isFalse (by simp)
  | .constant _, .quantified _ _ _ => .isFalse (by simp)
  | .app _ _, .ident _ => .isFalse (by simp)
  | .app _ _, .constant _ => .isFalse (by simp)
  | .app _ _, .letIn _ _ => .isFalse (by simp)
  | .app _ _, .quantified _ _ _ => .isFalse (by simp)
  | .letIn _ _, .ident _ => .isFalse (by simp)
  | .letIn _ _, .constant _ => .isFalse (by simp)
  | .letIn _ _, .app _ _ => .isFalse (by simp)
  | .letIn _ _, .quantified _ _ _ => .isFalse (by simp)
  | .quantified _ _ _, .ident _ => .isFalse (by simp)
  | .quantified _ _ _, .constant _ => .isFalse (by simp)
  | .quantified _ _ _, .app _ _ => .isFalse (by simp)
  | .quantified _ _ _, .letIn _ _ => .isFalse (by simp)
termination_by structural a => a

/-- Decides whether two lists of terms are equal. -/
def decEqs : (as bs : List Term) → Decidable (as = bs)
  | [], [] => .isTrue rfl
  | [], _ :: _ => .isFalse (by simp)
  | _ :: _, [] => .isFalse (by simp)
  | a :: as, b :: bs =>
    match decEq a b with
    | .isFalse different => .isFalse (by simp [different])
    | .isTrue same =>
      match decEqs as bs with
      | .isTrue same' => .isTrue (by rw [same, same'])
      | .isFalse different => .isFalse (by simp [different])
termination_by structural as => as

/-- Decides whether two lists of bindings are equal. -/
def decEqBindings : (xs ys : List (Symbol × Term)) → Decidable (xs = ys)
  | [], [] => .isTrue rfl
  | [], _ :: _ => .isFalse (by simp)
  | _ :: _, [] => .isFalse (by simp)
  | (x, a) :: xs, (y, b) :: ys =>
    if same : x = y then
      match decEq a b with
      | .isFalse different => .isFalse (by simp [different])
      | .isTrue same' =>
        match decEqBindings xs ys with
        | .isTrue same'' => .isTrue (by rw [same, same', same''])
        | .isFalse different => .isFalse (by simp [different])
    else .isFalse (by simp [same])
termination_by structural xs => xs

end

instance : DecidableEq Term := decEq

end Term

end SmtSession
