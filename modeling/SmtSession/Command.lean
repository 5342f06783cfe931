import SmtSession.Attribute
import SmtSession.Term.Basic

/-!
# Commands

The commands of SMT-LIB that a session understands.
-/

namespace SmtSession

/-- The name and the number of parameters of a sort. -/
structure SortDecl where
  name : Symbol
  arity : Nat
  deriving DecidableEq

/-- A selector of a constructor and the sort it leads to. -/
structure Selector where
  name : Symbol
  sort : SortExpr
  deriving DecidableEq

/-- A constructor of a datatype. -/
structure Constructor where
  name : Symbol
  selectors : List Selector
  deriving DecidableEq

/-- A datatype, its name apart. -/
structure Datatype where
  params : List Symbol
  constructors : List Constructor
  deriving DecidableEq

/-- A command. -/
inductive Command where
  | assert (term : Term)
  | checkSat
  | declareConst (name : Symbol) (sort : SortExpr)
  | declareDatatypes (sorts : List SortDecl) (datatypes : List Datatype)
  | declareFun (name : Symbol) (params : List SortExpr) (result : SortExpr)
  | declareSort (name : Symbol) (arity : Nat)
  | defineFun (name : Symbol) (params : List SortedVar) (result : SortExpr) (body : Term)
  | defineSort (name : Symbol) (params : List Symbol) (sort : SortExpr)
  | echo (text : String)
  | exit
  | getAssertions
  | getAssignment
  | getInfo (key : Keyword)
  | getModel
  | getOption (key : Keyword)
  | getProof
  | getUnsatCore
  | getValue (terms : List Term)
  | pop (levels : Nat)
  | push (levels : Nat)
  | reset
  | resetAssertions
  | setInfo (key : Keyword) (value : Option AttributeValue)
  | setLogic (logic : Symbol)
  | setOption (key : Keyword) (value : AttributeValue)
  deriving DecidableEq

/-- The word that a command starts with. -/
def Command.name : Command → String
  | .assert _ => "assert"
  | .checkSat => "check-sat"
  | .declareConst _ _ => "declare-const"
  | .declareDatatypes _ _ => "declare-datatypes"
  | .declareFun _ _ _ => "declare-fun"
  | .declareSort _ _ => "declare-sort"
  | .defineFun _ _ _ _ => "define-fun"
  | .defineSort _ _ _ => "define-sort"
  | .echo _ => "echo"
  | .exit => "exit"
  | .getAssertions => "get-assertions"
  | .getAssignment => "get-assignment"
  | .getInfo _ => "get-info"
  | .getModel => "get-model"
  | .getOption _ => "get-option"
  | .getProof => "get-proof"
  | .getUnsatCore => "get-unsat-core"
  | .getValue _ => "get-value"
  | .pop _ => "pop"
  | .push _ => "push"
  | .reset => "reset"
  | .resetAssertions => "reset-assertions"
  | .setInfo _ _ => "set-info"
  | .setLogic _ => "set-logic"
  | .setOption _ _ => "set-option"

end SmtSession
