import SmtSession.Command
import SmtSession.Dialect
import SmtSession.Formatter.Basic

/-!
# Writing the syntax

The marks of everything that can be written in a dialect, and the texts they lay out
(`translate`).
-/

namespace SmtSession

/-- A symbol is one word, its bars included. -/
def Symbol.marks (symbol : Symbol) : List Mark := [.word symbol.text]

/-- A keyword is one word, its colon included. -/
def Keyword.marks (key : Keyword) : List Mark := [.word key.text]

/-- A constant is one word, where it is not refused. -/
def Constant.marks (value : Constant) : List Mark := [.word value.text]

/-- An atom is one word. -/
def Atom.marks : Atom → List Mark
  | .constant value => value.marks
  | .symbol name => name.marks
  | .keyword key => key.marks

namespace SExpr

mutual

/-- The marks of an S-expression.  They are the same in every dialect, and no string is refused. -/
def marks : SExpr → List Mark
  | .atom value => value.marks
  | .list items => Mark.enclosed (marksEach items)
termination_by structural expr => expr

/-- The marks of each of some S-expressions. -/
def marksEach : List SExpr → List (List Mark)
  | [] => []
  | item :: items => marks item :: marksEach items
termination_by structural items => items

end

end SExpr

/-- An index is one word. -/
def Index.marks : Index → List Mark
  | .numeral value => [.word value.repr]
  | .symbol name => name.marks

/-- The marks of an identifier: a word, or a list with an underscore if there are indexes. -/
def Ident.marks (ident : Ident) : List Mark :=
  if ident.indexes.isEmpty then ident.symbol.marks
  else Mark.enclosed ([.word "_"] :: ident.symbol.marks :: ident.indexes.map Index.marks)

namespace SortExpr

mutual

/-- The marks of a sort.  A sort without parameters stands without parentheses. -/
def marks : SortExpr → List Mark
  | .app head [] => head.marks
  | .app head (param :: params) => Mark.enclosed (head.marks :: marks param :: marksEach params)
termination_by structural sort => sort

/-- The marks of each of some sorts. -/
def marksEach : List SortExpr → List (List Mark)
  | [] => []
  | sort :: sorts => marks sort :: marksEach sorts
termination_by structural sorts => sorts

end

end SortExpr

/-- The marks of a variable with its sort. -/
def SortedVar.marks (var : SortedVar) : List Mark :=
  Mark.enclosed [var.name.marks, var.sort.marks]

namespace Grouping

/-- An application written as it is. -/
def call (head : List Mark) (args : List (List Mark)) : List Mark :=
  Mark.enclosed (head :: args)

/-- Applications to two arguments that lean to the left. -/
def leftCalls (head : List Mark) : List (List Mark) → List Mark
  | [] => call head []
  | arg :: args => args.foldl (fun done arg => call head [done, arg]) arg

/-- Applications to two arguments that lean to the right. -/
def rightCalls (head : List Mark) : List (List Mark) → List Mark
  | [] => call head []
  | [arg] => arg
  | arg :: args => call head [arg, rightCalls head args]

/-- The conjunction of the applications to neighbouring arguments. -/
def chainedCalls (head : List Mark) (args : List (List Mark)) : List Mark :=
  call [.word "and"] (List.zipWith (fun a b => call head [a, b]) args args.tail)

/-- The marks of an application in the given grouping. -/
def marks (grouping : Grouping) (head : List Mark) (args : List (List Mark)) : List Mark :=
  match grouping with
  | .flat => call head args
  | .left => leftCalls head args
  | .right => rightCalls head args
  | .chainable => chainedCalls head args

end Grouping

/-- The marks of an application to arguments whose marks are given. -/
def Dialect.apply (d : Dialect) (head : Ident) (args : List (List Mark)) : List Mark :=
  if args.length ≤ 2 then Grouping.call head.marks args
  else (d.grouping head args.length).marks head.marks args

namespace Term

mutual

/-- The marks of a term in a dialect. -/
def marks (d : Dialect) : Term → List Mark
  | .ident head => head.marks
  | .constant (.string value) =>
    if d.strings then (Constant.string value).marks else [.refused value]
  | .constant value => value.marks
  | .app head args => d.apply head (marksEach d args)
  | .letIn bindings body =>
    Mark.enclosed [[.word "let"], Mark.enclosed (marksBindings d bindings), marks d body]
  | .quantified quantifier vars body =>
    Mark.enclosed
      [[.word quantifier.name], Mark.enclosed (vars.map SortedVar.marks), marks d body]
termination_by structural term => term

/-- The marks of each of some terms. -/
def marksEach (d : Dialect) : List Term → List (List Mark)
  | [] => []
  | term :: terms => marks d term :: marksEach d terms
termination_by structural terms => terms

/-- The marks of each of some bindings. -/
def marksBindings (d : Dialect) : List (Symbol × Term) → List (List Mark)
  | [] => []
  | (name, value) :: bindings =>
    Mark.enclosed [name.marks, marks d value] :: marksBindings d bindings
termination_by structural bindings => bindings

end

end Term

/-- The marks of an attribute value.  A string in it is refused by no dialect. -/
def AttributeValue.marks : AttributeValue → List Mark
  | .constant value => value.marks
  | .symbol name => name.marks
  | .list items => (SExpr.list items).marks

/-- The marks of the name of a sort and its arity. -/
def SortDecl.marks (decl : SortDecl) : List Mark :=
  Mark.enclosed [decl.name.marks, [.word decl.arity.repr]]

/-- The marks of a selector with its sort. -/
def Selector.marks (selector : Selector) : List Mark :=
  Mark.enclosed [selector.name.marks, selector.sort.marks]

/-- The marks of a constructor with its selectors. -/
def Constructor.marks (constructor : Constructor) : List Mark :=
  Mark.enclosed (constructor.name.marks :: constructor.selectors.map Selector.marks)

/-- The marks of a datatype: its constructors, after its parameters if there are any. -/
def Datatype.marks (datatype : Datatype) : List Mark :=
  let constructors := Mark.enclosed (datatype.constructors.map Constructor.marks)
  if datatype.params.isEmpty then constructors
  else
    Mark.enclosed
      [[.word "par"], Mark.enclosed (datatype.params.map Symbol.marks), constructors]

namespace Command

/-- The marks of what follows the name of a command. -/
def arguments (d : Dialect) : Command → List (List Mark)
  | .assert term => [term.marks d]
  | .declareConst name sort => [name.marks, sort.marks]
  | .declareDatatypes sorts datatypes =>
    [Mark.enclosed (sorts.map SortDecl.marks), Mark.enclosed (datatypes.map Datatype.marks)]
  | .declareFun name params result =>
    [name.marks, Mark.enclosed (params.map SortExpr.marks), result.marks]
  | .declareSort name arity => [name.marks, [.word arity.repr]]
  | .defineFun name params result body =>
    [name.marks, Mark.enclosed (params.map SortedVar.marks), result.marks, body.marks d]
  | .defineSort name params sort =>
    [name.marks, Mark.enclosed (params.map Symbol.marks), sort.marks]
  | .echo text => [(Constant.string text).marks]
  | .getInfo key => [key.marks]
  | .getOption key => [key.marks]
  | .getValue terms => [Mark.enclosed (terms.map (Term.marks d))]
  | .pop levels => [[.word levels.repr]]
  | .push levels => [[.word levels.repr]]
  | .setInfo key none => [key.marks]
  | .setInfo key (some value) => [key.marks, value.marks]
  | .setLogic logic => [logic.marks]
  | .setOption key value => [key.marks, value.marks]
  | .checkSat => []
  | .exit => []
  | .getAssertions => []
  | .getAssignment => []
  | .getModel => []
  | .getProof => []
  | .getUnsatCore => []
  | .reset => []
  | .resetAssertions => []

/-- The marks of a command in a dialect. -/
def marks (d : Dialect) (command : Command) : List Mark :=
  Mark.enclosed ([.word command.name] :: command.arguments d)

end Command

/-- A piece of syntax that can be written. -/
inductive Node where
  | symbol (name : Symbol)
  | keyword (key : Keyword)
  | constant (value : Constant)
  | sexpr (expr : SExpr)
  | index (index : Index)
  | ident (ident : Ident)
  | sort (sort : SortExpr)
  | sortedVar (var : SortedVar)
  | binding (name : Symbol) (value : Term)
  | term (term : Term)
  | attributeValue (value : AttributeValue)
  | sortDecl (decl : SortDecl)
  | selector (selector : Selector)
  | constructor (constructor : Constructor)
  | datatype (datatype : Datatype)
  | command (command : Command)

/-- The marks of a piece of syntax in a dialect. -/
def Node.marks (d : Dialect) : Node → List Mark
  | .symbol name => name.marks
  | .keyword key => key.marks
  | .constant value => value.marks
  | .sexpr expr => expr.marks
  | .index value => value.marks
  | .ident head => head.marks
  | .sort value => value.marks
  | .sortedVar var => var.marks
  | .binding name value => Mark.enclosed [name.marks, value.marks d]
  | .term value => value.marks d
  | .attributeValue value => value.marks
  | .sortDecl decl => decl.marks
  | .selector value => value.marks
  | .constructor value => value.marks
  | .datatype value => value.marks
  | .command value => value.marks d

/-- The text of a piece of syntax in a dialect. -/
def translate (d : Dialect) (node : Node) : Except RefusedString String :=
  match Formatter.blank.write (node.marks d) with
  | (_, .error refused) => .error refused
  | (f, .ok ()) => .ok f.text

/-- The text of a term, as the standard has it. -/
def Term.text (term : Term) : String :=
  (Formatter.blank.write (term.marks .standard)).1.text

/-- The text of a command, as the standard has it. -/
def Command.text (command : Command) : String :=
  (Formatter.blank.write (command.marks .standard)).1.text

end SmtSession
