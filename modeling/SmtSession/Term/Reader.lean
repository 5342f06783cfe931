import SmtSession.SExpr.Basic
import SmtSession.Term.Basic

/-!
# Reading terms

Terms, sorts and identifiers are rebuilt from trees.  When a tree is none, the error stands at
the place of the smallest tree that shows why.
-/

namespace SmtSession

/-- The forms that can be malformed. -/
inductive Form where
  | letIn
  | quantified (quantifier : Quantifier)
  | binding
  | sortedVar
  | indexedIdent
  | sort
  deriving DecidableEq

/-- The name of a form in messages. -/
def Form.name : Form → String
  | .letIn => "let"
  | .quantified quantifier => quantifier.name
  | .binding => "binding"
  | .sortedVar => "sorted variable"
  | .indexedIdent => "indexed identifier"
  | .sort => "sort"

/-- What a tree was expected to be. -/
inductive Wanted where
  | symbol
  | list
  | sort
  deriving DecidableEq

/-- The name of what was expected in messages. -/
def Wanted.name : Wanted → String
  | .symbol => "symbol"
  | .list => "list"
  | .sort => "sort"

/-- Why a tree is no term. -/
inductive TermError where
  | emptyList
  | unexpectedKeyword (key : Keyword)
  | invalidHead (found : Shape)
  | invalidIndex (found : SExpr)
  | malformed (form : Form)
  | expected (wanted : Wanted) (found : Shape)
  deriving DecidableEq

/-- What the user is told about a tree that is no term. -/
def TermError.message : TermError → String
  | .emptyList => "the empty list is not a term"
  | .unexpectedKeyword key => "unexpected keyword `" ++ key.text ++ "' in term"
  | .invalidHead found =>
    "invalid function head: expected a symbol or an indexed identifier, got a " ++ found.name
  | .invalidIndex found => "invalid index `" ++ found.text ++ "'"
  | .malformed form => "malformed " ++ form.name
  | .expected wanted found => "expected a " ++ wanted.name ++ ", got a " ++ found.name

/-- The outcome of reading a tree. -/
abbrev Read := Except (Located TermError)

/-- The refusal of a tree. -/
def Tree.refuse {α : Type} (tree : Tree) (error : TermError) : Read α :=
  .error ⟨error, tree.span⟩

/-- Reads a symbol. -/
def Symbol.ofTree : Tree → Read Symbol
  | .leaf (.symbol name) _ => .ok name
  | tree => tree.refuse (.expected .symbol tree.shape)

/-- Reads an index: a numeral or a symbol. -/
def Index.ofTree : Tree → Read Index
  | .leaf (.constant (.numeral value)) _ => .ok (.numeral value)
  | .leaf (.symbol name) _ => .ok (.symbol name)
  | tree => tree.refuse (.invalidIndex tree.sexpr)

/-- Whether a tree is the symbol of the given name. -/
def Tree.isName (tree : Tree) (name : String) : Bool :=
  tree.symbol? == some ⟨name⟩

/-- Reads an identifier: a symbol, or a list of an underscore, a symbol, and some indexes. -/
def Ident.ofTree : Tree → Read Ident
  | .leaf (.symbol name) _ => .ok (.plain name)
  | .list (underscore :: rest) span =>
    if underscore.isName "_" then
      match rest with
      | symbol :: index :: indexes => do
        let symbol ← Symbol.ofTree symbol
        let indexes ← (index :: indexes).mapM Index.ofTree
        return ⟨symbol, indexes⟩
      | _ => .error ⟨.malformed .indexedIdent, span⟩
    else
      .error ⟨.invalidHead .list, span⟩
  | tree => tree.refuse (.invalidHead tree.shape)

namespace SortExpr

mutual

/-- Reads a sort.  A list is an indexed identifier, or a head with at least one parameter. -/
def ofTree : Tree → Read SortExpr
  | .leaf (.symbol name) _ => .ok (.plain (.plain name))
  | .leaf value span => (Tree.leaf value span).refuse (.expected .sort (Tree.leaf value span).shape)
  | .list [] span => .error ⟨.malformed .sort, span⟩
  | .list (head :: params) span =>
    if head.isName "_" then do
      return .plain (← Ident.ofTree (.list (head :: params) span))
    else if params.isEmpty then
      .error ⟨.malformed .sort, span⟩
    else do
      let head ← Ident.ofTree head
      return .app head (← ofTrees params)
termination_by structural tree => tree

/-- Reads some sorts, up to the first tree that is none. -/
def ofTrees : List Tree → Read (List SortExpr)
  | [] => .ok []
  | tree :: trees => do
    let sort ← ofTree tree
    return sort :: (← ofTrees trees)
termination_by structural trees => trees

end

end SortExpr

/-- Reads a variable with its sort: a list of the two. -/
def SortedVar.ofTree : Tree → Read SortedVar
  | .list [name, sort] _ => do
    let name ← Symbol.ofTree name
    return ⟨name, ← SortExpr.ofTree sort⟩
  | .list _ span => .error ⟨.malformed .sortedVar, span⟩
  | tree => tree.refuse (.expected .list tree.shape)

/-- The quantifier that a tree names, if it names one. -/
def Quantifier.ofTree (tree : Tree) : Option Quantifier :=
  if tree.isName "forall" then some .universal
  else if tree.isName "exists" then some .existential
  else none

namespace Term

mutual

/-- Reads a term. -/
def ofTree : Tree → Read Term
  | .leaf (.symbol name) _ => .ok (.ident (.plain name))
  | .leaf (.constant value) _ => .ok (.constant value)
  | .leaf (.keyword key) span => .error ⟨.unexpectedKeyword key, span⟩
  | .list [] span => .error ⟨.emptyList, span⟩
  | .list (head :: args) span =>
    if head.isName "let" then
      match args with
      | [.list bindings _, body] => do
        let bindings ← ofBindings bindings
        return .letIn bindings (← ofTree body)
      | [bindings, _] => bindings.refuse (.expected .list bindings.shape)
      | _ => .error ⟨.malformed .letIn, span⟩
    else
      match Quantifier.ofTree head with
      | some quantifier =>
        match args with
        | [.list vars _, body] => do
          let vars ← vars.mapM SortedVar.ofTree
          return .quantified quantifier vars (← ofTree body)
        | [vars, _] => vars.refuse (.expected .list vars.shape)
        | _ => .error ⟨.malformed (.quantified quantifier), span⟩
      | none =>
        if head.isName "_" then do
          return .ident (← Ident.ofTree (.list (head :: args) span))
        else do
          let head ← Ident.ofTree head
          return .app head (← ofTrees args)
termination_by structural tree => tree

/-- Reads some terms, up to the first tree that is none. -/
def ofTrees : List Tree → Read (List Term)
  | [] => .ok []
  | tree :: trees => do
    let term ← ofTree tree
    return term :: (← ofTrees trees)
termination_by structural trees => trees

/-- Reads a binding: a list of a name and its value. -/
def ofBinding : Tree → Read (Symbol × Term)
  | .list [name, value] _ => do
    let name ← Symbol.ofTree name
    return (name, ← ofTree value)
  | .list _ span => .error ⟨.malformed .binding, span⟩
  | .leaf value span => (Tree.leaf value span).refuse (.expected .list (Tree.leaf value span).shape)
termination_by structural tree => tree

/-- Reads some bindings, up to the first tree that is none. -/
def ofBindings : List Tree → Read (List (Symbol × Term))
  | [] => .ok []
  | tree :: trees => do
    let binding ← ofBinding tree
    return binding :: (← ofBindings trees)
termination_by structural trees => trees

end

end Term

end SmtSession
