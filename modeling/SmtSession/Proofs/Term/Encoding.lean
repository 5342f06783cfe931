import SmtSession.Term.Reader

/-!
# Terms as S-expressions

Every term is written as one S-expression (`Term.encode`), and the reader of
terms rebuilds it from any tree of this expression (`Term.ofTree_of_encode`).

A few names cannot head an application: the reader takes `let`, the two
quantifiers and the underscore for the forms that they introduce.  They are
harmless as symbols of their own, and with indexes.  `Term.isUnreserved` says
that no application of a term, and no sort with parameters, has such a head.
-/

namespace SmtSession

/-! ## Encoding -/

/-- The S-expression that is the symbol of the given name. -/
def SExpr.named (name : String) : SExpr := .atom (.symbol ⟨name⟩)

/-- An index as an S-expression. -/
def Index.encode : Index → SExpr
  | .numeral value => .atom (.constant (.numeral value))
  | .symbol name => .atom (.symbol name)

/-- An identifier as an S-expression: a symbol, or a list that starts with an underscore. -/
def Ident.encode (ident : Ident) : SExpr :=
  if ident.indexes.isEmpty then .atom (.symbol ident.symbol)
  else .list (.named "_" :: .atom (.symbol ident.symbol) :: ident.indexes.map Index.encode)

namespace SortExpr

mutual

/-- A sort as an S-expression. -/
def encode : SortExpr → SExpr
  | .app head [] => head.encode
  | .app head (param :: params) => .list (head.encode :: encode param :: encodeEach params)
termination_by structural sort => sort

/-- Each of some sorts as an S-expression. -/
def encodeEach : List SortExpr → List SExpr
  | [] => []
  | sort :: sorts => encode sort :: encodeEach sorts
termination_by structural sorts => sorts

end

end SortExpr

/-- A variable and its sort as an S-expression. -/
def SortedVar.encode (var : SortedVar) : SExpr :=
  .list [.atom (.symbol var.name), var.sort.encode]

namespace Term

mutual

/-- A term as an S-expression. -/
def encode : Term → SExpr
  | .ident head => head.encode
  | .constant value => .atom (.constant value)
  | .app head args => .list (head.encode :: encodeEach args)
  | .letIn bindings body =>
    .list [.named "let", .list (encodeBindings bindings), encode body]
  | .quantified quantifier vars body =>
    .list [.named quantifier.name, .list (vars.map SortedVar.encode), encode body]
termination_by structural term => term

/-- Each of some terms as an S-expression. -/
def encodeEach : List Term → List SExpr
  | [] => []
  | term :: terms => encode term :: encodeEach terms
termination_by structural terms => terms

/-- Each of some bindings as a list of the name and its value. -/
def encodeBindings : List (Symbol × Term) → List SExpr
  | [] => []
  | (name, value) :: bindings =>
    .list [.atom (.symbol name), encode value] :: encodeBindings bindings
termination_by structural bindings => bindings

end

theorem encodeEach_eq_map (terms : List Term) : encodeEach terms = terms.map encode := by
  induction terms with
  | nil => rfl
  | cons term terms ih => rw [encodeEach, ih, List.map_cons]

end Term

/-! ## Reserved heads -/

/-- Whether an identifier is a plain name that introduces a form of its own. -/
def Ident.isReserved (ident : Ident) : Bool :=
  ident.is "let" || ident.is "forall" || ident.is "exists" || ident.is "_"

namespace SortExpr

mutual

/-- Whether no sort with parameters is headed by a plain underscore. -/
def isUnreserved : SortExpr → Bool
  | .app head params => (params.isEmpty || !head.is "_") && areUnreserved params
termination_by structural sort => sort

/-- The same for each of some sorts. -/
def areUnreserved : List SortExpr → Bool
  | [] => true
  | sort :: sorts => isUnreserved sort && areUnreserved sorts
termination_by structural sorts => sorts

end

end SortExpr

namespace Term

mutual

/-- Whether no application in a term is headed by a reserved name, and no sort with parameters by
a plain underscore. -/
def isUnreserved : Term → Bool
  | .ident _ => true
  | .constant _ => true
  | .app head args => !head.isReserved && areUnreserved args
  | .letIn bindings body => bindingsUnreserved bindings && isUnreserved body
  | .quantified _ vars body => vars.all (·.sort.isUnreserved) && isUnreserved body
termination_by structural term => term

/-- The same for each of some terms. -/
def areUnreserved : List Term → Bool
  | [] => true
  | term :: terms => isUnreserved term && areUnreserved terms
termination_by structural terms => terms

/-- The same for the values of some bindings. -/
def bindingsUnreserved : List (Symbol × Term) → Bool
  | [] => true
  | (_, value) :: bindings => isUnreserved value && bindingsUnreserved bindings
termination_by structural bindings => bindings

end

end Term

/-! ## Trees of an expression -/

namespace Tree

theorem eq_leaf_of_sexpr {tree : Tree} {value : Atom} (h : tree.sexpr = .atom value) :
    ∃ span, tree = .leaf value span := by
  cases tree with
  | leaf found span =>
      rw [sexpr, SExpr.atom.injEq] at h
      exact ⟨span, by rw [h]⟩
  | list items span => simp [sexpr] at h

theorem eq_list_of_sexpr {tree : Tree} {exprs : List SExpr} (h : tree.sexpr = .list exprs) :
    ∃ items span, tree = .list items span ∧ items.map sexpr = exprs := by
  cases tree with
  | leaf value span => simp [sexpr] at h
  | list items span =>
      rw [sexpr, SExpr.list.injEq, sexprs_eq_map] at h
      exact ⟨items, span, rfl, h⟩

theorem eq_pair_of_sexpr {tree : Tree} {a b : SExpr} (h : tree.sexpr = .list [a, b]) :
    ∃ first second span, tree = .list [first, second] span ∧ first.sexpr = a ∧
      second.sexpr = b := by
  obtain ⟨items, span, rfl, hitems⟩ := eq_list_of_sexpr h
  obtain ⟨first, items, rfl, hfirst, hitems⟩ := List.map_eq_cons_iff.mp hitems
  obtain ⟨second, rfl, hsecond⟩ := List.map_eq_singleton_iff.mp hitems
  exact ⟨first, second, span, rfl, hfirst, hsecond⟩

theorem eq_triple_of_sexpr {tree : Tree} {a b c : SExpr} (h : tree.sexpr = .list [a, b, c]) :
    ∃ first second third span, tree = .list [first, second, third] span ∧ first.sexpr = a ∧
      second.sexpr = b ∧ third.sexpr = c := by
  obtain ⟨items, span, rfl, hitems⟩ := eq_list_of_sexpr h
  obtain ⟨first, items, rfl, hfirst, hitems⟩ := List.map_eq_cons_iff.mp hitems
  obtain ⟨second, items, rfl, hsecond, hitems⟩ := List.map_eq_cons_iff.mp hitems
  obtain ⟨third, rfl, hthird⟩ := List.map_eq_singleton_iff.mp hitems
  exact ⟨first, second, third, span, rfl, hfirst, hsecond, hthird⟩

/-- A list whose items encode some values is read item by item. -/
theorem mapM_of_encode {m : Type → Type} [Monad m] [LawfulMonad m] {α : Type} {read : Tree → m α}
    {encode : α → SExpr} {items : List Tree} {values : List α}
    (h : items.map sexpr = values.map encode)
    (hread : ∀ tree, ∀ value ∈ values, tree.sexpr = encode value → read tree = pure value) :
    items.mapM read = pure values := by
  induction values generalizing items with
  | nil =>
      rw [List.map_eq_nil_iff.mp h]
      rfl
  | cons value values ih =>
      obtain ⟨item, items, rfl, hitem, hitems⟩ := List.map_eq_cons_iff.mp h
      rw [List.mapM_cons, hread item value (by simp) hitem,
        ih hitems fun tree value hvalue => hread tree value (by simp [hvalue])]
      simp

end Tree

theorem Symbol.ofTree_of_sexpr {tree : Tree} {name : Symbol}
    (h : tree.sexpr = .atom (.symbol name)) : Symbol.ofTree tree = .ok name := by
  obtain ⟨span, rfl⟩ := Tree.eq_leaf_of_sexpr h
  rfl

theorem Index.ofTree_of_encode {tree : Tree} {index : Index} (h : tree.sexpr = index.encode) :
    Index.ofTree tree = .ok index := by
  cases index with
  | numeral value =>
      obtain ⟨span, rfl⟩ := Tree.eq_leaf_of_sexpr h
      rfl
  | symbol name =>
      obtain ⟨span, rfl⟩ := Tree.eq_leaf_of_sexpr h
      rfl

theorem Symbol.beq_mk (symbol : Symbol) (name : String) :
    (symbol == ⟨name⟩) = (symbol.name == name) := by
  cases symbol
  rw [Bool.eq_iff_iff, beq_iff_eq, beq_iff_eq, Symbol.mk.injEq]

theorem Tree.isName_of_named {tree : Tree} {name : String} (h : tree.sexpr = .named name)
    (other : String) : tree.isName other = (name == other) := by
  obtain ⟨span, rfl⟩ := Tree.eq_leaf_of_sexpr h
  simp [isName, symbol?, Symbol.beq_mk]

/-- The tree of an identifier is a leaf, or a list that starts with an underscore. -/
theorem Tree.cases_of_encode {tree : Tree} {ident : Ident} (h : tree.sexpr = ident.encode) :
    (∃ span, tree = .leaf (.symbol ident.symbol) span ∧ ident.indexes.isEmpty) ∨
      ∃ first items span, tree = .list (first :: items) span ∧ first.isName "_" ∧
        items.map sexpr = .atom (.symbol ident.symbol) :: ident.indexes.map Index.encode ∧
        ident.indexes.isEmpty = false := by
  unfold Ident.encode at h
  split at h
  · next hplain =>
      obtain ⟨span, rfl⟩ := Tree.eq_leaf_of_sexpr h
      exact .inl ⟨span, rfl, hplain⟩
  · next hindexed =>
      obtain ⟨items, span, rfl, hitems⟩ := Tree.eq_list_of_sexpr h
      obtain ⟨first, items, rfl, hfirst, hitems⟩ := List.map_eq_cons_iff.mp hitems
      have hname : first.isName "_" := by simp [Tree.isName_of_named hfirst]
      exact .inr ⟨first, items, span, rfl, hname, hitems, by simpa using hindexed⟩

/-- The tree of an identifier is a name only if the identifier is plain. -/
theorem Tree.isName_of_encode {tree : Tree} {ident : Ident} (h : tree.sexpr = ident.encode)
    (name : String) : tree.isName name = ident.is name := by
  obtain ⟨span, rfl, hplain⟩ | ⟨first, items, span, rfl, -, -, hindexed⟩ :=
    Tree.cases_of_encode h
  · simp [isName, symbol?, Ident.is, hplain, Symbol.beq_mk]
  · simp [isName, symbol?, Ident.is, hindexed]

theorem Ident.plain_symbol {ident : Ident} (h : ident.indexes.isEmpty) :
    Ident.plain ident.symbol = ident := by
  obtain ⟨symbol, indexes⟩ := ident
  rw [List.isEmpty_iff] at h
  cases h
  rfl

/-! ## Reading what is encoded -/

theorem Ident.ofTree_of_encode {tree : Tree} {ident : Ident} (h : tree.sexpr = ident.encode) :
    Ident.ofTree tree = .ok ident := by
  obtain ⟨span, rfl, hplain⟩ | ⟨first, items, span, rfl, hname, hitems, hindexed⟩ :=
    Tree.cases_of_encode h
  · rw [ofTree, plain_symbol hplain]
  · obtain ⟨symbol, items, rfl, hsymbol, hindexes⟩ := List.map_eq_cons_iff.mp hitems
    have hread := Tree.mapM_of_encode hindexes fun tree index _ h => Index.ofTree_of_encode h
    cases items with
    | nil =>
        have hnil : ident.indexes = [] := by simpa using hindexes
        simp [hnil] at hindexed
    | cons index items =>
        simp only [ofTree, hname, if_true, Symbol.ofTree_of_sexpr hsymbol, hread]
        rfl

namespace SortExpr

mutual

theorem ofTree_of_encode : ∀ (sort : SortExpr) (tree : Tree), tree.sexpr = sort.encode →
    sort.isUnreserved → ofTree tree = .ok sort
  | .app head [], tree, h, _ => by
      rw [encode] at h
      have hread := Ident.ofTree_of_encode h
      obtain ⟨span, rfl, hplain⟩ | ⟨first, items, span, rfl, hname, -, -⟩ :=
        Tree.cases_of_encode h
      · rw [ofTree, Ident.plain_symbol hplain]
        rfl
      · rw [ofTree, if_pos hname, hread]
        rfl
  | .app head (param :: params), tree, h, hunreserved => by
      rw [encode] at h
      simp only [isUnreserved, List.isEmpty_cons, Bool.false_or, Bool.and_eq_true,
        Bool.not_eq_true'] at hunreserved
      obtain ⟨items, span, rfl, hitems⟩ := Tree.eq_list_of_sexpr h
      obtain ⟨first, items, rfl, hfirst, hparams⟩ := List.map_eq_cons_iff.mp hitems
      have hname : first.isName "_" = false := by
        rw [Tree.isName_of_encode hfirst, hunreserved.1]
      have hreads : ofTrees items = .ok (param :: params) :=
        ofTrees_of_encode (param :: params) items hparams hunreserved.2
      have hne : items.isEmpty = false := by
        cases items with
        | nil => simp at hparams
        | cons item items => rfl
      simp only [ofTree, hname, hne, Bool.false_eq_true, if_false, Ident.ofTree_of_encode hfirst,
        hreads]
      rfl

theorem ofTrees_of_encode : ∀ (sorts : List SortExpr) (trees : List Tree),
    trees.map Tree.sexpr = encodeEach sorts → areUnreserved sorts → ofTrees trees = .ok sorts
  | [], trees, h, _ => by
      rw [List.map_eq_nil_iff.mp h]
      rfl
  | sort :: sorts, trees, h, hunreserved => by
      obtain ⟨tree, trees, rfl, htree, htrees⟩ := List.map_eq_cons_iff.mp h
      simp only [areUnreserved, Bool.and_eq_true] at hunreserved
      rw [ofTrees, ofTree_of_encode sort tree htree hunreserved.1,
        ofTrees_of_encode sorts trees htrees hunreserved.2]
      rfl

end

end SortExpr

theorem SortedVar.ofTree_of_encode {tree : Tree} {var : SortedVar} (h : tree.sexpr = var.encode)
    (hunreserved : var.sort.isUnreserved) : SortedVar.ofTree tree = .ok var := by
  obtain ⟨name, sort, span, rfl, hname, hsort⟩ := Tree.eq_pair_of_sexpr h
  rw [ofTree, Symbol.ofTree_of_sexpr hname,
    SortExpr.ofTree_of_encode var.sort sort hsort hunreserved]
  rfl

namespace Term

theorem quantifier_of_named {tree : Tree} {quantifier : Quantifier}
    (h : tree.sexpr = .named quantifier.name) :
    tree.isName "let" = false ∧ Quantifier.ofTree tree = some quantifier := by
  cases quantifier <;>
    simp [Quantifier.ofTree, Tree.isName_of_named h, Quantifier.name]

theorem ofTree_indexed {head : Tree} (args : List Tree) (span : Span) (h : head.isName "_") :
    ofTree (.list (head :: args) span) =
      (do return .ident (← Ident.ofTree (.list (head :: args) span))) := by
  have hname : head.symbol? = some ⟨"_"⟩ := beq_iff_eq.mp h
  rw [ofTree.eq_def]
  simp [Quantifier.ofTree, Tree.isName, hname]

theorem ofTree_app {head : Tree} (args : List Tree) (span : Span) (hlet : head.isName "let" = false)
    (hquantifier : Quantifier.ofTree head = none) (hindexed : head.isName "_" = false) :
    ofTree (.list (head :: args) span) =
      (do let head ← Ident.ofTree head; return .app head (← ofTrees args)) := by
  rw [ofTree.eq_def]
  simp [hlet, hquantifier, hindexed]

mutual

/-- **A tree of the encoding of a term is read as this term.** -/
theorem ofTree_of_encode : ∀ (term : Term) (tree : Tree), tree.sexpr = term.encode →
    term.isUnreserved → ofTree tree = .ok term
  | .ident head, tree, h, _ => by
      rw [encode] at h
      have hread := Ident.ofTree_of_encode h
      obtain ⟨span, rfl, hplain⟩ | ⟨first, items, span, rfl, hname, -, -⟩ :=
        Tree.cases_of_encode h
      · rw [ofTree, Ident.plain_symbol hplain]
      · rw [ofTree_indexed items span hname, hread]
        rfl
  | .constant value, tree, h, _ => by
      rw [encode] at h
      obtain ⟨span, rfl⟩ := Tree.eq_leaf_of_sexpr h
      rw [ofTree]
  | .app head args, tree, h, hunreserved => by
      rw [encode] at h
      simp only [isUnreserved, Ident.isReserved, Bool.and_eq_true, Bool.not_eq_true',
        Bool.or_eq_false_iff] at hunreserved
      obtain ⟨⟨⟨⟨hlet, hforall⟩, hexists⟩, hunderscore⟩, hargs⟩ := hunreserved
      obtain ⟨items, span, rfl, hitems⟩ := Tree.eq_list_of_sexpr h
      obtain ⟨first, items, rfl, hfirst, hitems⟩ := List.map_eq_cons_iff.mp hitems
      -- the head has a name only if it is plain, and then it is none of the reserved ones
      have hname := Tree.isName_of_encode hfirst
      have hquantifier : Quantifier.ofTree first = none := by
        simp [Quantifier.ofTree, hname, hforall, hexists]
      rw [ofTree_app items span (by rw [hname, hlet]) hquantifier (by rw [hname, hunderscore]),
        Ident.ofTree_of_encode hfirst, ofTrees_of_encode args items hitems hargs]
      rfl
  | .letIn bindings body, tree, h, hunreserved => by
      rw [encode] at h
      simp only [isUnreserved, Bool.and_eq_true] at hunreserved
      obtain ⟨first, second, third, span, rfl, hfirst, hsecond, hthird⟩ :=
        Tree.eq_triple_of_sexpr h
      obtain ⟨inner, place, rfl, hinner⟩ := Tree.eq_list_of_sexpr hsecond
      have hname : first.isName "let" := by simp [Tree.isName_of_named hfirst]
      simp only [ofTree, hname, if_true, ofBindings_of_encode bindings inner hinner hunreserved.1,
        ofTree_of_encode body third hthird hunreserved.2]
      rfl
  | .quantified quantifier vars body, tree, h, hunreserved => by
      rw [encode] at h
      simp only [isUnreserved, Bool.and_eq_true, List.all_eq_true] at hunreserved
      obtain ⟨first, second, third, span, rfl, hfirst, hsecond, hthird⟩ :=
        Tree.eq_triple_of_sexpr h
      obtain ⟨inner, place, rfl, hinner⟩ := Tree.eq_list_of_sexpr hsecond
      obtain ⟨hlet, hquantifier⟩ := quantifier_of_named hfirst
      have hvars : inner.mapM SortedVar.ofTree = .ok vars := Tree.mapM_of_encode hinner
        fun tree var hvar h => SortedVar.ofTree_of_encode h (hunreserved.1 var hvar)
      simp only [ofTree, hlet, hquantifier, Bool.false_eq_true, if_false, hvars,
        ofTree_of_encode body third hthird hunreserved.2]
      rfl

theorem ofTrees_of_encode : ∀ (terms : List Term) (trees : List Tree),
    trees.map Tree.sexpr = encodeEach terms → areUnreserved terms → ofTrees trees = .ok terms
  | [], trees, h, _ => by
      rw [List.map_eq_nil_iff.mp h]
      rfl
  | term :: terms, trees, h, hunreserved => by
      obtain ⟨tree, trees, rfl, htree, htrees⟩ := List.map_eq_cons_iff.mp h
      simp only [areUnreserved, Bool.and_eq_true] at hunreserved
      rw [ofTrees, ofTree_of_encode term tree htree hunreserved.1,
        ofTrees_of_encode terms trees htrees hunreserved.2]
      rfl

theorem ofBindings_of_encode : ∀ (bindings : List (Symbol × Term)) (trees : List Tree),
    trees.map Tree.sexpr = encodeBindings bindings → bindingsUnreserved bindings →
      ofBindings trees = .ok bindings
  | [], trees, h, _ => by
      rw [List.map_eq_nil_iff.mp h]
      rfl
  | (name, value) :: bindings, trees, h, hunreserved => by
      obtain ⟨tree, trees, rfl, htree, htrees⟩ := List.map_eq_cons_iff.mp h
      simp only [bindingsUnreserved, Bool.and_eq_true] at hunreserved
      obtain ⟨first, second, span, rfl, hfirst, hsecond⟩ := Tree.eq_pair_of_sexpr htree
      rw [ofBindings, ofBinding, Symbol.ofTree_of_sexpr hfirst,
        ofBindings_of_encode bindings trees htrees hunreserved.2]
      simp only [bind, Except.bind, ofTree_of_encode value second hsecond hunreserved.1]
      rfl

end

end Term

end SmtSession
