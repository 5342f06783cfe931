import SmtSession.Proofs.Term.Grouping

/-!
# Terms are read back as they were grouped

A text in a dialect is a layout of the tokens of the encoding of the regrouped
term, so it is read as a tree of this encoding, and the tree as the regrouped
term.  Reading asks for two properties of that term: its tokens are lexically
valid and its heads are not reserved.  Grouping adds no symbol but `and` and no
constant, so both are inherited from the term that is written
(`Term.isLexical_regroup`, `Term.isUnreserved_regroup`).
-/

namespace SmtSession

/-! ## Lexical validity -/

/-- Whether the symbols of an index have no bar. -/
def Index.isLexical : Index → Bool
  | .numeral _ => true
  | .symbol name => name.isLexical

/-- Whether the symbols of an identifier have no bar. -/
def Ident.isLexical (ident : Ident) : Bool :=
  ident.symbol.isLexical && ident.indexes.all Index.isLexical

namespace SortExpr

mutual

/-- Whether the symbols of a sort have no bar. -/
def isLexical : SortExpr → Bool
  | .app head params => head.isLexical && areLexical params
termination_by structural sort => sort

/-- The same for each of some sorts. -/
def areLexical : List SortExpr → Bool
  | [] => true
  | sort :: sorts => isLexical sort && areLexical sorts
termination_by structural sorts => sorts

end

end SortExpr

/-- Whether the symbols of a variable and its sort have no bar. -/
def SortedVar.isLexical (var : SortedVar) : Bool :=
  var.name.isLexical && var.sort.isLexical

namespace Term

mutual

/-- Whether the symbols of a term have no bar, and its constants the digits that they need. -/
def isLexical : Term → Bool
  | .ident head => head.isLexical
  | .constant value => value.isLexical
  | .app head args => head.isLexical && areLexical args
  | .letIn bindings body => bindingsLexical bindings && isLexical body
  | .quantified _ vars body => vars.all SortedVar.isLexical && isLexical body
termination_by structural term => term

/-- The same for each of some terms. -/
def areLexical : List Term → Bool
  | [] => true
  | term :: terms => isLexical term && areLexical terms
termination_by structural terms => terms

/-- The same for the names and the values of some bindings. -/
def bindingsLexical : List (Symbol × Term) → Bool
  | [] => true
  | (name, value) :: bindings => name.isLexical && isLexical value && bindingsLexical bindings
termination_by structural bindings => bindings

end

theorem areLexical_eq_all (terms : List Term) : areLexical terms = terms.all isLexical := by
  induction terms with
  | nil => rfl
  | cons term terms ih => rw [areLexical, ih, List.all_cons]

theorem bindingsLexical_eq_all (bindings : List (Symbol × Term)) :
    bindingsLexical bindings =
      bindings.all fun binding => binding.1.isLexical && isLexical binding.2 := by
  induction bindings with
  | nil => rfl
  | cons binding bindings ih => rw [bindingsLexical, ih, List.all_cons]

theorem areUnreserved_eq_all (terms : List Term) :
    areUnreserved terms = terms.all isUnreserved := by
  induction terms with
  | nil => rfl
  | cons term terms ih => rw [areUnreserved, ih, List.all_cons]

theorem bindingsUnreserved_eq_all (bindings : List (Symbol × Term)) :
    bindingsUnreserved bindings = bindings.all fun binding => isUnreserved binding.2 := by
  induction bindings with
  | nil => rfl
  | cons binding bindings ih => rw [bindingsUnreserved, ih, List.all_cons]

end Term

/-! ## Lexical validity of encodings -/

@[simp] theorem Atom.isLexical_token_symbol (name : Symbol) :
    (Atom.symbol name).token.isLexical = name.isLexical := rfl

@[simp] theorem Atom.isLexical_token_keyword (key : Keyword) :
    (Atom.keyword key).token.isLexical = key.isLexical := rfl

@[simp] theorem Atom.isLexical_token_constant (value : Constant) :
    (Atom.constant value).token.isLexical = value.isLexical := rfl

theorem Index.isLexical_encode (index : Index) : index.encode.isLexical = index.isLexical := by
  cases index with
  | numeral value => simp [encode, isLexical, Constant.isLexical]
  | symbol name => simp [encode, isLexical]

theorem Ident.isLexical_encode (ident : Ident) : ident.encode.isLexical = ident.isLexical := by
  have hunderscore : (SExpr.named "_").isLexical := by decide
  have hindexes : SExpr.isLexical ∘ Index.encode = Index.isLexical :=
    funext Index.isLexical_encode
  unfold encode isLexical
  split
  · next hplain => simp [List.isEmpty_iff.mp hplain]
  · simp [hunderscore, hindexes, List.all_map]

namespace SortExpr

mutual

theorem isLexical_encode : ∀ sort : SortExpr, sort.encode.isLexical = sort.isLexical
  | .app head [] => by simp [encode, isLexical, areLexical, head.isLexical_encode]
  | .app head (param :: params) => by
      simp [encode, isLexical, areLexical, head.isLexical_encode, isLexical_encode param,
        areLexical_encode params]

theorem areLexical_encode : ∀ sorts : List SortExpr,
    (encodeEach sorts).all SExpr.isLexical = areLexical sorts
  | [] => rfl
  | sort :: sorts => by
      rw [encodeEach, areLexical, List.all_cons, isLexical_encode sort, areLexical_encode sorts]

end

end SortExpr

theorem SortedVar.isLexical_encode (var : SortedVar) : var.encode.isLexical = var.isLexical := by
  simp [encode, isLexical, var.sort.isLexical_encode]

namespace Term

mutual

/-- A term is lexically valid if its encoding is. -/
theorem isLexical_encode : ∀ term : Term, term.encode.isLexical = term.isLexical
  | .ident head => by rw [encode, isLexical, head.isLexical_encode]
  | .constant value => by
      rw [encode, isLexical, SExpr.isLexical_atom, Atom.isLexical_token_constant]
  | .app head args => by
      rw [encode, isLexical, SExpr.isLexical_list, List.all_cons, head.isLexical_encode,
        areLexical_encode args]
  | .letIn bindings body => by
      have hlet : (SExpr.named "let").isLexical := by decide
      simp [encode, isLexical, hlet, bindingsLexical_encode bindings, isLexical_encode body]
  | .quantified quantifier vars body => by
      have hname : (SExpr.named quantifier.name).isLexical := by
        cases quantifier <;> decide
      have hvars : SExpr.isLexical ∘ SortedVar.encode = SortedVar.isLexical :=
        funext SortedVar.isLexical_encode
      simp [encode, isLexical, hname, List.all_map, hvars, isLexical_encode body]

theorem areLexical_encode : ∀ terms : List Term,
    (encodeEach terms).all SExpr.isLexical = areLexical terms
  | [] => rfl
  | term :: terms => by
      rw [encodeEach, areLexical, List.all_cons, isLexical_encode term, areLexical_encode terms]

theorem bindingsLexical_encode : ∀ bindings : List (Symbol × Term),
    (encodeBindings bindings).all SExpr.isLexical = bindingsLexical bindings
  | [] => rfl
  | (name, value) :: bindings => by
      simp [encodeBindings, bindingsLexical, isLexical_encode value,
        bindingsLexical_encode bindings]

end

end Term

/-! ## What grouping preserves -/

namespace Grouping

variable {p : Term → Prop} {head : Ident} {args : List Term}

theorem leftTerm_of (happ : ∀ args, (∀ arg ∈ args, p arg) → p (.app head args))
    (hargs : ∀ arg ∈ args, p arg) : p (leftTerm head args) := by
  cases args with
  | nil => exact happ [] hargs
  | cons done args =>
      rw [leftTerm]
      -- what has been applied so far has the property, whatever is left
      induction args generalizing done with
      | nil => exact hargs done (by simp)
      | cons arg args ih =>
          simp only [List.forall_mem_cons] at hargs
          obtain ⟨hdone, harg, hargs⟩ := hargs
          have hfirst : p (.app head [done, arg]) := happ _ (by simp [hdone, harg])
          exact ih _ (List.forall_mem_cons.mpr ⟨hfirst, hargs⟩)

theorem rightTerm_of (happ : ∀ args, (∀ arg ∈ args, p arg) → p (.app head args))
    (hargs : ∀ arg ∈ args, p arg) : p (rightTerm head args) := by
  induction args with
  | nil => exact happ [] hargs
  | cons arg args ih =>
      obtain ⟨harg, hargs⟩ := List.forall_mem_cons.mp hargs
      cases args with
      | nil => exact harg
      | cons second args => exact happ _ (by simp [harg, ih hargs])

theorem pairs_of (happ : ∀ args, (∀ arg ∈ args, p arg) → p (.app head args))
    (hargs : ∀ arg ∈ args, p arg) :
    ∀ pair ∈ List.zipWith (fun a b => Term.app head [a, b]) args args.tail, p pair := by
  intro pair hpair
  obtain ⟨i, hi, rfl⟩ := List.mem_iff_getElem.mp hpair
  rw [List.getElem_zipWith]
  refine happ _ ?_
  simp only [List.mem_cons, List.not_mem_nil, or_false, forall_eq_or_imp, forall_eq]
  exact ⟨hargs _ (List.getElem_mem _), hargs _ (List.mem_of_mem_tail (List.getElem_mem _))⟩

/-- What holds of every application to arguments of which it holds, is preserved by grouping. -/
theorem term_of (grouping : Grouping)
    (happ : ∀ args, (∀ arg ∈ args, p arg) → p (.app head args))
    (hand : ∀ args, (∀ arg ∈ args, p arg) → p (.app (.plain ⟨"and"⟩) args))
    (hargs : ∀ arg ∈ args, p arg) : p (grouping.term head args) := by
  cases grouping with
  | flat => exact happ args hargs
  | left => exact leftTerm_of happ hargs
  | right => exact rightTerm_of happ hargs
  | chainable => exact hand _ (pairs_of happ hargs)

end Grouping

theorem Dialect.group_of {p : Term → Prop} {head : Ident} {args : List Term} (d : Dialect)
    (happ : ∀ args, (∀ arg ∈ args, p arg) → p (.app head args))
    (hand : ∀ args, (∀ arg ∈ args, p arg) → p (.app (.plain ⟨"and"⟩) args))
    (hargs : ∀ arg ∈ args, p arg) : p (d.group head args) := by
  unfold group
  split
  · exact happ args hargs
  · exact Grouping.term_of _ happ hand hargs

namespace Term

/-- A property of terms that says of every node something about its head, the names that it binds
and their sorts. -/
structure Nodewise (p : Term → Bool) (ofHead : Ident → Bool) (ofName : Symbol → Bool)
    (ofVar : SortedVar → Bool) : Prop where
  app : ∀ head args, p (.app head args) = (ofHead head && args.all p)
  letIn : ∀ bindings body,
    p (.letIn bindings body) = (bindings.all (fun binding => ofName binding.1 && p binding.2) &&
      p body)
  quantified : ∀ quantifier vars body,
    p (.quantified quantifier vars body) = (vars.all ofVar && p body)

section Nodewise

variable {p : Term → Bool} {ofHead : Ident → Bool} {ofName : Symbol → Bool}
  {ofVar : SortedVar → Bool}

theorem Nodewise.group (h : Nodewise p ofHead ofName ofVar) (hand : ofHead (.plain ⟨"and"⟩))
    (d : Dialect) {head : Ident} {args : List Term} (hhead : ofHead head)
    (hargs : ∀ arg ∈ args, p arg) : p (d.group head args) := by
  have happ : ∀ head, ofHead head → ∀ args, (∀ arg ∈ args, p arg) → p (.app head args) := by
    intro head hhead args hargs
    rw [h.app, hhead, List.all_eq_true.mpr hargs, Bool.and_self]
  exact d.group_of (happ head hhead) (happ _ hand) hargs

mutual

/-- Such a property is preserved by regrouping, if it allows the head `and`. -/
theorem Nodewise.regroup (h : Nodewise p ofHead ofName ofVar) (hand : ofHead (.plain ⟨"and"⟩))
    (d : Dialect) : ∀ term : Term, p term → p (term.mapApps d.group)
  | .ident _, hterm => hterm
  | .constant _, hterm => hterm
  | .app head args, hterm => by
      rw [h.app, Bool.and_eq_true, List.all_eq_true] at hterm
      rw [mapApps]
      exact h.group hand d hterm.1 (Nodewise.regroupEach h hand d args hterm.2)
  | .letIn bindings body, hterm => by
      rw [h.letIn, Bool.and_eq_true] at hterm
      rw [mapApps, h.letIn, Nodewise.regroupBindings h hand d bindings hterm.1,
        Nodewise.regroup h hand d body hterm.2, Bool.and_self]
  | .quantified quantifier vars body, hterm => by
      rw [h.quantified, Bool.and_eq_true] at hterm
      rw [mapApps, h.quantified, hterm.1, Nodewise.regroup h hand d body hterm.2, Bool.and_self]

theorem Nodewise.regroupEach (h : Nodewise p ofHead ofName ofVar)
    (hand : ofHead (.plain ⟨"and"⟩)) (d : Dialect) : ∀ terms : List Term, (∀ term ∈ terms, p term) →
      ∀ term ∈ mapAppsEach d.group terms, p term
  | [], _ => by simp [mapAppsEach]
  | term :: terms, hterms => by
      rw [List.forall_mem_cons] at hterms
      rw [mapAppsEach, List.forall_mem_cons]
      exact ⟨Nodewise.regroup h hand d term hterms.1, Nodewise.regroupEach h hand d terms hterms.2⟩

theorem Nodewise.regroupBindings (h : Nodewise p ofHead ofName ofVar)
    (hand : ofHead (.plain ⟨"and"⟩)) (d : Dialect) : ∀ bindings : List (Symbol × Term),
      bindings.all (fun binding => ofName binding.1 && p binding.2) →
        (mapAppsBindings d.group bindings).all fun binding => ofName binding.1 && p binding.2
  | [], hbindings => hbindings
  | (name, value) :: bindings, hbindings => by
      rw [List.all_cons, Bool.and_eq_true, Bool.and_eq_true] at hbindings
      obtain ⟨⟨hname, hvalue⟩, hrest⟩ := hbindings
      rw [mapAppsBindings, List.all_cons, hname, Nodewise.regroup h hand d value hvalue,
        Nodewise.regroupBindings h hand d bindings hrest]
      rfl

end

end Nodewise

theorem nodewise_isLexical :
    Nodewise isLexical Ident.isLexical Symbol.isLexical SortedVar.isLexical where
  app := fun head args => by rw [isLexical, areLexical_eq_all]
  letIn := fun bindings body => by rw [isLexical, bindingsLexical_eq_all]
  quantified := fun quantifier vars body => by rw [isLexical]

theorem nodewise_isUnreserved :
    Nodewise isUnreserved (!·.isReserved) (fun _ => true) (·.sort.isUnreserved) where
  app := fun head args => by rw [isUnreserved, areUnreserved_eq_all]
  letIn := fun bindings body => by rw [isUnreserved, bindingsUnreserved_eq_all]; rfl
  quantified := fun quantifier vars body => by rw [isUnreserved]

theorem isLexical_regroup (d : Dialect) {term : Term} (h : term.isLexical) :
    (d.regroup term).isLexical :=
  nodewise_isLexical.regroup (by decide) d term h

theorem isUnreserved_regroup (d : Dialect) {term : Term} (h : term.isUnreserved) :
    (d.regroup term).isUnreserved :=
  nodewise_isUnreserved.regroup (by decide) d term h

end Term

/-! ## The round trip -/

/-- **A term that a dialect writes is read back as this dialect groups it.**  The standard groups
nothing, so there it is the term itself; Z3 groups differences of more than two terms. -/
theorem Term.read_of_translate (d : Dialect) (term : Term) (hlexical : term.isLexical)
    (hunreserved : term.isUnreserved) :
    (∀ text, translate d (.term term) = .ok text →
      ∃ tree, parseText text = .ok tree ∧ Term.ofTree tree = .ok (d.regroup term)) ∧
    Dialect.standard.regroup term = term ∧ Dialect.z3.regroup term = term.leftDifferences := by
  refine ⟨fun text htext => ?_, Dialect.regroup_standard term, Dialect.regroup_z3 term⟩
  have hvalid : (d.regroup term).encode.isLexical := by
    rw [isLexical_encode]
    exact isLexical_regroup d hlexical
  -- the text exists, so no string was refused and the marks are those of the encoding
  have hlaid : Laid false (d.regroup term).encode.tokens text.toList := by
    refine laid_of_translate ?_ htext
    rw [← SExpr.marks_eq_map_ofToken]
    exact markedBy_marks d term
  obtain ⟨tree, hparse, htree⟩ := parseText_of_laid hlaid hvalid
  exact ⟨tree, hparse, ofTree_of_encode _ tree htree (isUnreserved_regroup d hunreserved)⟩

/-- A difference under a quantifier, of a variable, a name between bars and a decimal. -/
theorem Term.read_of_translate_difference :
    ∃ tree, parseText "(forall ((x Int)) (= (- (- x |a b|) 1.5) ((_ f 2) x)))" = .ok tree ∧
      Term.ofTree tree = .ok (.quantified .universal [⟨⟨"x"⟩, .plain (.plain ⟨"Int"⟩)⟩]
        (.app (.plain ⟨"="⟩)
          [.app (.plain ⟨"-"⟩)
            [.app (.plain ⟨"-"⟩) [.ident (.plain ⟨"x"⟩), .ident (.plain ⟨"a b"⟩)],
              .constant (.decimal "1.5")],
            .app ⟨⟨"f"⟩, [.numeral 2]⟩ [.ident (.plain ⟨"x"⟩)]])) :=
  (Term.read_of_translate .z3 (.quantified .universal [⟨⟨"x"⟩, .plain (.plain ⟨"Int"⟩)⟩]
    (.app (.plain ⟨"="⟩)
      [.app (.plain ⟨"-"⟩)
        [.ident (.plain ⟨"x"⟩), .ident (.plain ⟨"a b"⟩), .constant (.decimal "1.5")],
        .app ⟨⟨"f"⟩, [.numeral 2]⟩ [.ident (.plain ⟨"x"⟩)]]))
    (by decide) (by decide)).1 _ (by rfl)

end SmtSession
