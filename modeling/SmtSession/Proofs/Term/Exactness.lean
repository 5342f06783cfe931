import Mathlib.Data.List.Forall2
import SmtSession.Proofs.Formatter.Printing
import SmtSession.Proofs.Term.Grouping

/-!
# What the reader takes for a term

The converse of reading what is encoded: a tree that is read as a term is a tree
of the encoding of this term, and no head in the term is reserved.  Together the
two directions say what is read (`Term.ofTree_exact`), so nothing of a tree is
dropped on the way, and two expressions are never read as one term.

## Strategy

`Term.ofTree_list_cases` says once which forms a list can be read as, with what
has been read of their parts.  The proof for a tree then has a case for each
form.  Binders and arguments are lists of trees that are read one by one, so
`List.Forall₂` relates them to what they are read as.
-/

namespace SmtSession

/-! ## Steps of the reader -/

/-- A step that is followed by another succeeds if both do. -/
theorem exists_of_bind_eq_ok {ε α β : Type} {first : Except ε α} {next : α → Except ε β} {value : β}
    (h : (first >>= next) = .ok value) :
    ∃ middle, first = .ok middle ∧ next middle = .ok value := by
  cases first with
  | error error => simp [bind, Except.bind] at h
  | ok middle => exact ⟨middle, rfl, h⟩

/-- Where a list is read, each item is. -/
theorem forall₂_of_mapM_eq_ok {ε α β : Type} {read : α → Except ε β} {items : List α}
    {values : List β} (h : items.mapM read = .ok values) :
    List.Forall₂ (fun item value => read item = .ok value) items values := by
  induction items generalizing values with
  | nil =>
      cases h
      exact .nil
  | cons item items ih =>
      rw [List.mapM_cons] at h
      obtain ⟨value, hvalue, h⟩ := exists_of_bind_eq_ok h
      obtain ⟨others, hothers, h⟩ := exists_of_bind_eq_ok h
      cases h
      exact .cons hvalue (ih hothers)

/-- What holds of everything that is matched holds of each value. -/
theorem forall_mem_of_forall₂ {α β : Type} {p : β → Prop} {items : List α} {values : List β}
    (h : List.Forall₂ (fun _ value => p value) items values) : ∀ value ∈ values, p value := by
  induction h with
  | nil => simp
  | cons hvalue _ ih => exact List.forall_mem_cons.mpr ⟨hvalue, ih⟩

namespace Tree

/-- Trees that match encodings one by one are trees of the list of encodings. -/
theorem map_sexpr_of_forall₂ {α : Type} {encode : α → SExpr} {items : List Tree} {values : List α}
    (h : List.Forall₂ (fun item value => item.sexpr = encode value) items values) :
    items.map sexpr = values.map encode := by
  rw [← List.forall₂_eq_eq_eq, List.forall₂_map_left_iff, List.forall₂_map_right_iff]
  exact h

theorem sexpr_of_isName {tree : Tree} {name : String} (h : tree.isName name) :
    tree.sexpr = .named name := by
  have hsymbol : tree.symbol? = some ⟨name⟩ := beq_iff_eq.mp h
  unfold symbol? at hsymbol
  split at hsymbol
  · cases hsymbol
    rw [sexpr, SExpr.named]
  · simp at hsymbol

end Tree

/-! ## Identifiers -/

theorem Symbol.sexpr_of_ofTree {tree : Tree} {name : Symbol} (h : Symbol.ofTree tree = .ok name) :
    tree.sexpr = .atom (.symbol name) := by
  unfold ofTree at h
  split at h
  · cases h
    rw [Tree.sexpr]
  · simp [Tree.refuse] at h

theorem Index.sexpr_of_ofTree {tree : Tree} {index : Index} (h : Index.ofTree tree = .ok index) :
    tree.sexpr = index.encode := by
  unfold ofTree at h
  split at h
  · cases h
    rw [Tree.sexpr, encode]
  · cases h
    rw [Tree.sexpr, encode]
  · simp [Tree.refuse] at h

theorem Ident.sexpr_of_ofTree {tree : Tree} {ident : Ident} (h : Ident.ofTree tree = .ok ident) :
    tree.sexpr = ident.encode := by
  unfold ofTree at h
  split at h
  · cases h
    rw [Tree.sexpr]
    rfl
  · next underscore rest span =>
      split at h
      · next hunderscore =>
          split at h
          · next name index indexes =>
              obtain ⟨symbol, hsymbol, h⟩ := exists_of_bind_eq_ok h
              obtain ⟨values, hvalues, h⟩ := exists_of_bind_eq_ok h
              cases h
              have hmatch := forall₂_of_mapM_eq_ok hvalues
              have hindexes : (index :: indexes).map Tree.sexpr = values.map Index.encode :=
                Tree.map_sexpr_of_forall₂ (hmatch.imp fun _ _ => Index.sexpr_of_ofTree)
              -- there is an index, so the identifier is not written as a plain symbol
              have hsome : values.isEmpty = false := by
                cases hmatch
                rfl
              rw [Tree.sexpr, Tree.sexprs_eq_map, List.map_cons, List.map_cons, hindexes,
                Tree.sexpr_of_isName hunderscore, Symbol.sexpr_of_ofTree hsymbol]
              simp [encode, hsome]
          · simp at h
      · simp at h
  · simp [Tree.refuse] at h

/-! ## Sorts -/

namespace SortExpr

theorem encodeEach_eq_map (sorts : List SortExpr) : encodeEach sorts = sorts.map encode := by
  induction sorts with
  | nil => rfl
  | cons sort sorts ih => rw [encodeEach, ih, List.map_cons]

theorem encode_plain (head : Ident) : (plain head).encode = head.encode := by
  rw [plain, encode]

theorem isUnreserved_plain (head : Ident) : (plain head).isUnreserved := by
  simp [plain, isUnreserved, areUnreserved]

mutual

theorem sexpr_of_ofTree : ∀ (tree : Tree) (sort : SortExpr), ofTree tree = .ok sort →
    tree.sexpr = sort.encode ∧ sort.isUnreserved
  | .leaf value span, sort, h => by
      cases value with
      | symbol name =>
          cases h
          exact ⟨by rw [encode_plain, Tree.sexpr]; rfl, isUnreserved_plain _⟩
      | constant value => simp [ofTree, Tree.refuse] at h
      | keyword key => simp [ofTree, Tree.refuse] at h
  | .list [] span, sort, h => by simp [ofTree] at h
  | .list (head :: params) span, sort, h => by
      rw [ofTree] at h
      split at h
      · obtain ⟨ident, hident, h⟩ := exists_of_bind_eq_ok h
        cases h
        exact ⟨by rw [encode_plain, Ident.sexpr_of_ofTree hident], isUnreserved_plain _⟩
      · next hunderscore =>
          split at h
          · simp at h
          · next hparams =>
              obtain ⟨ident, hident, h⟩ := exists_of_bind_eq_ok h
              obtain ⟨sorts, hsorts, h⟩ := exists_of_bind_eq_ok h
              cases h
              have hhead := Ident.sexpr_of_ofTree hident
              obtain ⟨hencode, hunreserved⟩ := sexpr_of_ofTrees params sorts hsorts
              have hplain : ident.is "_" = false := by
                rw [← Tree.isName_of_encode hhead]
                simpa using hunderscore
              refine ⟨?_, by simp [isUnreserved, hplain, hunreserved]⟩
              -- the parameters are not lost: there are as many sorts as trees
              cases sorts with
              | nil => simp [encodeEach] at hencode; simp [hencode] at hparams
              | cons param others =>
                  rw [Tree.sexpr, Tree.sexprs_eq_map, List.map_cons, hencode, hhead, encode,
                    encodeEach]

theorem sexpr_of_ofTrees : ∀ (trees : List Tree) (sorts : List SortExpr),
    ofTrees trees = .ok sorts → trees.map Tree.sexpr = encodeEach sorts ∧ areUnreserved sorts
  | [], sorts, h => by
      cases h
      exact ⟨rfl, rfl⟩
  | tree :: trees, sorts, h => by
      rw [ofTrees] at h
      obtain ⟨sort, hsort, h⟩ := exists_of_bind_eq_ok h
      obtain ⟨others, hothers, h⟩ := exists_of_bind_eq_ok h
      cases h
      obtain ⟨hencode, hunreserved⟩ := sexpr_of_ofTree tree sort hsort
      obtain ⟨hencodes, hareUnreserved⟩ := sexpr_of_ofTrees trees others hothers
      exact ⟨by rw [List.map_cons, hencode, hencodes, encodeEach],
        by simp [areUnreserved, hunreserved, hareUnreserved]⟩

end

end SortExpr

theorem SortedVar.sexpr_of_ofTree {tree : Tree} {var : SortedVar}
    (h : SortedVar.ofTree tree = .ok var) :
    tree.sexpr = var.encode ∧ var.sort.isUnreserved := by
  unfold ofTree at h
  split at h
  · next name sort span =>
      obtain ⟨symbol, hsymbol, h⟩ := exists_of_bind_eq_ok h
      obtain ⟨value, hvalue, h⟩ := exists_of_bind_eq_ok h
      cases h
      obtain ⟨hsort, hunreserved⟩ := SortExpr.sexpr_of_ofTree sort value hvalue
      refine ⟨?_, hunreserved⟩
      rw [encode, Tree.sexpr, Tree.sexprs_eq_map, List.map_cons, List.map_cons, List.map_nil, hsort,
        Symbol.sexpr_of_ofTree hsymbol]
  · simp at h
  · simp [Tree.refuse] at h

/-! ## Terms -/

theorem Quantifier.ofTree_eq_some {tree : Tree} {quantifier : Quantifier}
    (h : Quantifier.ofTree tree = some quantifier) : tree.sexpr = .named quantifier.name := by
  unfold ofTree at h
  split at h
  · next hname =>
      cases h
      exact Tree.sexpr_of_isName hname
  · split at h
    · next hname =>
        cases h
        exact Tree.sexpr_of_isName hname
    · simp at h

theorem Quantifier.isName_of_ofTree_eq_none {tree : Tree} (h : Quantifier.ofTree tree = none) :
    tree.isName "forall" = false ∧ tree.isName "exists" = false := by
  unfold ofTree at h
  split at h
  · simp at h
  · next hforall =>
      split at h
      · simp at h
      · next hexists => exact ⟨by simpa using hforall, by simpa using hexists⟩

namespace Term

/-- **What a list can be read as**, with what is read of its parts: a form with a name of its own,
an indexed identifier, or an application of something else. -/
theorem ofTree_list_cases {head : Tree} {args : List Tree} {span : Span} {term : Term}
    (h : ofTree (.list (head :: args) span) = .ok term) :
    (∃ bindings place body values value, args = [.list bindings place, body] ∧
        head.sexpr = .named "let" ∧ ofBindings bindings = .ok values ∧ ofTree body = .ok value ∧
        term = .letIn values value) ∨
      (∃ quantifier trees place body vars value, args = [.list trees place, body] ∧
        head.sexpr = .named quantifier.name ∧ trees.mapM SortedVar.ofTree = .ok vars ∧
        ofTree body = .ok value ∧ term = .quantified quantifier vars value) ∨
      (∃ ident, Ident.ofTree (.list (head :: args) span) = .ok ident ∧ term = .ident ident) ∨
      (∃ ident values, Ident.ofTree head = .ok ident ∧ ofTrees args = .ok values ∧
        ident.isReserved = false ∧ term = .app ident values) := by
  rw [ofTree.eq_def] at h
  dsimp only at h
  split at h
  · next hlet =>
      split at h
      · next bindings place body =>
          obtain ⟨values, hvalues, h⟩ := exists_of_bind_eq_ok h
          obtain ⟨value, hvalue, h⟩ := exists_of_bind_eq_ok h
          cases h
          exact .inl ⟨bindings, place, body, values, value, rfl, Tree.sexpr_of_isName hlet, hvalues,
            hvalue, rfl⟩
      · simp [Tree.refuse] at h
      · simp at h
  · next hlet =>
      split at h
      · next quantifier hquantifier =>
          split at h
          · next trees place body =>
              obtain ⟨vars, hvars, h⟩ := exists_of_bind_eq_ok h
              obtain ⟨value, hvalue, h⟩ := exists_of_bind_eq_ok h
              cases h
              exact .inr (.inl ⟨quantifier, trees, place, body, vars, value, rfl,
                Quantifier.ofTree_eq_some hquantifier, hvars, hvalue, rfl⟩)
          · simp [Tree.refuse] at h
          · simp at h
      · next hquantifier =>
          split at h
          · obtain ⟨ident, hident, h⟩ := exists_of_bind_eq_ok h
            cases h
            exact .inr (.inr (.inl ⟨ident, hident, rfl⟩))
          · next hunderscore =>
              obtain ⟨ident, hident, h⟩ := exists_of_bind_eq_ok h
              obtain ⟨values, hvalues, h⟩ := exists_of_bind_eq_ok h
              cases h
              -- none of the reserved names is that of the head
              have hname := Tree.isName_of_encode (Ident.sexpr_of_ofTree hident)
              obtain ⟨hforall, hexists⟩ := Quantifier.isName_of_ofTree_eq_none hquantifier
              have hreserved : ident.isReserved = false := by
                simp only [Bool.not_eq_true] at hlet hunderscore
                rw [Ident.isReserved, ← hname, ← hname, ← hname, ← hname, hlet, hforall, hexists,
                  hunderscore]
                rfl
              exact .inr (.inr (.inr ⟨ident, values, hident, hvalues, hreserved, rfl⟩))

/-- A binding that is read is a list of its name and its value. -/
theorem ofBinding_cases {tree : Tree} {binding : Symbol × Term} (h : ofBinding tree = .ok binding) :
    ∃ name value span, tree = .list [name, value] span ∧
      name.sexpr = .atom (.symbol binding.1) ∧ ofTree value = .ok binding.2 := by
  rw [ofBinding.eq_def] at h
  split at h
  · next name value span =>
      obtain ⟨symbol, hsymbol, h⟩ := exists_of_bind_eq_ok h
      obtain ⟨term, hterm, h⟩ := exists_of_bind_eq_ok h
      cases h
      exact ⟨name, value, span, rfl, Symbol.sexpr_of_ofTree hsymbol, hterm⟩
  · simp at h
  · simp [Tree.refuse] at h

mutual

/-- **A tree that is read as a term is one of its encoding, and the term has no reserved head.** -/
theorem sexpr_of_ofTree : ∀ (tree : Tree) (term : Term), ofTree tree = .ok term →
    tree.sexpr = term.encode ∧ term.isUnreserved
  | .leaf value span, term, h => by
      cases value with
      | symbol name =>
          cases h
          exact ⟨by rw [Tree.sexpr, encode]; rfl, rfl⟩
      | constant value =>
          cases h
          exact ⟨by rw [Tree.sexpr, encode], rfl⟩
      | keyword key => simp [ofTree] at h
  | .list [] span, term, h => by simp [ofTree] at h
  | .list (head :: args) span, term, h => by
      obtain ⟨bindings, place, body, values, value, hargs, hlet, hvalues, hvalue, rfl⟩ |
        ⟨quantifier, trees, place, body, vars, value, hargs, hname, hvars, hvalue, rfl⟩ |
        ⟨ident, hident, rfl⟩ | ⟨ident, values, hident, hvalues, hreserved, rfl⟩ :=
        ofTree_list_cases h
      · obtain ⟨hbindings, hbindingsUnreserved⟩ := sexpr_of_ofBindings bindings values hvalues
        obtain ⟨hbody, hunreserved⟩ := sexpr_of_ofTree body value hvalue
        refine ⟨?_, by simp [isUnreserved, hbindingsUnreserved, hunreserved]⟩
        rw [hargs, encode, Tree.sexpr, Tree.sexprs_eq_map, List.map_cons, List.map_cons,
          List.map_singleton, Tree.sexpr, Tree.sexprs_eq_map, hlet, hbindings, hbody]
      · have hmatch : List.Forall₂ (fun tree var => tree.sexpr = SortedVar.encode var ∧
            var.sort.isUnreserved) trees vars :=
          (forall₂_of_mapM_eq_ok hvars).imp fun _ _ => SortedVar.sexpr_of_ofTree
        have hencode := Tree.map_sexpr_of_forall₂ (hmatch.imp fun _ _ h => h.1)
        have hsorts := forall_mem_of_forall₂ (hmatch.imp fun _ _ h => h.2)
        obtain ⟨hbody, hunreserved⟩ := sexpr_of_ofTree body value hvalue
        refine ⟨?_, by simpa [isUnreserved, hunreserved] using hsorts⟩
        rw [hargs, encode, Tree.sexpr, Tree.sexprs_eq_map, List.map_cons, List.map_cons,
          List.map_singleton, Tree.sexpr, Tree.sexprs_eq_map, hname,
          hencode, hbody]
      · exact ⟨by rw [Ident.sexpr_of_ofTree hident, encode], rfl⟩
      · obtain ⟨hargs, hunreserved⟩ := sexpr_of_ofTrees args values hvalues
        refine ⟨?_, by simp [isUnreserved, hreserved, hunreserved]⟩
        rw [Tree.sexpr, Tree.sexprs_eq_map, List.map_cons, hargs, Ident.sexpr_of_ofTree hident,
          encode]
termination_by tree => sizeOf tree
decreasing_by
  · simp only [hargs, List.cons.sizeOf_spec, Tree.list.sizeOf_spec]
    omega
  · simp only [hargs, List.cons.sizeOf_spec, Tree.list.sizeOf_spec]
    omega
  · simp only [hargs, List.cons.sizeOf_spec, Tree.list.sizeOf_spec]
    omega
  · simp only [Tree.list.sizeOf_spec, List.cons.sizeOf_spec]
    omega

theorem sexpr_of_ofTrees : ∀ (trees : List Tree) (terms : List Term), ofTrees trees = .ok terms →
    trees.map Tree.sexpr = encodeEach terms ∧ areUnreserved terms
  | [], terms, h => by
      cases h
      exact ⟨rfl, rfl⟩
  | tree :: trees, terms, h => by
      rw [ofTrees] at h
      obtain ⟨term, hterm, h⟩ := exists_of_bind_eq_ok h
      obtain ⟨others, hothers, h⟩ := exists_of_bind_eq_ok h
      cases h
      obtain ⟨hencode, hunreserved⟩ := sexpr_of_ofTree tree term hterm
      obtain ⟨hencodes, hareUnreserved⟩ := sexpr_of_ofTrees trees others hothers
      exact ⟨by rw [List.map_cons, hencode, hencodes, encodeEach],
        by simp [areUnreserved, hunreserved, hareUnreserved]⟩
termination_by trees => sizeOf trees

theorem sexpr_of_ofBindings : ∀ (trees : List Tree) (bindings : List (Symbol × Term)),
    ofBindings trees = .ok bindings →
      trees.map Tree.sexpr = encodeBindings bindings ∧ bindingsUnreserved bindings
  | [], bindings, h => by
      cases h
      exact ⟨rfl, rfl⟩
  | tree :: trees, bindings, h => by
      rw [ofBindings] at h
      obtain ⟨⟨symbol, term⟩, hbinding, h⟩ := exists_of_bind_eq_ok h
      obtain ⟨others, hothers, h⟩ := exists_of_bind_eq_ok h
      cases h
      obtain ⟨name, value, span, htree, hname, hvalue⟩ := ofBinding_cases hbinding
      obtain ⟨hencode, hunreserved⟩ := sexpr_of_ofTree value term hvalue
      obtain ⟨hencodes, hareUnreserved⟩ := sexpr_of_ofBindings trees others hothers
      refine ⟨?_, by simp [bindingsUnreserved, hunreserved, hareUnreserved]⟩
      rw [List.map_cons, hencodes, encodeBindings, htree, Tree.sexpr, Tree.sexprs_eq_map,
        List.map_cons, List.map_singleton, hname, hencode]
termination_by trees => sizeOf trees
decreasing_by
  · simp only [htree, List.cons.sizeOf_spec, Tree.list.sizeOf_spec]
    omega
  · simp only [List.cons.sizeOf_spec]
    omega

end

/-! ## Printed terms -/

mutual

/-- The standard groups nothing and refuses nothing, so it writes a term by its encoding. -/
theorem marks_standard : ∀ term : Term, term.marks .standard = term.encode.marks
  | .ident head => by rw [marks, encode, head.marks_encode]
  | .constant value => by cases value <;> rfl
  | .app head args => by
      rw [marks, encode, Dialect.apply, SExpr.marks, SExpr.marksEach, head.marks_encode,
        ← marksEach_standard args]
      exact ite_self _
  | .letIn bindings body => by
      rw [marks, encode, SExpr.marks, SExpr.marksEach, SExpr.marksEach, SExpr.marksEach,
        SExpr.marksEach, SExpr.marks, SExpr.marks_named (by decide),
        marksBindings_standard bindings, marks_standard body]
  | .quantified quantifier vars body => by
      have hname : (SExpr.named quantifier.name).marks = [.word quantifier.name] := by
        cases quantifier <;> exact SExpr.marks_named (by decide)
      have hvars : SExpr.marks ∘ SortedVar.encode = SortedVar.marks :=
        funext SortedVar.marks_encode
      rw [marks, encode, SExpr.marks, SExpr.marksEach, SExpr.marksEach, SExpr.marksEach,
        SExpr.marksEach, SExpr.marks, SExpr.marksEach_eq_map, List.map_map, hvars, hname,
        marks_standard body]

theorem marksEach_standard : ∀ terms : List Term,
    marksEach .standard terms = SExpr.marksEach (encodeEach terms)
  | [] => rfl
  | term :: terms => by
      rw [marksEach, encodeEach, SExpr.marksEach, marks_standard term, marksEach_standard terms]

theorem marksBindings_standard : ∀ bindings : List (Symbol × Term),
    marksBindings .standard bindings = SExpr.marksEach (encodeBindings bindings)
  | [] => rfl
  | (name, value) :: bindings => by
      rw [marksBindings, encodeBindings, SExpr.marksEach, marks_standard value,
        marksBindings_standard bindings, SExpr.marks, SExpr.marksEach, SExpr.marksEach,
        SExpr.marksEach]
      rfl

end

/-- A term is printed as its encoding is. -/
theorem text_encode (term : Term) : term.encode.text = term.text := by
  rw [text, marks_standard, Formatter.write_blank_marks]

/-! ## Reading is exact -/

/-- **The reader accepts the encodings of terms without reserved heads, and loses nothing.**  What
is read is printed as the tree was, and trees that are read as one term are trees of one
expression. -/
theorem ofTree_exact (tree : Tree) (term : Term) :
    (ofTree tree = .ok term ↔ tree.sexpr = term.encode ∧ term.isUnreserved) ∧
      (ofTree tree = .ok term → term.text = tree.text ∧
        ∀ other, ofTree other = .ok term → other.sexpr = tree.sexpr) := by
  refine ⟨⟨sexpr_of_ofTree tree term, fun h => ofTree_of_encode term tree h.1 h.2⟩, ?_⟩
  intro h
  have hencode := (sexpr_of_ofTree tree term h).1
  refine ⟨?_, ?_⟩
  · rw [Tree.text, hencode, text_encode]
  · intro other hother
    rw [hencode, (sexpr_of_ofTree other term hother).1]

/-- A binding, a quantifier over an indexed sort, and an indexed head. -/
theorem ofTree_exact_nested : ∃ tree term, ofTree tree = .ok term ∧
    tree.sexpr = term.encode ∧ term.isUnreserved ∧
    term.text = "(let ((a 1)) (forall ((x (_ BitVec 8))) ((_ f 2) a x)))" := by
  let term : Term := .letIn [(⟨"a"⟩, .constant (.numeral 1))]
    (.quantified .universal [⟨⟨"x"⟩, .plain ⟨⟨"BitVec"⟩, [.numeral 8]⟩⟩]
      (.app ⟨⟨"f"⟩, [.numeral 2]⟩ [.ident (.plain ⟨"a"⟩), .ident (.plain ⟨"x"⟩)]))
  have hread : ofTree term.encode.unlocated = .ok term := by rfl
  obtain ⟨hiff, hprinted⟩ := ofTree_exact term.encode.unlocated term
  obtain ⟨hencode, hunreserved⟩ := hiff.mp hread
  have htext : term.encode.unlocated.text =
      "(let ((a 1)) (forall ((x (_ BitVec 8))) ((_ f 2) a x)))" := by rfl
  exact ⟨_, term, hread, hencode, hunreserved, by rw [(hprinted hread).1, htext]⟩

end Term

end SmtSession
