import SmtSession.Proofs.Command.Encoding
import SmtSession.Proofs.Response.BitVector
import SmtSession.Proofs.SExpr.RoundTrip
import SmtSession.Proofs.Term.Exactness
import SmtSession.Response.Decoder

/-!
# Decoding what is printed

A response is printed as one S-expression (`Response.text_encode`), and decoding
the printed text gives the response back (`Decoder.decode_print`).

## Strategy

Decoding passes a reply through filters before it is read: literals of old
solvers are replaced, and error reports and `unsupported` are taken out.  A
printed response that none of them takes hold of is read as a tree of its
encoding, and what is left is that each kind of reply rebuilds its response from
such a tree.  Terms are rebuilt by their own reader, the places of an expression
are those of the printed text.
-/

namespace SmtSession

/-! ## Responses as S-expressions -/

namespace Response

/-- The kind of reply that gives the response, if there is one. -/
def shape? : Response → Option ReplyShape
  | .success => some .success
  | .verdict _ => some .verdict
  | .unsupported => none
  | .values _ => some .values
  | .symbols _ => some .symbols
  | .assertions _ => some .assertions
  | .value _ => none
  | .sexpr _ => some .sexpr
  | .text _ => some .text

/-- The response, read nowhere. -/
def unplaced : Response → Response
  | .sexpr tree => .sexpr tree.sexpr.unlocated
  | response => response

/-- A response as an S-expression. -/
def encode : Response → SExpr
  | .success => .named "success"
  | .verdict outcome => .named outcome.text
  | .unsupported => .named "unsupported"
  | .values pairs => .list (pairs.map fun pair => .list [pair.1.encode, pair.2.encode])
  | .symbols names => .list (names.map fun name => .atom (.symbol name))
  | .assertions terms => .list (terms.map Term.encode)
  | .value setting => setting.encode
  | .sexpr tree => tree.sexpr
  | .text content => .atom (.constant (.string content))

/-- Whether a response is made of valid symbols, keywords and constants. -/
def isLexical : Response → Bool
  | .values pairs => pairs.all fun pair => pair.1.isLexical && pair.2.isLexical
  | .symbols names => names.all Symbol.isLexical
  | .assertions terms => terms.all Term.isLexical
  | .value setting => setting.isLexical
  | .sexpr tree => tree.sexpr.isLexical
  | _ => true

/-- Whether the terms of a response have no reserved heads. -/
def isUnreserved : Response → Bool
  | .values pairs => pairs.all fun pair => pair.1.isUnreserved && pair.2.isUnreserved
  | .assertions terms => terms.all Term.isUnreserved
  | _ => true

end Response

namespace Response

/-- A response is printed as its encoding is. -/
theorem text_encode (response : Response) : response.encode.text = response.print := by
  cases response with
  | success => rfl
  | verdict outcome => cases outcome <;> rfl
  | unsupported => rfl
  | values pairs =>
      simp [encode, print, SExpr.text, SExpr.texts_eq_map, Function.comp_def, spaced_pair,
        Term.text_encode, String.append_assoc]
  | symbols names =>
      simp [encode, print, SExpr.text, SExpr.texts_eq_map, Function.comp_def, Atom.text]
  | assertions terms =>
      simp [encode, print, SExpr.text, SExpr.texts_eq_map, Function.comp_def, Term.text_encode]
  | value setting => cases setting <;> rfl
  | sexpr tree => rfl
  | text content => rfl

/-- A response is lexically valid if its encoding is. -/
theorem isLexical_encode (response : Response) :
    response.encode.isLexical = response.isLexical := by
  cases response with
  | success => rfl
  | verdict outcome => cases outcome <;> rfl
  | unsupported => rfl
  | values pairs =>
      simp [encode, isLexical, List.all_map, Function.comp_def, Term.isLexical_encode]
  | symbols names => simp [encode, isLexical, List.all_map, Function.comp_def]
  | assertions terms =>
      simp [encode, isLexical, List.all_map, Function.comp_def, Term.isLexical_encode]
  | value setting => exact setting.isLexical_encode
  | sexpr tree => rfl
  | text content => simp [encode, isLexical, Constant.isLexical]

end Response

/-! ## Rebuilding a response -/

namespace Tree

/-- The items of a list whose encodings are given. -/
theorem exists_items_of_list {α : Type} {tree : Tree} {encode : α → SExpr} {values : List α}
    (h : tree.sexpr = .list (values.map encode)) :
    ∃ items, tree.items? = some items ∧ items.map sexpr = values.map encode := by
  obtain ⟨items, span, rfl, hitems⟩ := eq_list_of_sexpr h
  exact ⟨items, rfl, hitems⟩

theorem symbol?_of_sexpr {tree : Tree} {name : Symbol} (h : tree.sexpr = .atom (.symbol name)) :
    tree.symbol? = some name := by
  obtain ⟨span, rfl⟩ := eq_leaf_of_sexpr h
  rfl

/-- Only a symbol has a name. -/
theorem isName_eq_false_of_list {tree : Tree} {exprs : List SExpr} (h : tree.sexpr = .list exprs)
    (name : String) : tree.isName name = false := by
  obtain ⟨items, span, rfl, -⟩ := eq_list_of_sexpr h
  rfl

end Tree

namespace Decoder

theorem term_of_encode {tree : Tree} {value : Term} (h : tree.sexpr = value.encode)
    (hunreserved : value.isUnreserved) : term tree = .ok value := by
  rw [term, Term.ofTree_of_encode value tree h hunreserved]
  rfl

variable {response : Response} {shape : ReplyShape} {tree : Tree}

/-- **A tree of the encoding of a response is taken for this response.** -/
theorem respond_of_encode (unexpected : DecodeError) (reply : String)
    (hshape : response.shape? = some shape) (htext : shape ≠ .text)
    (htree : tree.sexpr = response.encode) (hunreserved : response.isUnreserved) :
    (respond shape unexpected reply tree).map Response.unplaced = .ok response.unplaced := by
  cases response with
  | success =>
      cases hshape
      have hname : tree.isName "success" := by simp [Tree.isName_of_named htree]
      simp [respond, hname, Except.map, Response.unplaced]
  | verdict outcome =>
      cases hshape
      simp [respond, Tree.symbol?_of_sexpr htree, Except.map, Response.unplaced]
  | values pairs =>
      cases hshape
      simp only [Response.isUnreserved, List.all_eq_true, Bool.and_eq_true] at hunreserved
      obtain ⟨items, hitems, hencode⟩ := Tree.exists_items_of_list htree
      simp only [respond, hitems]
      rw [Tree.mapM_of_encode hencode]
      · rfl
      · intro tree pair hpair h
        obtain ⟨subject, value, span, rfl, hsubject, hvalue⟩ := Tree.eq_pair_of_sexpr h
        obtain ⟨hfirst, hsecond⟩ := hunreserved pair hpair
        simp only [term_of_encode hsubject hfirst, term_of_encode hvalue hsecond]
        rfl
  | symbols names =>
      cases hshape
      obtain ⟨items, hitems, hencode⟩ := Tree.exists_items_of_list htree
      have hsymbols : items.mapM Tree.symbol? = some names :=
        Tree.mapM_of_encode hencode fun tree name _ h => Tree.symbol?_of_sexpr h
      simp [respond, hitems, hsymbols, Except.map, Response.unplaced]
  | assertions terms =>
      cases hshape
      simp only [Response.isUnreserved, List.all_eq_true] at hunreserved
      obtain ⟨items, hitems, hencode⟩ := Tree.exists_items_of_list htree
      have hterms : items.mapM term = .ok terms := Tree.mapM_of_encode hencode
        fun tree value hvalue h => term_of_encode h (hunreserved value hvalue)
      simp only [respond, hitems, hterms]
      rfl
  | sexpr given =>
      cases hshape
      have hsame : tree.sexpr = given.sexpr := htree
      simp [respond, Except.map, Response.unplaced, hsame]
  | text content =>
      cases hshape
      exact absurd rfl htext
  | unsupported => cases hshape
  | value setting => cases hshape

/-- A string that stands alone is echoed. -/
theorem echoed_of_sexpr {reply content : String} {tree : Tree} (hparse : parseText reply = .ok tree)
    (htree : tree.sexpr = .atom (.constant (.string content))) : echoed reply = content := by
  obtain ⟨span, rfl⟩ := Tree.eq_leaf_of_sexpr htree
  rw [echoed, hparse]

/-- No printed response is taken for `unsupported`, an expression of this name apart. -/
theorem isName_unsupported_of_encode (hshape : response.shape? = some shape)
    (htree : tree.sexpr = response.encode)
    (hsupported : ∀ given, response = .sexpr given → given.isName "unsupported" = false) :
    tree.isName "unsupported" = false := by
  cases response with
  | success => simp [Tree.isName_of_named htree]
  | verdict outcome =>
      rw [Tree.isName_of_named htree]
      cases outcome <;> rfl
  | values pairs => exact Tree.isName_eq_false_of_list htree _
  | symbols names => exact Tree.isName_eq_false_of_list htree _
  | assertions terms => exact Tree.isName_eq_false_of_list htree _
  | sexpr given =>
      cases hname : tree.isName "unsupported" with
      | false => rfl
      | true =>
          have hgiven : given.sexpr = .named "unsupported" :=
            htree.symm.trans (Tree.sexpr_of_isName hname)
          have hfalse := hsupported given rfl
          simp [Tree.isName_of_named hgiven] at hfalse
  | text content =>
      obtain ⟨span, rfl⟩ := Tree.eq_leaf_of_sexpr htree
      rfl
  | unsupported => cases hshape
  | value setting => cases hshape

/-! ## Decoding -/

/-- **Decoding undoes printing.**  A response is decoded from its printed text, unless the text
looks like an error report or holds a literal of an old solver, or is the word `unsupported`. -/
theorem decode_print (decoder : Decoder) (response : Response) (shape : ReplyShape)
    (hstrict : decoder.lenient = false) (hshape : response.shape? = some shape)
    (hlexical : response.isLexical) (hunreserved : response.isUnreserved)
    (hliteral : HasNoBitVector response.print) (hreport : isErrorReport response.print = false)
    (hsupported : ∀ tree, response = .sexpr tree → tree.isName "unsupported" = false) :
    (decoder.decode response.print shape).map Response.unplaced = .ok response.unplaced := by
  have hlaid : Laid false response.encode.tokens response.print.toList :=
    response.text_encode ▸ response.encode.laid_text
  obtain ⟨tree, hparse, htree⟩ :=
    parseText_of_laid hlaid (response.isLexical_encode.trans hlexical)
  simp only [decode, normalize_eq_self hliteral, hstrict, hreport, Bool.false_and,
    Bool.false_eq_true, if_false]
  by_cases htext : shape = .text
  · -- an echo is read in its own way
    obtain ⟨content, rfl⟩ : ∃ content, response = .text content := by
      subst htext
      cases response <;> simp_all [Response.shape?]
    rw [if_pos htext, echoed_of_sexpr hparse htree]
    rfl
  · rw [if_neg htext]
    simp only [hparse, isName_unsupported_of_encode hshape htree hsupported, Bool.false_eq_true,
      if_false]
    exact respond_of_encode _ _ hshape htext htree hunreserved

/-- A difference of a name between bars and a bit-vector without its width, and a string with
quotes in it. -/
theorem decode_print_values : ∃ response : Response,
    response.print = "(((- |a b| bv1) \"say \\\"no\\\"\") (x 1.50))" ∧
      (Decoder.decode ⟨3, false⟩ response.print .values).map Response.unplaced = .ok response := by
  let response : Response := .values
    [(.app (.plain ⟨"-"⟩) [.ident (.plain ⟨"a b"⟩), .ident (.plain ⟨"bv1"⟩)],
        .constant (.string "say \"no\"")),
      (.ident (.plain ⟨"x"⟩), .constant (.decimal "1.50"))]
  have hliteral : HasNoBitVector response.print := hasNoBitVector_of_not_mem (by decide +kernel)
  have hreport : isErrorReport response.print = false := by decide +kernel
  exact ⟨response, by rfl, decode_print ⟨3, false⟩ response .values rfl rfl (by decide) (by decide)
    hliteral hreport (by simp [response])⟩

end Decoder

end SmtSession
