import SmtSession.Proofs.Formatter.Layout
import SmtSession.Proofs.Term.Encoding

/-!
# The term that a dialect writes

A dialect regroups applications to more than two arguments, and only these.
`Dialect.regroup` does to a term what the formatter does to its marks.  So the
marks of a term in a dialect are those of the encoding of the regrouped term
(`Term.markedBy_marks`), and what the regrouped term needs for being read back
holds of it as soon as it holds of the term.

The formatter groups lists of marks and knows nothing of terms, so the two are
related argument by argument (`Term.MarkedBy`).
-/

namespace SmtSession

/-! ## Regrouping -/

namespace Grouping

/-- An application that leans to the left. -/
def leftTerm (head : Ident) : List Term → Term
  | [] => .app head []
  | arg :: args => args.foldl (fun done arg => .app head [done, arg]) arg

/-- An application that leans to the right. -/
def rightTerm (head : Ident) : List Term → Term
  | [] => .app head []
  | [arg] => arg
  | arg :: args => .app head [arg, rightTerm head args]

/-- The conjunction of the applications to neighbouring arguments. -/
def chainedTerm (head : Ident) (args : List Term) : Term :=
  .app (.plain ⟨"and"⟩) (List.zipWith (fun a b => .app head [a, b]) args args.tail)

/-- An application in the given grouping. -/
def term (grouping : Grouping) (head : Ident) (args : List Term) : Term :=
  match grouping with
  | .flat => .app head args
  | .left => leftTerm head args
  | .right => rightTerm head args
  | .chainable => chainedTerm head args

end Grouping

namespace Term

mutual

/-- The term with `f` in the place of every application. -/
def mapApps (f : Ident → List Term → Term) : Term → Term
  | .ident head => .ident head
  | .constant value => .constant value
  | .app head args => f head (mapAppsEach f args)
  | .letIn bindings body => .letIn (mapAppsBindings f bindings) (mapApps f body)
  | .quantified quantifier vars body => .quantified quantifier vars (mapApps f body)
termination_by structural term => term

/-- The same for each of some terms. -/
def mapAppsEach (f : Ident → List Term → Term) : List Term → List Term
  | [] => []
  | term :: terms => mapApps f term :: mapAppsEach f terms
termination_by structural terms => terms

/-- The same for the values of some bindings. -/
def mapAppsBindings (f : Ident → List Term → Term) : List (Symbol × Term) → List (Symbol × Term)
  | [] => []
  | (name, value) :: bindings => (name, mapApps f value) :: mapAppsBindings f bindings
termination_by structural bindings => bindings

end

/-- The term in which every difference of more than two terms leans to the left. -/
def leftDifferences : Term → Term :=
  mapApps fun head args =>
    if head.is "-" && 2 < args.length then Grouping.leftTerm head args else .app head args

end Term

namespace Dialect

/-- An application as a dialect groups it. -/
def group (d : Dialect) (head : Ident) (args : List Term) : Term :=
  if args.length ≤ 2 then .app head args else (d.grouping head args.length).term head args

/-- The term with every application as a dialect groups it. -/
def regroup (d : Dialect) (term : Term) : Term := term.mapApps d.group

end Dialect

/-! ## The two dialects -/

namespace Term

mutual

theorem mapApps_app : ∀ term : Term, mapApps .app term = term
  | .ident _ => rfl
  | .constant _ => rfl
  | .app head args => by rw [mapApps, mapAppsEach_app args]
  | .letIn bindings body => by rw [mapApps, mapAppsBindings_app bindings, mapApps_app body]
  | .quantified _ _ body => by rw [mapApps, mapApps_app body]

theorem mapAppsEach_app : ∀ terms : List Term, mapAppsEach .app terms = terms
  | [] => rfl
  | term :: terms => by rw [mapAppsEach, mapApps_app term, mapAppsEach_app terms]

theorem mapAppsBindings_app : ∀ bindings : List (Symbol × Term),
    mapAppsBindings .app bindings = bindings
  | [] => rfl
  | (name, value) :: bindings => by
      rw [mapAppsBindings, mapApps_app value, mapAppsBindings_app bindings]

end

end Term

namespace Dialect

/-- The standard regroups nothing. -/
theorem regroup_standard (term : Term) : standard.regroup term = term := by
  have hgroup : standard.group = .app := by
    funext head args
    rw [group, standard, Grouping.term, ite_self]
  rw [regroup, hgroup, term.mapApps_app]

/-- Z3 regroups differences. -/
theorem regroup_z3 (term : Term) : z3.regroup term = term.leftDifferences := by
  rw [regroup, Term.leftDifferences]
  congr 1
  funext head args
  by_cases hfew : args.length ≤ 2
  · rw [group, if_pos hfew, if_neg (by simp; omega)]
  · have hmany : 2 < args.length := by omega
    rw [group, if_neg hfew]
    by_cases hminus : head.is "-"
    · simp [z3, hminus, hmany, Grouping.term]
    · simp [z3, hminus, Grouping.term]

end Dialect

/-! ## Marks of encodings -/

theorem SExpr.marks_named {name : String} (h : (Symbol.mk name).isSimple) :
    (SExpr.named name).marks = [.word name] := by
  simp [SExpr.named, SExpr.marks, Atom.marks, Symbol.marks, Symbol.text, h]

theorem SExpr.markedBy_named {name : String} (h : (Symbol.mk name).isSimple) :
    MarkedBy [.word name] (.named name) :=
  .of_eq (marks_named h)

theorem Index.marks_encode (index : Index) : index.encode.marks = index.marks := by
  cases index <;> rfl

theorem Ident.marks_encode (ident : Ident) : ident.encode.marks = ident.marks := by
  unfold encode marks
  split
  · rfl
  · rw [SExpr.marks, SExpr.marksEach_eq_map, List.map_cons, List.map_cons, List.map_map,
      SExpr.marks_named (by decide)]
    have hindexes : SExpr.marks ∘ Index.encode = Index.marks := funext Index.marks_encode
    rw [hindexes]
    rfl

namespace SortExpr

mutual

theorem marks_encode : ∀ sort : SortExpr, sort.encode.marks = sort.marks
  | .app head [] => by rw [encode, marks, head.marks_encode]
  | .app head (param :: params) => by
      rw [encode, marks, SExpr.marks, SExpr.marksEach, SExpr.marksEach, head.marks_encode,
        marks_encode param, marksEach_encode params]

theorem marksEach_encode : ∀ sorts : List SortExpr,
    SExpr.marksEach (encodeEach sorts) = marksEach sorts
  | [] => rfl
  | sort :: sorts => by
      rw [encodeEach, marksEach, SExpr.marksEach, marks_encode sort, marksEach_encode sorts]

end

end SortExpr

theorem SortedVar.marks_encode (var : SortedVar) : var.encode.marks = var.marks := by
  rw [encode, marks, SExpr.marks, SExpr.marksEach, SExpr.marksEach, SExpr.marksEach,
    var.sort.marks_encode]
  rfl

theorem SortedVar.markedBy (var : SortedVar) : SExpr.MarkedBy var.marks var.encode :=
  .of_eq var.marks_encode

/-! ## Marks of terms -/

namespace Term

/-- The marks are those of the encoding of a term, up to refused strings. -/
def MarkedBy (marks : List Mark) (term : Term) : Prop :=
  marks.map Mark.accepted = term.encode.marks

/-- The list of marks and the list of terms match one by one. -/
abbrev EachMarkedBy : List (List Mark) → List Term → Prop := List.Forall₂ MarkedBy

section Grouping

variable {head : Ident} {args : List (List Mark)} {terms : List Term}

theorem markedBy_call (h : EachMarkedBy args terms) :
    MarkedBy (Grouping.call head.marks args) (.app head terms) := by
  have hargs : List.Forall₂ SExpr.MarkedBy args (terms.map encode) :=
    List.forall₂_map_right_iff.mpr h
  rw [MarkedBy, encode, encodeEach_eq_map]
  exact SExpr.markedBy_list (.cons (.of_eq head.marks_encode) hargs)

theorem markedBy_call₂ {a b : List Mark} {s t : Term} (ha : MarkedBy a s) (hb : MarkedBy b t) :
    MarkedBy (Grouping.call head.marks [a, b]) (.app head [s, t]) :=
  markedBy_call (.cons ha (.cons hb .nil))

theorem markedBy_leftCalls (h : EachMarkedBy args terms) :
    MarkedBy (Grouping.leftCalls head.marks args) (Grouping.leftTerm head terms) := by
  cases h with
  | nil => exact markedBy_call .nil
  | @cons first done rest others hfirst hrest =>
      rw [Grouping.leftCalls, Grouping.leftTerm]
      -- the application so far is marked, whatever is left
      induction hrest generalizing first done with
      | nil => exact hfirst
      | cons hsecond _ ih => exact ih (markedBy_call₂ hfirst hsecond)

theorem markedBy_rightCalls (h : EachMarkedBy args terms) :
    MarkedBy (Grouping.rightCalls head.marks args) (Grouping.rightTerm head terms) := by
  induction h with
  | nil => exact markedBy_call .nil
  | cons hfirst hrest ih =>
      cases hrest with
      | nil => exact hfirst
      | cons hsecond hrest => exact markedBy_call₂ hfirst ih

theorem markedBy_chainedCalls (h : EachMarkedBy args terms) :
    MarkedBy (Grouping.chainedCalls head.marks args) (Grouping.chainedTerm head terms) := by
  -- neighbours stay neighbours, so the pairs match as the arguments do
  have hpairs : EachMarkedBy
      (List.zipWith (fun a b => Grouping.call head.marks [a, b]) args args.tail)
      (List.zipWith (fun s t => .app head [s, t]) terms terms.tail) := by
    induction h with
    | nil => exact .nil
    | cons hfirst hrest ih =>
        cases hrest with
        | nil => exact .nil
        | cons hsecond hrest => exact .cons (markedBy_call₂ hfirst hsecond) ih
  rw [Grouping.chainedCalls, ← show (Ident.plain ⟨"and"⟩).marks = [.word "and"] from rfl]
  exact markedBy_call hpairs

/-- A dialect groups the marks of an application as it groups the application. -/
theorem markedBy_apply (d : Dialect) (h : EachMarkedBy args terms) :
    MarkedBy (d.apply head args) (d.group head terms) := by
  rw [Dialect.apply, Dialect.group, h.length_eq]
  split
  · exact markedBy_call h
  · cases d.grouping head terms.length with
    | flat => exact markedBy_call h
    | left => exact markedBy_leftCalls h
    | right => exact markedBy_rightCalls h
    | chainable => exact markedBy_chainedCalls h

end Grouping

mutual

/-- **The marks of a term in a dialect are those of the regrouped term.** -/
theorem markedBy_marks (d : Dialect) : ∀ term : Term, MarkedBy (term.marks d) (d.regroup term)
  | .ident head => by
      rw [MarkedBy, marks, ← head.marks_encode, SExpr.map_accepted_marks]
      rfl
  | .constant value => by
      cases value with
      | string value =>
          -- a refused string is spelled out by `Mark.accepted`
          rw [MarkedBy, marks]
          split <;> rfl
      | numeral value => rfl
      | decimal text => rfl
      | hexadecimal digits => rfl
      | binary digits => rfl
  | .app head args => by
      rw [marks, Dialect.regroup, mapApps]
      exact markedBy_apply d (eachMarkedBy_marksEach d args)
  | .letIn bindings body => by
      have hlet : SExpr.MarkedBy [.word "let"] (.named "let") := SExpr.markedBy_named (by decide)
      have hbindings := SExpr.markedBy_list (forall₂_marksBindings d bindings)
      have hbody := markedBy_marks d body
      exact SExpr.markedBy_list (.cons hlet (.cons hbindings (.cons hbody .nil)))
  | .quantified quantifier vars body => by
      have hname : SExpr.MarkedBy [.word quantifier.name] (.named quantifier.name) := by
        cases quantifier <;> exact SExpr.markedBy_named (by decide)
      have hvars := SExpr.markedBy_list_map SortedVar.markedBy vars
      have hbody := markedBy_marks d body
      exact SExpr.markedBy_list (.cons hname (.cons hvars (.cons hbody .nil)))

theorem eachMarkedBy_marksEach (d : Dialect) : ∀ terms : List Term,
    EachMarkedBy (marksEach d terms) (mapAppsEach d.group terms)
  | [] => .nil
  | term :: terms => by
      rw [marksEach, mapAppsEach]
      exact .cons (markedBy_marks d term) (eachMarkedBy_marksEach d terms)

theorem forall₂_marksBindings (d : Dialect) : ∀ bindings : List (Symbol × Term),
    List.Forall₂ SExpr.MarkedBy (marksBindings d bindings)
      (encodeBindings (mapAppsBindings d.group bindings))
  | [] => .nil
  | (name, value) :: bindings => by
      have hvalue := markedBy_marks d value
      have hbinding := SExpr.markedBy_list (.cons name.markedBy (.cons hvalue .nil))
      exact .cons hbinding (forall₂_marksBindings d bindings)

end

end Term

end SmtSession
