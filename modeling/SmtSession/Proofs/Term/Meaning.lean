import Mathlib.Data.List.Induction
import SmtSession.Proofs.SExpr.RoundTrip
import SmtSession.Proofs.Term.Exactness
import SmtSession.Proofs.Term.RoundTrip

/-!
# Grouping preserves meaning

A dialect writes an application to many arguments as applications to two.  Here
terms get a value in an interpretation (`Term.value`), and a dialect that groups
functions only as the interpretation allows writes every term as one of the same
value (`Interpretation.value_of_translate`).

An interpretation may be any that has a meaning for constants, functions and
quantifiers.  What it allows is said by three laws about a function at more than
two arguments, one for each way of grouping them.

## Strategy

The rewriting is done at every application, under binders too, so its induction
asks for one thing only: that regrouping a single application keeps its value
under every assignment (`Term.value_mapApps`).  For a single application the
values of the arguments are given, and what is left is a fact about lists of
values: the nested applications are a fold.
-/

namespace SmtSession

/-! ## Values of terms -/

/-- The values of the names that are bound. -/
abbrev Assignment (δ : Type*) := Symbol → Option δ

/-- The assignment in which the given names have the given values. -/
def Assignment.bind {δ : Type*} (env : Assignment δ) (values : List (Symbol × δ)) : Assignment δ :=
  fun name => (values.lookup name).or (env name)

/-- What constants, functions and quantifiers mean. -/
structure Interpretation (δ : Type*) where
  constant : Constant → δ
  /-- A function at any number of arguments. -/
  function : Ident → List δ → δ
  /-- A quantifier, given what its body means under every assignment, and the assignment around
  it. -/
  quantifier : Quantifier → List SortedVar → (Assignment δ → δ) → Assignment δ → δ

variable {δ : Type*}

/-- The value of an identifier that stands alone: that of the name, if it is bound, or else of the
function without arguments. -/
def Interpretation.name (I : Interpretation δ) (head : Ident) (env : Assignment δ) : δ :=
  (if head.indexes.isEmpty then env head.symbol else none).getD (I.function head [])

namespace Term

mutual

/-- The value of a term under an assignment.  Names that are bound together do not see each
other. -/
def value (I : Interpretation δ) : Term → Assignment δ → δ
  | .ident head, env => I.name head env
  | .constant value, _ => I.constant value
  | .app head args, env => I.function head (valueEach I args env)
  | .letIn bindings body, env => value I body (env.bind (valueBindings I bindings env))
  | .quantified quantifier vars body, env =>
    I.quantifier quantifier vars (fun env => value I body env) env
termination_by structural term => term

/-- The values of some terms under one assignment. -/
def valueEach (I : Interpretation δ) : List Term → Assignment δ → List δ
  | [], _ => []
  | term :: terms, env => value I term env :: valueEach I terms env
termination_by structural terms => terms

/-- The names of some bindings with their values, all under the assignment around the bindings. -/
def valueBindings (I : Interpretation δ) :
    List (Symbol × Term) → Assignment δ → List (Symbol × δ)
  | [], _ => []
  | (name, term) :: bindings, env => (name, value I term env) :: valueBindings I bindings env
termination_by structural bindings => bindings

end

theorem valueEach_eq_map (I : Interpretation δ) (terms : List Term) (env : Assignment δ) :
    valueEach I terms env = terms.map (value I · env) := by
  induction terms with
  | nil => rfl
  | cons term terms ih => rw [valueEach, ih, List.map_cons]

/-! ## Rewriting applications -/

/-- What is put in place of an application has its value. -/
def KeepsValues (I : Interpretation δ) (f : Ident → List Term → Term) : Prop :=
  ∀ head args env, (f head args).value I env = I.function head (valueEach I args env)

variable {I : Interpretation δ} {f : Ident → List Term → Term}

mutual

/-- Applications may be replaced by anything of the same value, at every depth. -/
theorem value_mapApps (h : KeepsValues I f) : ∀ (term : Term) (env : Assignment δ),
    (term.mapApps f).value I env = term.value I env
  | .ident _, _ => rfl
  | .constant _, _ => rfl
  | .app head args, env => by rw [mapApps, h, valueEach_mapApps h args, value]
  | .letIn bindings body, env => by
      rw [mapApps, value, valueBindings_mapApps h bindings, value_mapApps h body, value]
  | .quantified quantifier vars body, env => by
      -- a quantifier sees the value of its body under all assignments
      have hbody : value I (body.mapApps f) = value I body := funext (value_mapApps h body)
      rw [mapApps, value, value, hbody]

theorem valueEach_mapApps (h : KeepsValues I f) : ∀ (terms : List Term) (env : Assignment δ),
    valueEach I (mapAppsEach f terms) env = valueEach I terms env
  | [], _ => rfl
  | term :: terms, env => by
      rw [mapAppsEach, valueEach, value_mapApps h term, valueEach_mapApps h terms, valueEach]

theorem valueBindings_mapApps (h : KeepsValues I f) :
    ∀ (bindings : List (Symbol × Term)) (env : Assignment δ),
      valueBindings I (mapAppsBindings f bindings) env = valueBindings I bindings env
  | [], _ => rfl
  | (name, term) :: bindings, env => by
      rw [mapAppsBindings, valueBindings, value_mapApps h term, valueBindings_mapApps h bindings,
        valueBindings]

end

end Term

/-! ## What an interpretation allows -/

namespace Interpretation

variable (I : Interpretation δ)

/-- At more than two arguments, the function is applied to its value at all but the last one, and
the last one. -/
def LeftAssociative (head : Ident) : Prop :=
  ∀ (args : List δ) (last : δ), 2 ≤ args.length →
    I.function head (args ++ [last]) = I.function head [I.function head args, last]

/-- At more than two arguments, the function is applied to the first one, and its value at all
others. -/
def RightAssociative (head : Ident) : Prop :=
  ∀ (first : δ) (args : List δ), 2 ≤ args.length →
    I.function head (first :: args) = I.function head [first, I.function head args]

/-- At more than two arguments, the function is the conjunction of its values at neighbours. -/
def Chained (head : Ident) : Prop :=
  ∀ args : List δ, 3 ≤ args.length →
    I.function head args = I.function (.plain ⟨"and"⟩)
      (List.zipWith (fun a b => I.function head [a, b]) args args.tail)

/-- Every function that the dialect groups in some way may be grouped in this way. -/
structure Respects (d : Dialect) : Prop where
  left : ∀ head arity, 2 < arity → d.grouping head arity = .left → I.LeftAssociative head
  right : ∀ head arity, 2 < arity → d.grouping head arity = .right → I.RightAssociative head
  chainable : ∀ head arity, 2 < arity → d.grouping head arity = .chainable → I.Chained head

/-- Z3 asks for the difference only. -/
theorem respects_z3 : I.Respects .z3 ↔ I.LeftAssociative (.plain ⟨"-"⟩) := by
  constructor
  · intro h
    exact h.left (.plain ⟨"-"⟩) 3 (by omega) (by decide)
  · intro h
    refine ⟨?_, ?_, ?_⟩
    · intro head arity _ hleft
      have hminus : head.is "-" := by
        by_contra hother
        simp [Dialect.z3, hother] at hleft
      obtain ⟨hplain, hname⟩ := Bool.and_eq_true_iff.mp hminus
      have hsymbol : head.symbol = ⟨"-"⟩ := by
        rw [← beq_iff_eq, Symbol.beq_mk]
        exact hname
      rw [← Ident.plain_symbol hplain, hsymbol]
      exact h
    · intro head arity _ hright
      simp only [Dialect.z3] at hright
      split at hright <;> simp at hright
    · intro head arity _ hchainable
      simp only [Dialect.z3] at hchainable
      split at hchainable <;> simp at hchainable

/-! ## Values of grouped applications -/

variable {I} {head : Ident}

/-- Applications that lean to the left have the value of the one application. -/
theorem LeftAssociative.foldl_eq (h : I.LeftAssociative head) (first : δ) {args : List δ}
    (hargs : args ≠ []) :
    args.foldl (fun done arg => I.function head [done, arg]) first =
      I.function head (first :: args) := by
  -- the outermost application is the one to the last argument
  induction args using List.reverseRecOn with
  | nil => exact absurd rfl hargs
  | append_singleton args last ih =>
      rw [List.foldl_append, List.foldl_cons, List.foldl_nil]
      by_cases hnil : args = []
      · rw [hnil]
        rfl
      · have hlength : 2 ≤ (first :: args).length := by
          have := List.length_pos_iff.mpr hnil
          rw [List.length_cons]
          omega
        rw [ih hnil, ← h (first :: args) last hlength, List.cons_append]

theorem value_leftTerm (h : I.LeftAssociative head) {args : List Term} (hargs : 2 < args.length)
    (env : Assignment δ) :
    (Grouping.leftTerm head args).value I env =
      I.function head (args.map (·.value I env)) := by
  -- the value of nested applications is the fold of the values
  have hfold : ∀ (args : List Term) (done : Term),
      (args.foldl (fun done arg => Term.app head [done, arg]) done).value I env =
        (args.map (·.value I env)).foldl (fun done arg => I.function head [done, arg])
          (done.value I env) := by
    intro args
    induction args with
    | nil => exact fun done => rfl
    | cons arg args ih =>
        intro done
        rw [List.foldl_cons, ih, List.map_cons, List.foldl_cons]
        rfl
  cases args with
  | nil => simp at hargs
  | cons first args =>
      have hne : args.map (·.value I env) ≠ [] := by
        intro hnil
        simp [List.map_eq_nil_iff.mp hnil] at hargs
      rw [Grouping.leftTerm, hfold, h.foldl_eq _ hne, List.map_cons]

theorem value_rightTerm (h : I.RightAssociative head) {args : List Term} (hargs : 2 ≤ args.length)
    (env : Assignment δ) :
    (Grouping.rightTerm head args).value I env =
      I.function head (args.map (·.value I env)) := by
  induction args with
  | nil => simp at hargs
  | cons first args ih =>
      match args, hargs, ih with
      | [second], _, _ => rfl
      | second :: third :: args, _, ih =>
          have hrest := ih (by simp)
          have hstep : Grouping.rightTerm head (first :: second :: third :: args) =
              .app head [first, Grouping.rightTerm head (second :: third :: args)] := by
            rw [Grouping.rightTerm]
            simp
          calc (Grouping.rightTerm head (first :: second :: third :: args)).value I env
              = I.function head [first.value I env,
                  (Grouping.rightTerm head (second :: third :: args)).value I env] := by
                rw [hstep]
                rfl
            _ = I.function head [first.value I env,
                  I.function head ((second :: third :: args).map (·.value I env))] := by
                rw [hrest]
            _ = I.function head ((first :: second :: third :: args).map (·.value I env)) :=
                (h _ _ (by simp)).symm

theorem value_chainedTerm (h : I.Chained head) {args : List Term} (hargs : 2 < args.length)
    (env : Assignment δ) :
    (Grouping.chainedTerm head args).value I env =
      I.function head (args.map (·.value I env)) := by
  have hpair : ∀ a b : Term, (Term.app head [a, b]).value I env =
      I.function head [a.value I env, b.value I env] := fun a b => rfl
  rw [Grouping.chainedTerm, Term.value, Term.valueEach_eq_map, h _ (by rw [List.length_map]; omega),
    List.map_zipWith, ← List.map_tail, List.zipWith_map]
  simp only [hpair]

/-- A dialect that the interpretation allows keeps the value of an application. -/
theorem Respects.keepsValues {d : Dialect} (h : I.Respects d) : Term.KeepsValues I d.group := by
  intro head args env
  rw [Term.valueEach_eq_map, Dialect.group]
  split
  · rw [Term.value, Term.valueEach_eq_map]
  · next hmany =>
      have hlength : 2 < args.length := by omega
      cases hgrouping : d.grouping head args.length with
      | flat => rw [Grouping.term, Term.value, Term.valueEach_eq_map]
      | left => exact value_leftTerm (h.left head _ hlength hgrouping) hlength env
      | right => exact value_rightTerm (h.right head _ hlength hgrouping) hlength.le env
      | chainable => exact value_chainedTerm (h.chainable head _ hlength hgrouping) hlength env

/-- The integers, where a difference is taken from the left and nothing else has a meaning. -/
def differences : Interpretation ℤ where
  constant
    | .numeral number => number
    | _ => 0
  function head args :=
    match head.is "-", args with
    | true, [arg] => -arg
    | true, arg :: args => args.foldl (· - ·) arg
    | _, _ => 0
  quantifier _ _ body env := body env

theorem leftAssociative_differences : differences.LeftAssociative (.plain ⟨"-"⟩) := by
  intro args last hargs
  match args, hargs with
  | first :: second :: args, _ =>
      have hleft : ∀ args : List ℤ, differences.function (.plain ⟨"-"⟩) (first :: second :: args) =
          args.foldl (· - ·) (first - second) := fun args => rfl
      have hpair : ∀ a b : ℤ, differences.function (.plain ⟨"-"⟩) [a, b] = a - b := fun a b => rfl
      rw [List.cons_append, List.cons_append, hleft, hleft, hpair, List.foldl_append,
        List.foldl_cons, List.foldl_nil]

end Interpretation

/-! ## The term that a text denotes -/

namespace Term

/-- A term is read back from its printed text. -/
theorem exists_read_text {term : Term} (hlexical : term.isLexical)
    (hunreserved : term.isUnreserved) :
    ∃ tree, parseText term.text = .ok tree ∧ ofTree tree = .ok term := by
  have hvalid : term.encode.isLexical := by rwa [isLexical_encode]
  have hlaid := term.encode.laid_text
  rw [text_encode] at hlaid
  obtain ⟨tree, hparse, htree⟩ := parseText_of_laid hlaid hvalid
  exact ⟨tree, hparse, ofTree_of_encode term tree htree hunreserved⟩

/-- A text in a dialect is the text that the standard has for the regrouped term. -/
theorem text_regroup_of_translate {d : Dialect} {term : Term} {text : String}
    (h : translate d (.term term) = .ok text) : (d.regroup term).text = text := by
  unfold translate at h
  split at h
  · simp at h
  · next f hwrite =>
      cases h
      have hmarks : term.marks d = (d.regroup term).encode.marks := by
        rw [← markedBy_marks d term]
        exact (map_accepted_of_write hwrite).symm
      have hwritten : Formatter.blank.write (term.marks d) = (f, .ok ()) := hwrite
      rw [Term.text, marks_standard, ← hmarks, hwritten]

end Term

/-- **Grouping preserves meaning.**  Where an interpretation allows what a dialect does, a term and
the term that its text denotes have one value under every assignment.  What Z3 does is allowed as
soon as the difference associates to the left. -/
theorem Interpretation.value_of_translate (I : Interpretation δ) :
    (∀ (d : Dialect) (term : Term), I.Respects d →
      (∀ env, (d.regroup term).value I env = term.value I env) ∧
      ∀ text, translate d (.term term) = .ok text → (d.regroup term).text = text ∧
        (term.isLexical → term.isUnreserved →
          ∃ tree, parseText text = .ok tree ∧ Term.ofTree tree = .ok (d.regroup term))) ∧
      (I.Respects .z3 ↔ I.LeftAssociative (.plain ⟨"-"⟩)) := by
  refine ⟨?_, I.respects_z3⟩
  intro d term hrespects
  refine ⟨Term.value_mapApps hrespects.keepsValues term, ?_⟩
  intro text htext
  have hdenoted := Term.text_regroup_of_translate htext
  refine ⟨hdenoted, ?_⟩
  intro hlexical hunreserved
  rw [← hdenoted]
  exact Term.exists_read_text (Term.isLexical_regroup d hlexical)
    (Term.isUnreserved_regroup d hunreserved)

/-- Names that are bound together do not see each other: `y` is the outer `x`. -/
theorem Interpretation.value_of_translate_let :
    (∃ tree, parseText "(let ((x 10) (y x)) (- (- y x) 3))" = .ok tree ∧
      Term.ofTree tree = .ok (Dialect.z3.regroup
        (.letIn [(⟨"x"⟩, .constant (.numeral 10)), (⟨"y"⟩, .ident (.plain ⟨"x"⟩))]
          (.app (.plain ⟨"-"⟩) [.ident (.plain ⟨"y"⟩), .ident (.plain ⟨"x"⟩),
            .constant (.numeral 3)])))) ∧
      (Dialect.z3.regroup
        (.letIn [(⟨"x"⟩, .constant (.numeral 10)), (⟨"y"⟩, .ident (.plain ⟨"x"⟩))]
          (.app (.plain ⟨"-"⟩) [.ident (.plain ⟨"y"⟩), .ident (.plain ⟨"x"⟩),
            .constant (.numeral 3)]))).value differences (fun _ => some 40) = 27 := by
  have hkept := differences.value_of_translate.1 .z3
    (.letIn [(⟨"x"⟩, .constant (.numeral 10)), (⟨"y"⟩, .ident (.plain ⟨"x"⟩))]
      (.app (.plain ⟨"-"⟩) [.ident (.plain ⟨"y"⟩), .ident (.plain ⟨"x"⟩),
        .constant (.numeral 3)]))
    (differences.respects_z3.mpr leftAssociative_differences)
  constructor
  · exact (hkept.2 "(let ((x 10) (y x)) (- (- y x) 3))" (by rfl)).2 (by decide) (by decide)
  · rw [hkept.1]
    rfl

end SmtSession
