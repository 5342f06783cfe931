import SmtSession.Proofs.Term.Grouping

/-!
# Where translation stops

A translation fails when it comes to a string that the dialect refuses.  Only
strings in terms are refused, and which of them comes first does not depend on
how applications are grouped (`refusal?_apply`): an application that leans to
one side has its arguments in their order, and where neighbours are compared an
argument that is written twice has been written before.

So the failure names the first string of the terms (`translate_eq_error_iff`).
Without such a string, or in a dialect that has strings, there is a text.

## Strategy

The marks of a term are compared with its strings by recursion on the term
(`Term.refusal?_marks`); everything that is not a term has no refused marks at
all.  The strings of a term are listed by the same recursion, and two facts say
that the list is the right one: it has the strings that stand in the term at any
depth (`Term.mem_strings_iff`), in the order in which the tokens of the term
have them (`Term.strings_encode`).
-/

namespace SmtSession

/-! ## The first refused string -/

/-- The string that a mark refuses, if it refuses one. -/
def Mark.refused? : Mark → Option String
  | .refused value => some value
  | _ => none

/-- The first refused string among some marks. -/
def refusal? (marks : List Mark) : Option String :=
  marks.findSome? Mark.refused?

theorem refusal?_append (marks more : List Mark) :
    refusal? (marks ++ more) = (refusal? marks).or (refusal? more) :=
  List.findSome?_append

theorem findSome?_cons_or (first : List Mark) (rest : List (List Mark)) :
    (first :: rest).findSome? refusal? = (refusal? first).or (rest.findSome? refusal?) := by
  rw [List.findSome?_cons]
  cases refusal? first <;> rfl

/-- Parentheses are not refused. -/
@[simp] theorem refusal?_enclosed (parts : List (List Mark)) :
    refusal? (Mark.enclosed parts) = parts.findSome? refusal? := by
  have hflatten : refusal? parts.flatten = parts.findSome? refusal? := by
    induction parts with
    | nil => rfl
    | cons part parts ih =>
        rw [List.flatten_cons, refusal?_append, ih, findSome?_cons_or]
  have hclosing : refusal? [.closing] = none := rfl
  calc refusal? (Mark.enclosed parts)
      = refusal? (parts.flatten ++ [.closing]) := rfl
    _ = parts.findSome? refusal? := by rw [refusal?_append, hflatten, hclosing, Option.or_none]

/-- Writing stops at the first refused string. -/
theorem Formatter.write_snd (f : Formatter) (marks : List Mark) :
    (f.write marks).2 = match refusal? marks with
      | none => .ok ()
      | some value => .error ⟨value⟩ := by
  induction marks generalizing f with
  | nil => rfl
  | cons mark rest ih =>
      cases mark with
      | opening => exact ih f.opening
      | closing => exact ih f.closing
      | word text => exact ih (f.word text)
      | refused value => rfl

theorem translate_eq_error_iff_refusal {d : Dialect} {node : Node} {refused : RefusedString} :
    translate d node = .error refused ↔ refusal? (node.marks d) = some refused.value := by
  obtain ⟨value⟩ := refused
  have hwrite := Formatter.blank.write_snd (node.marks d)
  unfold translate
  rcases hwritten : Formatter.blank.write (node.marks d) with ⟨f, stopped⟩
  rw [hwritten] at hwrite
  subst hwrite
  cases refusal? (node.marks d) with
  | none => simp
  | some first => simp

/-! ## What has no strings -/

@[simp] theorem refusal?_word (text : String) : refusal? [.word text] = none := rfl

@[simp] theorem Symbol.refusal?_marks (name : Symbol) : refusal? name.marks = none := rfl

@[simp] theorem Keyword.refusal?_marks (key : Keyword) : refusal? key.marks = none := rfl

@[simp] theorem Constant.refusal?_marks (value : Constant) : refusal? value.marks = none := rfl

@[simp] theorem SExpr.refusal?_marks (expr : SExpr) : refusal? expr.marks = none := by
  rw [expr.marks_eq_map_ofToken, refusal?, List.findSome?_eq_none_iff]
  intro mark hmark
  obtain ⟨token, -, rfl⟩ := List.mem_map.mp hmark
  cases token <;> rfl

@[simp] theorem Index.refusal?_marks (index : Index) : refusal? index.marks = none := by
  cases index <;> rfl

@[simp] theorem Ident.refusal?_marks (ident : Ident) : refusal? ident.marks = none := by
  rw [← ident.marks_encode, SExpr.refusal?_marks]

@[simp] theorem SortExpr.refusal?_marks (sort : SortExpr) : refusal? sort.marks = none := by
  rw [← sort.marks_encode, SExpr.refusal?_marks]

@[simp] theorem SortedVar.refusal?_marks (var : SortedVar) : refusal? var.marks = none := by
  rw [← var.marks_encode, SExpr.refusal?_marks]

/-- Nothing in a list is refused if nothing in its items is. -/
theorem refusal?_enclosed_map {α : Type} {mark : α → List Mark}
    (h : ∀ value, refusal? (mark value) = none) (values : List α) :
    refusal? (Mark.enclosed (values.map mark)) = none := by
  rw [refusal?_enclosed, List.findSome?_eq_none_iff]
  intro part hpart
  obtain ⟨value, -, rfl⟩ := List.mem_map.mp hpart
  exact h value

/-! ## Applications -/

section Grouping

variable {head : List Mark}

theorem refusal?_call (hhead : refusal? head = none) (args : List (List Mark)) :
    refusal? (Grouping.call head args) = args.findSome? refusal? := by
  rw [Grouping.call, refusal?_enclosed, findSome?_cons_or, hhead, Option.none_or]

theorem refusal?_call₂ (hhead : refusal? head = none) (first second : List Mark) :
    refusal? (Grouping.call head [first, second]) = (refusal? first).or (refusal? second) := by
  rw [refusal?_call hhead, findSome?_cons_or, findSome?_cons_or, List.findSome?_nil,
    Option.or_none]

theorem refusal?_leftCalls (hhead : refusal? head = none) (args : List (List Mark)) :
    refusal? (Grouping.leftCalls head args) = args.findSome? refusal? := by
  cases args with
  | nil => exact refusal?_call hhead []
  | cons first rest =>
      rw [Grouping.leftCalls]
      -- what has been applied so far comes first
      induction rest generalizing first with
      | nil => simp
      | cons second rest ih =>
          rw [List.foldl_cons, ih, findSome?_cons_or, refusal?_call₂ hhead, Option.or_assoc,
            findSome?_cons_or first, findSome?_cons_or second]

theorem refusal?_rightCalls (hhead : refusal? head = none) (args : List (List Mark)) :
    refusal? (Grouping.rightCalls head args) = args.findSome? refusal? := by
  fun_induction Grouping.rightCalls head args with
  | case1 => exact refusal?_call hhead []
  | case2 arg => simp
  | case3 arg args _ ih => rw [refusal?_call₂ hhead, ih, findSome?_cons_or]

/-- An argument that is met a second time has been met before. -/
theorem refusal?_chainedCalls (hhead : refusal? head = none) (first second : List Mark)
    (rest : List (List Mark)) :
    refusal? (Grouping.chainedCalls head (first :: second :: rest)) =
      (first :: second :: rest).findSome? refusal? := by
  have hand : refusal? [.word "and"] = none := rfl
  rw [Grouping.chainedCalls, refusal?_call hand]
  induction rest generalizing first second with
  | nil => simp [refusal?_call₂ hhead, findSome?_cons_or]
  | cons third rest ih =>
      have hpairs := ih second third
      have htwice : (refusal? second).or ((third :: rest).findSome? refusal?) =
          (refusal? second).or ((refusal? second).or ((third :: rest).findSome? refusal?)) := by
        cases refusal? second <;> rfl
      simp only [List.tail_cons, List.zipWith_cons_cons] at hpairs ⊢
      rw [findSome?_cons_or, hpairs, refusal?_call₂ hhead, findSome?_cons_or first,
        findSome?_cons_or second, Option.or_assoc, ← htwice]

/-- **The grouping of an application does not matter.** -/
theorem refusal?_apply (d : Dialect) (head : Ident) (args : List (List Mark)) :
    refusal? (d.apply head args) = args.findSome? refusal? := by
  have hhead := head.refusal?_marks
  unfold Dialect.apply
  split
  · exact refusal?_call hhead args
  · next hmany =>
      cases d.grouping head args.length with
      | flat => exact refusal?_call hhead args
      | left => exact refusal?_leftCalls hhead args
      | right => exact refusal?_rightCalls hhead args
      | chainable =>
          match args, hmany with
          | first :: second :: rest, _ => exact refusal?_chainedCalls hhead first second rest
          | [_], hmany => simp at hmany
          | [], hmany => simp at hmany

end Grouping

/-! ## Strings of a term -/

namespace Term

mutual

/-- The string constants of a term, in the order in which they are written. -/
def strings : Term → List String
  | .ident _ => []
  | .constant (.string value) => [value]
  | .constant _ => []
  | .app _ args => stringsEach args
  | .letIn bindings body => stringsBindings bindings ++ strings body
  | .quantified _ _ body => strings body
termination_by structural term => term

/-- The string constants of some terms, one term after the other. -/
def stringsEach : List Term → List String
  | [] => []
  | term :: terms => strings term ++ stringsEach terms
termination_by structural terms => terms

/-- The string constants of the values of some bindings. -/
def stringsBindings : List (Symbol × Term) → List String
  | [] => []
  | (_, value) :: bindings => strings value ++ stringsBindings bindings
termination_by structural bindings => bindings

end

end Term

/-- A term stands in a term: among arguments, bound values and bodies, at any depth. -/
inductive Term.Within (inner : Term) : Term → Prop where
  | here : Within inner inner
  | argument {head : Ident} {args : List Term} {arg : Term} :
      arg ∈ args → Within inner arg → Within inner (.app head args)
  | value {bindings : List (Symbol × Term)} {body : Term} {binding : Symbol × Term} :
      binding ∈ bindings → Within inner binding.2 → Within inner (.letIn bindings body)
  | body {bindings : List (Symbol × Term)} {body : Term} :
      Within inner body → Within inner (.letIn bindings body)
  | quantified {quantifier : Quantifier} {vars : List SortedVar} {body : Term} :
      Within inner body → Within inner (.quantified quantifier vars body)

namespace Term

theorem stringsEach_eq_flatMap (terms : List Term) : stringsEach terms = terms.flatMap strings := by
  induction terms with
  | nil => rfl
  | cons term terms ih => rw [stringsEach, ih, List.flatMap_cons]

theorem stringsBindings_eq_flatMap (bindings : List (Symbol × Term)) :
    stringsBindings bindings = bindings.flatMap (·.2.strings) := by
  induction bindings with
  | nil => rfl
  | cons binding bindings ih => rw [stringsBindings, ih, List.flatMap_cons]

mutual

theorem within_of_mem_strings {text : String} :
    ∀ term : Term, text ∈ term.strings → Within (.constant (.string text)) term
  | .ident _, h => by simp [strings] at h
  | .constant value, h => by
      cases value with
      | string value =>
          obtain rfl : text = value := by simpa [strings] using h
          exact .here
      | numeral _ | decimal _ | hexadecimal _ | binary _ => simp [strings] at h
  | .app _ args, h => by
      obtain ⟨arg, harg, hwithin⟩ := within_of_mem_stringsEach args h
      exact .argument harg hwithin
  | .letIn bindings body, h => by
      rw [strings, List.mem_append] at h
      obtain h | h := h
      · obtain ⟨binding, hbinding, hwithin⟩ := within_of_mem_stringsBindings bindings h
        exact .value hbinding hwithin
      · exact .body (within_of_mem_strings body h)
  | .quantified _ _ body, h => .quantified (within_of_mem_strings body h)

theorem within_of_mem_stringsEach {text : String} : ∀ terms : List Term,
    text ∈ stringsEach terms → ∃ term ∈ terms, Within (.constant (.string text)) term
  | [], h => by simp [stringsEach] at h
  | term :: terms, h => by
      rw [stringsEach, List.mem_append] at h
      obtain h | h := h
      · exact ⟨term, by simp, within_of_mem_strings term h⟩
      · obtain ⟨found, hfound, hwithin⟩ := within_of_mem_stringsEach terms h
        exact ⟨found, by simp [hfound], hwithin⟩

theorem within_of_mem_stringsBindings {text : String} : ∀ bindings : List (Symbol × Term),
    text ∈ stringsBindings bindings →
      ∃ binding ∈ bindings, Within (.constant (.string text)) binding.2
  | [], h => by simp [stringsBindings] at h
  | (name, value) :: bindings, h => by
      rw [stringsBindings, List.mem_append] at h
      obtain h | h := h
      · exact ⟨(name, value), by simp, within_of_mem_strings value h⟩
      · obtain ⟨found, hfound, hwithin⟩ := within_of_mem_stringsBindings bindings h
        exact ⟨found, by simp [hfound], hwithin⟩

end

theorem mem_strings_iff {term : Term} {text : String} :
    text ∈ term.strings ↔ Within (.constant (.string text)) term := by
  refine ⟨within_of_mem_strings term, fun h => ?_⟩
  induction h with
  | here => simp [strings]
  | argument harg _ ih =>
      rw [strings, stringsEach_eq_flatMap]
      exact List.mem_flatMap.mpr ⟨_, harg, ih⟩
  | value hbinding _ ih =>
      rw [strings, stringsBindings_eq_flatMap]
      exact List.mem_append_left _ (List.mem_flatMap.mpr ⟨_, hbinding, ih⟩)
  | body _ ih => exact List.mem_append_right _ ih
  | quantified _ ih => exact ih

end Term

/-! ## The order of strings -/

/-- The string that a token is. -/
def Token.string? : Token → Option String
  | .constant (.string value) => some value
  | _ => none

namespace SExpr

/-- The strings in an expression, as its tokens have them. -/
def strings (expr : SExpr) : List String :=
  expr.tokens.filterMap Token.string?

@[simp] theorem strings_list (items : List SExpr) :
    (list items).strings = items.flatMap strings := by
  rw [strings, tokens, tokensEach_eq_flatMap, List.filterMap_append,
    List.filterMap_cons_none (by rfl), List.filterMap_flatMap]
  exact List.append_nil _

@[simp] theorem strings_named (name : String) : (named name).strings = [] := rfl

@[simp] theorem strings_symbol (name : Symbol) : (atom (.symbol name)).strings = [] := rfl

end SExpr

@[simp] theorem Ident.strings_encode (ident : Ident) : ident.encode.strings = [] := by
  have hindex : ∀ index ∈ ident.indexes, index.encode.strings = [] := by
    intro index _
    cases index <;> rfl
  unfold encode
  split
  · rfl
  · simpa [List.flatMap_map] using hindex

namespace SortExpr

mutual

@[simp] theorem strings_encode : ∀ sort : SortExpr, sort.encode.strings = []
  | .app head [] => head.strings_encode
  | .app head (param :: params) => by
      simp [encode, strings_encode param, flatMap_strings_encodeEach params]

theorem flatMap_strings_encodeEach : ∀ sorts : List SortExpr,
    (encodeEach sorts).flatMap SExpr.strings = []
  | [] => rfl
  | sort :: sorts => by
      rw [encodeEach, List.flatMap_cons, strings_encode sort, flatMap_strings_encodeEach sorts]
      rfl

end

end SortExpr

@[simp] theorem SortedVar.strings_encode (var : SortedVar) : var.encode.strings = [] := by
  simp [encode]

namespace Term

mutual

/-- The strings of a term are those in its encoding, in the same order. -/
theorem strings_encode : ∀ term : Term, term.encode.strings = term.strings
  | .ident head => head.strings_encode
  | .constant value => by cases value <;> rfl
  | .app head args => by
      rw [strings, ← flatMap_strings_encodeEach args]
      simp [encode]
  | .letIn bindings body => by
      rw [strings, ← flatMap_strings_encodeBindings bindings, ← strings_encode body]
      simp [encode]
  | .quantified quantifier vars body => by
      rw [strings, ← strings_encode body]
      simp [encode, List.flatMap_map]

theorem flatMap_strings_encodeEach : ∀ terms : List Term,
    (encodeEach terms).flatMap SExpr.strings = stringsEach terms
  | [] => rfl
  | term :: terms => by
      rw [encodeEach, stringsEach, List.flatMap_cons, strings_encode term,
        flatMap_strings_encodeEach terms]

theorem flatMap_strings_encodeBindings : ∀ bindings : List (Symbol × Term),
    (encodeBindings bindings).flatMap SExpr.strings = stringsBindings bindings
  | [] => rfl
  | (name, value) :: bindings => by
      rw [encodeBindings, stringsBindings, List.flatMap_cons, ← strings_encode value,
        flatMap_strings_encodeBindings bindings]
      simp

end

end Term

/-! ## What a dialect refuses -/

/-- The first of some strings that the dialect refuses in terms. -/
def Dialect.firstRefused? (d : Dialect) (strings : List String) : Option String :=
  if d.strings then none else strings.head?

theorem Dialect.firstRefused?_append (d : Dialect) (strings more : List String) :
    d.firstRefused? (strings ++ more) =
      (d.firstRefused? strings).or (d.firstRefused? more) := by
  unfold firstRefused?
  split
  · rfl
  · exact List.head?_append

@[simp] theorem Dialect.firstRefused?_nil (d : Dialect) : d.firstRefused? [] = none := by
  simp [firstRefused?]

namespace Term

mutual

/-- **What is refused in a term is its first string.** -/
theorem refusal?_marks (d : Dialect) :
    ∀ term : Term, refusal? (term.marks d) = d.firstRefused? term.strings
  | .ident head => by
      rw [marks, strings, head.refusal?_marks, d.firstRefused?_nil]
  | .constant value => by
      cases value with
      | string text =>
          rw [marks, strings, Dialect.firstRefused?]
          split <;> rfl
      | numeral _ | decimal _ | hexadecimal _ | binary _ =>
          exact (Constant.refusal?_marks _).trans d.firstRefused?_nil.symm
  | .app head args => by
      rw [marks, refusal?_apply, findSome?_marksEach d args, strings]
  | .letIn bindings body => by
      rw [marks, strings, d.firstRefused?_append]
      simp [findSome?_cons_or, findSome?_marksBindings d bindings, refusal?_marks d body]
  | .quantified quantifier vars body => by
      rw [marks, strings]
      simp [findSome?_cons_or, refusal?_enclosed_map SortedVar.refusal?_marks,
        refusal?_marks d body]

theorem findSome?_marksEach (d : Dialect) : ∀ terms : List Term,
    (marksEach d terms).findSome? refusal? = d.firstRefused? (stringsEach terms)
  | [] => d.firstRefused?_nil.symm
  | term :: terms => by
      rw [marksEach, stringsEach, findSome?_cons_or, refusal?_marks d term,
        findSome?_marksEach d terms, d.firstRefused?_append]

theorem findSome?_marksBindings (d : Dialect) : ∀ bindings : List (Symbol × Term),
    (marksBindings d bindings).findSome? refusal? = d.firstRefused? (stringsBindings bindings)
  | [] => d.firstRefused?_nil.symm
  | (name, value) :: bindings => by
      rw [marksBindings, stringsBindings, d.firstRefused?_append, findSome?_cons_or,
        findSome?_marksBindings d bindings]
      simp [findSome?_cons_or, refusal?_marks d value]

end

end Term

/-! ## Strings of a piece of syntax -/

/-- The terms that a command sends to the solver, in their order. -/
def Command.terms : Command → List Term
  | .assert term => [term]
  | .defineFun _ _ _ body => [body]
  | .getValue terms => terms
  | _ => []

/-- The terms in a piece of syntax, in their order. -/
def Node.terms : Node → List Term
  | .binding _ value => [value]
  | .term value => [value]
  | .command value => value.terms
  | _ => []

/-- The strings in terms, in the order in which they are written. -/
def Node.strings (node : Node) : List String :=
  node.terms.flatMap Term.strings

@[simp] theorem SortDecl.refusal?_marks (decl : SortDecl) : refusal? decl.marks = none := by
  simp [marks]

@[simp] theorem Selector.refusal?_marks (selector : Selector) : refusal? selector.marks = none := by
  simp [marks]

@[simp] theorem Constructor.refusal?_marks (constructor : Constructor) :
    refusal? constructor.marks = none := by
  simp [marks]

@[simp] theorem Datatype.refusal?_marks (datatype : Datatype) :
    refusal? datatype.marks = none := by
  unfold marks
  split <;> simp

/-- Strings in attribute values are not those of terms. -/
@[simp] theorem AttributeValue.refusal?_marks (value : AttributeValue) :
    refusal? value.marks = none := by
  cases value with
  | constant value => exact value.refusal?_marks
  | symbol name => exact name.refusal?_marks
  | list items => exact (SExpr.list items).refusal?_marks

theorem findSome?_map_marks (d : Dialect) (terms : List Term) :
    (terms.map (Term.marks d)).findSome? refusal? =
      d.firstRefused? (terms.flatMap Term.strings) := by
  induction terms with
  | nil => exact d.firstRefused?_nil.symm
  | cons term terms ih =>
      rw [List.map_cons, List.flatMap_cons, findSome?_cons_or, term.refusal?_marks d, ih,
        d.firstRefused?_append]

theorem Command.refusal?_marks (d : Dialect) (command : Command) :
    refusal? (command.marks d) = d.firstRefused? (command.terms.flatMap Term.strings) := by
  rw [marks, refusal?_enclosed, findSome?_cons_or, refusal?_word, Option.none_or]
  cases command with
  | assert term => simp [arguments, terms, term.refusal?_marks d]
  | defineFun name params result body =>
      simp [arguments, terms, findSome?_cons_or, body.refusal?_marks d]
  | getValue values => simp [arguments, terms, findSome?_map_marks d values]
  | setInfo key value =>
      cases value with
      | none => simp [arguments, terms]
      | some value => simp [arguments, terms]
  | _ => simp [arguments, terms]

theorem Node.strings_ne_nil_iff {node : Node} :
    node.strings ≠ [] ↔
      ∃ term ∈ node.terms, ∃ text, Term.Within (.constant (.string text)) term := by
  constructor
  · intro hne
    obtain ⟨text, htext⟩ := List.exists_mem_of_ne_nil _ hne
    obtain ⟨term, hterm, hmem⟩ := List.mem_flatMap.mp htext
    exact ⟨term, hterm, text, Term.mem_strings_iff.mp hmem⟩
  · rintro ⟨term, hterm, text, hwithin⟩
    exact List.ne_nil_of_mem (List.mem_flatMap.mpr ⟨term, hterm, Term.mem_strings_iff.mpr hwithin⟩)

theorem Node.refusal?_marks (d : Dialect) (node : Node) :
    refusal? (node.marks d) = d.firstRefused? node.strings := by
  cases node with
  | command value => exact value.refusal?_marks d
  | term value => simp [marks, strings, terms, value.refusal?_marks d]
  | binding name value =>
      simp [marks, strings, terms, findSome?_cons_or, value.refusal?_marks d]
  | _ => simp [marks, strings, terms]

/-! ## Failure -/

/-- A dialect without strings refuses the first one. -/
theorem translate_eq_error_iff {d : Dialect} {node : Node} {refused : RefusedString} :
    translate d node = .error refused ↔
      d.strings = false ∧ node.strings.head? = some refused.value := by
  rw [translate_eq_error_iff_refusal, node.refusal?_marks, Dialect.firstRefused?]
  cases d.strings <;> simp

/-- What is not refused has a text. -/
theorem exists_translate {d : Dialect} {node : Node} (h : d.strings = true ∨ node.strings = []) :
    ∃ text, translate d node = .ok text := by
  cases htranslate : translate d node with
  | ok text => exact ⟨text, rfl⟩
  | error refused =>
      obtain ⟨hstrings, hhead⟩ := translate_eq_error_iff.mp htranslate
      obtain h | h := h
      · simp [h] at hstrings
      · simp [h] at hhead

/-- **Translation fails exactly at strings in terms, and names the first one.** -/
theorem translate_refuses (d : Dialect) :
    (d.strings = true → ∀ node, ∃ text, translate d node = .ok text) ∧
    (d.strings = false → ∀ node,
      ((∃ refused, translate d node = .error refused) ↔
        ∃ term ∈ node.terms, ∃ text, Term.Within (.constant (.string text)) term) ∧
      ∀ refused, translate d node = .error refused ↔ node.strings.head? = some refused.value) ∧
    (∀ message, ∃ text, translate d (.command (.echo message)) = .ok text) ∧
    (∀ key value, ∃ text, translate d (.command (.setInfo key value)) = .ok text) ∧
    ∀ key value, ∃ text, translate d (.command (.setOption key value)) = .ok text := by
  refine ⟨fun hstrings node => exists_translate (.inl hstrings), fun hstrings node => ⟨?_, ?_⟩,
    fun message => exists_translate (.inr rfl), fun key value => exists_translate (.inr rfl),
    fun key value => exists_translate (.inr rfl)⟩
  · rw [← Node.strings_ne_nil_iff]
    constructor
    · rintro ⟨refused, hrefused⟩ hnil
      have hhead := (translate_eq_error_iff.mp hrefused).2
      simp [hnil] at hhead
    · intro hne
      obtain ⟨value, rest, hcons⟩ := List.exists_cons_of_ne_nil hne
      exact ⟨⟨value⟩, translate_eq_error_iff.mpr ⟨hstrings, by rw [hcons]; rfl⟩⟩
  · intro refused
    rw [translate_eq_error_iff]
    exact and_iff_right hstrings

/-- Neighbours are compared, so `(f "a")` would be written twice; a dialect with strings has a
text. -/
theorem translate_refuses_chained :
    translate ⟨fun _ _ => .chainable, false⟩
      (.command (.assert (.letIn
        [(⟨"x"⟩, .app (.plain ⟨"="⟩) [.constant (.numeral 1),
          .app (.plain ⟨"f"⟩) [.constant (.string "a")], .constant (.string "b")])]
        (.constant (.string "c"))))) = .error ⟨"a"⟩ ∧
    ∃ text, translate ⟨fun _ _ => .chainable, true⟩
      (.term (.app (.plain ⟨"="⟩) [.constant (.numeral 1), .constant (.string "a"),
        .constant (.string "b")])) = .ok text :=
  ⟨(((translate_refuses ⟨fun _ _ => .chainable, false⟩).2.1 rfl _).2 ⟨"a"⟩).mpr rfl,
    (translate_refuses ⟨fun _ _ => .chainable, true⟩).1 rfl _⟩

end SmtSession
