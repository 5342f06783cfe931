import SmtSession.Proofs.Term.RoundTrip

/-!
# Commands as S-expressions

A command is written as one list: its name, and then what it is given, in order
(`Command.encode`).  What is itself a list of things becomes a nested list.
Terms are written with their differences to the left, as the dialect of Z3
groups them.

`Command.laid_of_translate` says that the text of a command is a layout of the
tokens of this list, and `Command.isLexical_encode` that the list is lexically
valid when the command is made of valid symbols, keywords and constants.
-/

namespace SmtSession

/-! ## Encoding -/

/-- An attribute value as an S-expression. -/
def AttributeValue.encode : AttributeValue → SExpr
  | .constant value => .atom (.constant value)
  | .symbol name => .atom (.symbol name)
  | .list items => .list items

/-- The name of a sort and its arity as an S-expression. -/
def SortDecl.encode (decl : SortDecl) : SExpr :=
  .list [.atom (.symbol decl.name), .atom (.constant (.numeral decl.arity))]

/-- A selector and its sort as an S-expression. -/
def Selector.encode (selector : Selector) : SExpr :=
  .list [.atom (.symbol selector.name), selector.sort.encode]

/-- A constructor and its selectors as an S-expression. -/
def Constructor.encode (constructor : Constructor) : SExpr :=
  .list (.atom (.symbol constructor.name) :: constructor.selectors.map Selector.encode)

/-- A datatype as an S-expression: its constructors, after its parameters if there are any. -/
def Datatype.encode (datatype : Datatype) : SExpr :=
  let constructors := .list (datatype.constructors.map Constructor.encode)
  if datatype.params.isEmpty then constructors
  else
    .list [.named "par", .list (datatype.params.map fun param => .atom (.symbol param)),
      constructors]

/-- A term as the dialect of Z3 groups it, as an S-expression. -/
def Term.encodeGrouped (term : Term) : SExpr :=
  term.leftDifferences.encode

namespace Command

/-- What a command is given, in order. -/
def payload : Command → List SExpr
  | .assert term => [term.encodeGrouped]
  | .declareConst name sort => [.atom (.symbol name), sort.encode]
  | .declareDatatypes sorts datatypes =>
    [.list (sorts.map SortDecl.encode), .list (datatypes.map Datatype.encode)]
  | .declareFun name params result =>
    [.atom (.symbol name), .list (params.map SortExpr.encode), result.encode]
  | .declareSort name arity => [.atom (.symbol name), .atom (.constant (.numeral arity))]
  | .defineFun name params result body =>
    [.atom (.symbol name), .list (params.map SortedVar.encode), result.encode, body.encodeGrouped]
  | .defineSort name params sort =>
    [.atom (.symbol name), .list (params.map fun param => .atom (.symbol param)), sort.encode]
  | .echo text => [.atom (.constant (.string text))]
  | .getInfo key => [.atom (.keyword key)]
  | .getOption key => [.atom (.keyword key)]
  | .getValue terms => [.list (terms.map Term.encodeGrouped)]
  | .pop levels => [.atom (.constant (.numeral levels))]
  | .push levels => [.atom (.constant (.numeral levels))]
  | .setInfo key none => [.atom (.keyword key)]
  | .setInfo key (some value) => [.atom (.keyword key), value.encode]
  | .setLogic logic => [.atom (.symbol logic)]
  | .setOption key value => [.atom (.keyword key), value.encode]
  | .checkSat => []
  | .exit => []
  | .getAssertions => []
  | .getAssignment => []
  | .getModel => []
  | .getProof => []
  | .getUnsatCore => []
  | .reset => []
  | .resetAssertions => []

/-- A command as an S-expression: a list of its name and of what it is given. -/
def encode (command : Command) : SExpr :=
  .list (.named command.name :: command.payload)

end Command

/-! ## Marks of encodings -/

theorem SExpr.markedBy_numeral (value : Nat) :
    MarkedBy [.word value.repr] (.atom (.constant (.numeral value))) := rfl

open SExpr (MarkedBy markedBy_list markedBy_list_map markedBy_numeral markedBy_named)

theorem Keyword.markedBy (key : Keyword) : MarkedBy key.marks (.atom (.keyword key)) := rfl

theorem SortExpr.markedBy (sort : SortExpr) : MarkedBy sort.marks sort.encode :=
  .of_eq sort.marks_encode

theorem AttributeValue.markedBy (value : AttributeValue) : MarkedBy value.marks value.encode := by
  refine .of_eq ?_
  cases value <;> rfl

theorem SortDecl.markedBy (decl : SortDecl) : MarkedBy decl.marks decl.encode :=
  markedBy_list (.cons decl.name.markedBy (.cons (markedBy_numeral _) .nil))

theorem Selector.markedBy (selector : Selector) : MarkedBy selector.marks selector.encode :=
  markedBy_list (.cons selector.name.markedBy (.cons selector.sort.markedBy .nil))

theorem Constructor.markedBy (constructor : Constructor) :
    MarkedBy constructor.marks constructor.encode :=
  markedBy_list (.cons constructor.name.markedBy
    (SExpr.forall₂_markedBy Selector.markedBy constructor.selectors))

theorem Datatype.markedBy (datatype : Datatype) : MarkedBy datatype.marks datatype.encode := by
  have hconstructors := markedBy_list_map Constructor.markedBy datatype.constructors
  unfold marks encode
  dsimp only
  split
  · exact hconstructors
  · exact markedBy_list (.cons (markedBy_named (by decide))
      (.cons (markedBy_list_map Symbol.markedBy datatype.params) (.cons hconstructors .nil)))

theorem Term.markedBy (term : Term) : SExpr.MarkedBy (term.marks .z3) term.encodeGrouped := by
  rw [Term.encodeGrouped, ← Dialect.regroup_z3]
  exact markedBy_marks .z3 term

namespace Command

theorem isSimple_name (command : Command) : (Symbol.mk command.name).isSimple := by
  cases command <;> (rw [name]; decide)

theorem forall₂_arguments (command : Command) :
    List.Forall₂ MarkedBy (command.arguments .z3) command.payload := by
  cases command with
  | assert term => exact .cons term.markedBy .nil
  | declareConst name sort => exact .cons name.markedBy (.cons sort.markedBy .nil)
  | declareDatatypes sorts datatypes =>
      exact .cons (markedBy_list_map SortDecl.markedBy sorts)
        (.cons (markedBy_list_map Datatype.markedBy datatypes) .nil)
  | declareFun name params result =>
      exact .cons name.markedBy
        (.cons (markedBy_list_map SortExpr.markedBy params) (.cons result.markedBy .nil))
  | declareSort name arity => exact .cons name.markedBy (.cons (markedBy_numeral _) .nil)
  | defineFun name params result body =>
      exact .cons name.markedBy (.cons (markedBy_list_map SortedVar.markedBy params)
        (.cons result.markedBy (.cons body.markedBy .nil)))
  | defineSort name params sort =>
      exact .cons name.markedBy
        (.cons (markedBy_list_map Symbol.markedBy params) (.cons sort.markedBy .nil))
  | echo text => exact .cons rfl .nil
  | getInfo key => exact .cons key.markedBy .nil
  | getOption key => exact .cons key.markedBy .nil
  | getValue terms => exact .cons (markedBy_list_map Term.markedBy terms) .nil
  | pop levels => exact .cons (markedBy_numeral _) .nil
  | push levels => exact .cons (markedBy_numeral _) .nil
  | setInfo key value =>
      cases value with
      | none => exact .cons key.markedBy .nil
      | some value => exact .cons key.markedBy (.cons value.markedBy .nil)
  | setLogic logic => exact .cons logic.markedBy .nil
  | setOption key value => exact .cons key.markedBy (.cons value.markedBy .nil)
  | _ => exact .nil

/-- **A command is written as the list that it stands for.** -/
theorem laid_of_translate {command : Command} {text : String}
    (h : translate .z3 (.command command) = .ok text) :
    Laid false command.encode.tokens text.toList := by
  refine SmtSession.laid_of_translate ?_ h
  rw [← SExpr.marks_eq_map_ofToken]
  exact markedBy_list (.cons (markedBy_named command.isSimple_name) command.forall₂_arguments)

end Command

/-! ## Lexical validity -/

/-- Whether a value is made of valid symbols, keywords and constants. -/
def AttributeValue.isLexical : AttributeValue → Bool
  | .constant value => value.isLexical
  | .symbol name => name.isLexical
  | .list items => items.all SExpr.isLexical

/-- Whether the symbols of a selector and of its sort have no bar. -/
def Selector.isLexical (selector : Selector) : Bool :=
  selector.name.isLexical && selector.sort.isLexical

/-- Whether the symbols of a constructor and of its selectors have no bar. -/
def Constructor.isLexical (constructor : Constructor) : Bool :=
  constructor.name.isLexical && constructor.selectors.all Selector.isLexical

/-- Whether the symbols of a datatype have no bar. -/
def Datatype.isLexical (datatype : Datatype) : Bool :=
  datatype.params.all Symbol.isLexical && datatype.constructors.all Constructor.isLexical

/-- Whether a command is made of valid symbols, keywords and constants. -/
def Command.isLexical : Command → Bool
  | .assert term => term.isLexical
  | .declareConst name sort => name.isLexical && sort.isLexical
  | .declareDatatypes sorts datatypes =>
    sorts.all (·.name.isLexical) && datatypes.all Datatype.isLexical
  | .declareFun name params result =>
    name.isLexical && params.all SortExpr.isLexical && result.isLexical
  | .declareSort name _ => name.isLexical
  | .defineFun name params result body =>
    name.isLexical && params.all SortedVar.isLexical && result.isLexical && body.isLexical
  | .defineSort name params sort =>
    name.isLexical && params.all Symbol.isLexical && sort.isLexical
  | .getInfo key => key.isLexical
  | .getOption key => key.isLexical
  | .getValue terms => terms.all Term.isLexical
  | .setInfo key value => key.isLexical && value.all AttributeValue.isLexical
  | .setLogic logic => logic.isLexical
  | .setOption key value => key.isLexical && value.isLexical
  | _ => true

theorem AttributeValue.isLexical_encode (value : AttributeValue) :
    value.encode.isLexical = value.isLexical := by
  cases value with
  | constant value => simp [encode, isLexical]
  | symbol name => simp [encode, isLexical]
  | list items => simp [encode, isLexical]

theorem SortDecl.isLexical_encode (decl : SortDecl) :
    decl.encode.isLexical = decl.name.isLexical := by
  simp [encode, Constant.isLexical]

theorem Selector.isLexical_encode (selector : Selector) :
    selector.encode.isLexical = selector.isLexical := by
  simp [encode, isLexical, SortExpr.isLexical_encode]

theorem Constructor.isLexical_encode (constructor : Constructor) :
    constructor.encode.isLexical = constructor.isLexical := by
  simp [encode, isLexical, List.all_map, Function.comp_def, Selector.isLexical_encode]

theorem Datatype.isLexical_encode (datatype : Datatype) :
    datatype.encode.isLexical = datatype.isLexical := by
  have hpar : (SExpr.named "par").isLexical := by decide
  unfold encode isLexical
  dsimp only
  split
  · next hparams =>
      simp [List.isEmpty_iff.mp hparams, List.all_map, Function.comp_def,
        Constructor.isLexical_encode]
  · simp [hpar, List.all_map, Function.comp_def, Constructor.isLexical_encode]

theorem Term.isLexical_encodeGrouped {term : Term} (h : term.isLexical) :
    term.encodeGrouped.isLexical := by
  rw [encodeGrouped, isLexical_encode, ← Dialect.regroup_z3]
  exact isLexical_regroup .z3 h

namespace Command

theorem isLexical_payload {command : Command} (h : command.isLexical) :
    command.payload.all SExpr.isLexical := by
  have hsymbols (names : List Symbol) :
      (names.map fun name => SExpr.atom (.symbol name)).all SExpr.isLexical =
        names.all Symbol.isLexical := by
    simp [List.all_map, Function.comp_def]
  cases command with
  | assert term => simpa [payload] using Term.isLexical_encodeGrouped h
  | declareConst name sort => simpa [payload, isLexical, sort.isLexical_encode] using h
  | declareDatatypes sorts datatypes =>
      simpa [payload, isLexical, SortDecl.isLexical_encode, Datatype.isLexical_encode] using h
  | declareFun name params result =>
      simpa [payload, isLexical, SortExpr.isLexical_encode, and_assoc] using h
  | declareSort name arity => simpa [payload, isLexical, Constant.isLexical] using h
  | defineFun name params result body =>
      simp only [isLexical, Bool.and_eq_true] at h
      have hbody := Term.isLexical_encodeGrouped h.2
      simpa [payload, SortedVar.isLexical_encode, SortExpr.isLexical_encode, hbody, and_assoc]
        using h.1
  | defineSort name params sort =>
      simpa [payload, isLexical, hsymbols, sort.isLexical_encode, and_assoc] using h
  | getInfo key => simpa [payload, isLexical] using h
  | getOption key => simpa [payload, isLexical] using h
  | getValue terms =>
      rw [isLexical, List.all_eq_true] at h
      simpa [payload] using fun term hterm => Term.isLexical_encodeGrouped (h term hterm)
  | setInfo key value =>
      cases value with
      | none => simpa [payload, isLexical] using h
      | some value => simpa [payload, isLexical, value.isLexical_encode] using h
  | setLogic logic => simpa [payload, isLexical] using h
  | setOption key value => simpa [payload, isLexical, value.isLexical_encode] using h
  | _ => simp [payload, Constant.isLexical]

/-- The name of a command is a valid symbol, so the command is valid if what it is given is. -/
theorem isLexical_encode {command : Command} (h : command.isLexical) :
    command.encode.isLexical := by
  have hname : (SExpr.named command.name).isLexical := by
    cases command <;> (rw [name]; decide)
  rw [encode, SExpr.isLexical_list, List.all_cons, hname, isLexical_payload h, Bool.and_self]

end Command

end SmtSession
