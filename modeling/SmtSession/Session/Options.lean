import SmtSession.Attribute
import SmtSession.Session.Config

/-!
# Options

The options of the solver as the session knows them, by the keyword that sets them.
-/

namespace SmtSession

/-! ### The options that the rules of a session speak of -/

namespace Keyword

/-- Whether commands are acknowledged. -/
def printSuccess : Keyword := ⟨"print-success"⟩

/-- How much is written about the session. -/
def verbosity : Keyword := ⟨"verbosity"⟩

/-- Where responses are printed. -/
def regularOutputChannel : Keyword := ⟨"regular-output-channel"⟩

/-- Where the session writes about itself. -/
def diagnosticOutputChannel : Keyword := ⟨"diagnostic-output-channel"⟩

/-- The old name of `:produce-assertions`. -/
def interactiveMode : Keyword := ⟨"interactive-mode"⟩

/-- Whether the assertions may be asked for. -/
def produceAssertions : Keyword := ⟨"produce-assertions"⟩

/-- Whether a model, and the values of terms in it, may be asked for. -/
def produceModels : Keyword := ⟨"produce-models"⟩

/-- Whether a proof may be asked for. -/
def produceProofs : Keyword := ⟨"produce-proofs"⟩

/-- Whether it may be asked which assertions contradict each other. -/
def produceUnsatCores : Keyword := ⟨"produce-unsat-cores"⟩

/-- Whether the truth values of named terms may be asked for. -/
def produceAssignments : Keyword := ⟨"produce-assignments"⟩

end Keyword

/-- The options of a session, as far as it knows them. -/
structure Options where
  version : Version
  /-- The value of each option, every keyword occurring at most once. -/
  values : List (Keyword × AttributeValue)
  deriving DecidableEq

namespace Options

/-- The options that every session knows, with the values they have at the start. -/
def defaults : List (Keyword × AttributeValue) :=
  [(.printSuccess, .bool true),
    (⟨"expand-definitions"⟩, .bool false),
    (.interactiveMode, .bool false),
    (.produceAssertions, .bool false),
    (.produceProofs, .bool false),
    (.produceUnsatCores, .bool false),
    (.produceModels, .bool false),
    (.produceAssignments, .bool false),
    (⟨"produce-unsat-assumptions"⟩, .bool false),
    (⟨"global-declarations"⟩, .bool false),
    (.regularOutputChannel, .string "stdout"),
    (.diagnosticOutputChannel, .string "stderr"),
    (⟨"random-seed"⟩, .numeral 0),
    (.verbosity, .numeral 0),
    (⟨"reproducible-resource-limit"⟩, .numeral 0)]

/-- The options before anything is set. -/
def initial (version : Version) : Options := ⟨version, defaults⟩

/-- The keyword under which an option is kept.  After version 2.0 of the standard,
`:interactive-mode` is another name of `:produce-assertions`. -/
def canonical (version : Version) (key : Keyword) : Keyword :=
  if key = .interactiveMode ∧ version ≠ .v20 then .produceAssertions else key

/-- The value of an option. -/
def get? (options : Options) (key : Keyword) : Option AttributeValue :=
  options.values.lookup (canonical options.version key)

/-- Replaces the value of a keyword, or adds the keyword at the end. -/
def put (key : Keyword) (value : AttributeValue) :
    List (Keyword × AttributeValue) → List (Keyword × AttributeValue)
  | [] => [(key, value)]
  | (known, old) :: rest =>
    if known = key then (key, value) :: rest else (known, old) :: put key value rest

/-- After a keyword is given a value, it has this value and all others keep theirs. -/
theorem lookup_put (key other : Keyword) (value : AttributeValue)
    (values : List (Keyword × AttributeValue)) :
    (put key value values).lookup other =
      if other = key then some value else values.lookup other := by
  induction values with
  | nil =>
    by_cases here : other = key
    · simp [put, here]
    · simp [put, here, List.lookup_cons, beq_eq_false_iff_ne.2 here]
  | cons entry rest ih =>
    obtain ⟨known, old⟩ := entry
    rw [put]
    split
    · next same =>
      subst same
      by_cases here : other = known
      · simp [here]
      · simp [here, List.lookup_cons, beq_eq_false_iff_ne.2 here]
    · next different =>
      by_cases here : other = known
      · subst here
        simp [different]
      · simp [List.lookup_cons, beq_eq_false_iff_ne.2 here, ih]

/-- Gives an option a value, which replaces the one it has. -/
def set (options : Options) (key : Keyword) (value : AttributeValue) : Options :=
  { options with values := put (canonical options.version key) value options.values }

@[simp] theorem version_set (options : Options) (key : Keyword) (value : AttributeValue) :
    (options.set key value).version = options.version :=
  rfl

/-- Setting an option changes what is read under the same canonical keyword, and nothing else. -/
theorem get?_set (options : Options) (key other : Keyword) (value : AttributeValue) :
    (options.set key value).get? other =
      if canonical options.version other = canonical options.version key then some value
      else options.get? other :=
  lookup_put ..

/-- The options of a session that starts. -/
def configured (config : Config) : Options :=
  (initial config.version).set .verbosity (.numeral config.verbosity)

/-- Whether an option is set to `true`. -/
def enabled (options : Options) (key : Keyword) : Bool :=
  ((options.get? key).bind AttributeValue.bool?).getD false

/-- The level of verbosity: the low 64 bits of its numeral. -/
def verbosity (options : Options) : Nat :=
  match (options.get? .verbosity).bind AttributeValue.numeral? with
  | some level => level % UInt64.size
  | none => 0

end Options

end SmtSession
