import SmtSession.Command
import SmtSession.Response.Basic
import SmtSession.Session.Options

/-!
# The state of a session

What the session knows of the solver, which commands it lets pass in a state (`State.plan`), and
which state follows a command that succeeded (`State.commit`).
-/

namespace SmtSession

/-- A rule that a command breaks. -/
inductive Violation where
  | logicNotSet (command : String)
  | logicAlreadySet
  | emptyStack
  | popTooDeep (requested depth : Nat)
  | optionDisabled (command : String) (option : Keyword)
  | wrongVerdict (command : String) (accepted : List Verdict)
  | notBoolean (key : Keyword)
  | afterLogic (key : Keyword)
  | predefinedInfo (key : Keyword)
  deriving DecidableEq

/-- What the user is told about a rule that is broken. -/
def Violation.message : Violation → String
  | .logicNotSet command =>
    "the logic must be set before a " ++ command ++ " command is issued"
  | .logicAlreadySet => "the logic is already set"
  | .emptyStack => "all assertion sets have been popped from the stack"
  | .popTooDeep requested depth =>
    "the argument to a pop command is too large: " ++ requested.repr ++ " vs. a maximum of " ++
      depth.repr
  | .optionDisabled command option =>
    "the " ++ command ++ " command is only valid if " ++ option.text ++ " has been enabled"
  | .wrongVerdict command accepted =>
    "the " ++ command ++ " command is only valid immediately after check-sat returned " ++
      " or ".intercalate (accepted.map Verdict.text)
  | .notBoolean key => "the value of the " ++ key.text ++ " option must be 'true' or 'false'"
  | .afterLogic key =>
    "the value of the " ++ key.text ++ " option must be set before the set-logic command"
  | .predefinedInfo key =>
    "setting the value of the predefined info keyword " ++ key.text ++ " is not permitted"

/-- What is done with a command that is let pass. -/
inductive Plan where
  /-- Send it, and expect a reply of this kind. -/
  | send (shape : ReplyShape)
  /-- Answer it without the solver. -/
  | answer (response : Response)
  /-- Pop this many levels, and then send it. -/
  | reopen (levels : Nat)

/-- The state of a session. -/
structure State where
  logicSet : Bool
  /-- The number of assertion levels, the one that setting the logic opens included.  It is kept in
  a 64-bit word. -/
  depth : Nat
  /-- The verdict of the last check, if nothing has happened since. -/
  verdict : Option Verdict
  options : Options
  terminated : Bool
  deriving DecidableEq

namespace State

/-- The state of a session that starts. -/
def initial (config : Config) : State :=
  ⟨false, 0, none, .configured config, false⟩

/-- The options that can be set before the logic only. -/
def beforeLogic : List Keyword :=
  [.interactiveMode, .produceAssertions, .produceProofs, .produceAssignments, .produceModels,
    .produceUnsatCores]

/-- The options that are answered as unsupported, and never recorded. -/
def unsupportedOptions : List Keyword :=
  [.produceProofs, .produceAssignments]

/-- The information that the solver defines. -/
def predefinedInfos : List Keyword :=
  [⟨"name"⟩, ⟨"authors"⟩, ⟨"version"⟩, ⟨"error-behavior"⟩, ⟨"reason-unknown"⟩,
    ⟨"all-statistics"⟩, ⟨"assertion-stack-levels"⟩]

/-- Refuses a command while no logic is set. -/
def requireLogic (state : State) (command : Command) : Except Violation Unit :=
  if state.logicSet then .ok () else .error (.logicNotSet command.name)

/-- Refuses a command while an option is not enabled. -/
def requireOption (state : State) (command : Command) (key : Keyword) : Except Violation Unit :=
  if state.options.enabled key then .ok () else .error (.optionDisabled command.name key)

/-- Refuses a command unless the last verdict is one of the given ones. -/
def requireVerdict (state : State) (command : Command) (accepted : List Verdict) :
    Except Violation Unit :=
  if accepted.any (some · = state.verdict) then .ok ()
  else .error (.wrongVerdict command.name accepted)

/-- What is done with the setting of an option. -/
def planOption (state : State) (key : Keyword) (value : AttributeValue) :
    Except Violation Plan :=
  if key = .printSuccess ∧ value.bool? = none then .error (.notBoolean key)
  else if state.logicSet ∧ key ∈ beforeLogic then .error (.afterLogic key)
  else if key ∈ unsupportedOptions then .ok (.answer .unsupported)
  else if key = .printSuccess then .ok (.answer .success)
  else .ok (.send .success)

/-- What is done with a command, `relax` saying whether the rules are relaxed. -/
def plan (state : State) (relax : Bool) (command : Command) : Except Violation Plan :=
  match command with
  | .setLogic _ =>
    if !state.logicSet then .ok (.send .success)
    else if !relax then .error .logicAlreadySet
    else if state.depth > 0 then .ok (.reopen state.depth)
    else .ok (.send .success)
  | .assert _ => do
    state.requireLogic command
    if state.depth = 0 then .error .emptyStack else .ok (.send .success)
  | .push levels => do
    state.requireLogic command
    if levels = 0 then .ok (.answer .success) else .ok (.send .success)
  | .pop levels => do
    state.requireLogic command
    if levels > state.depth then .error (.popTooDeep levels state.depth)
    else if levels = 0 then .ok (.answer .success)
    else .ok (.send .success)
  | .checkSat => do
    state.requireLogic command
    return .send .verdict
  | .declareConst _ _ => do
    state.requireLogic command
    return .send .success
  | .declareDatatypes _ _ => do
    state.requireLogic command
    return .send .success
  | .declareFun _ _ _ => do
    state.requireLogic command
    return .send .success
  | .declareSort _ _ => do
    state.requireLogic command
    return .send .success
  | .defineFun _ _ _ _ => do
    state.requireLogic command
    return .send .success
  | .defineSort _ _ _ => do
    state.requireLogic command
    return .send .success
  | .getModel => do
    state.requireOption command .produceModels
    state.requireVerdict command [.sat]
    return .send .sexpr
  | .getValue _ => do
    state.requireOption command .produceModels
    state.requireVerdict command [.sat, .unknown]
    return .send .values
  | .getProof => do
    state.requireOption command .produceProofs
    state.requireVerdict command [.unsat]
    return .send .sexpr
  | .getUnsatCore => do
    state.requireOption command .produceUnsatCores
    state.requireVerdict command [.unsat]
    return .send .symbols
  | .getAssignment => do
    state.requireOption command .produceAssignments
    state.requireVerdict command [.sat, .unknown]
    return .send .sexpr
  | .getAssertions => do
    state.requireLogic command
    if !relax then state.requireOption command .produceAssertions
    return .send .assertions
  | .setOption key value => state.planOption key value
  | .getOption key =>
    match state.options.get? key with
    | some value => .ok (.answer (.value value))
    | none => .ok (.answer .unsupported)
  | .setInfo key _ =>
    if key ∈ predefinedInfos then .error (.predefinedInfo key) else .ok (.send .success)
  | .getInfo _ => .ok (.send .sexpr)
  | .echo _ => .ok (.send .text)
  | .reset => .ok (.send .success)
  | .resetAssertions => .ok (.send .success)
  | .exit => .ok (.send .success)

/-- The state after a command that succeeded with the given response. -/
def commit (state : State) (command : Command) (response : Response) : State :=
  match command with
  | .setLogic _ =>
    { state with
      logicSet := true
      depth := (if state.logicSet then 0 else state.depth) + 1
      verdict := none }
  | .assert _ => { state with verdict := none }
  | .declareConst _ _ => { state with verdict := none }
  | .declareDatatypes _ _ => { state with verdict := none }
  | .declareFun _ _ _ => { state with verdict := none }
  | .declareSort _ _ => { state with verdict := none }
  | .defineFun _ _ _ _ => { state with verdict := none }
  | .defineSort _ _ _ => { state with verdict := none }
  | .push levels =>
    { state with depth := (state.depth + levels) % UInt64.size, verdict := none }
  | .pop levels =>
    if levels = 0 then state
    else { state with depth := state.depth - levels, verdict := none }
  | .checkSat => { state with verdict := response.verdict? }
  | .setOption key value =>
    if key ∈ unsupportedOptions then state
    else { state with options := state.options.set key value }
  | .reset =>
    { state with
      logicSet := false
      depth := 0
      verdict := none
      options := .initial state.options.version }
  | .resetAssertions =>
    { state with depth := if state.logicSet then 1 else 0, verdict := none }
  | .exit => { state with terminated := true }
  | .echo _ => state
  | .getAssertions => state
  | .getAssignment => state
  | .getInfo _ => state
  | .getModel => state
  | .getOption _ => state
  | .getProof => state
  | .getUnsatCore => state
  | .getValue _ => state
  | .setInfo _ _ => state

end State

end SmtSession
