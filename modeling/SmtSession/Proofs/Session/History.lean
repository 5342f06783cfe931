import SmtSession.Proofs.Session.Invariant

/-!
# What the history of a run says about queries

A model, values or an unsatisfiable core are asked for only when the history
justifies it: the last check that was answered had the verdict that the query
needs, nothing since has changed the problem, and the option that the query
needs was the last one set (`Session.run_justified`).

## Strategy

The state mirrors the history in two fields, the verdict and the options.
`Backed` says that both are backed by it, and is preserved by every move of a
turn.  A verdict that is still known is one that no command since has forgotten,
so the proof is about `State.commit`: which commands keep the verdict, and which
change an option that a query needs.
-/

namespace SmtSession

/-- Whether a command that succeeds leaves the last verdict in place. -/
def Command.keepsVerdict : Command → Bool
  | .echo _ => true
  | .getAssertions => true
  | .getAssignment => true
  | .getInfo _ => true
  | .getModel => true
  | .getOption _ => true
  | .getProof => true
  | .getUnsatCore => true
  | .getValue _ => true
  | .pop levels => levels = 0
  | .setInfo _ _ => true
  | .setOption _ _ => true
  | _ => false

/-! ## What a history says -/

/-- The last check that was answered had the given verdict, and nothing since has touched the
problem. -/
def Verified (turns : List Turn) (verdict : Verdict) : Prop :=
  ∃ later check earlier, turns = later ++ check :: earlier ∧ check.command = .checkSat ∧
    check.answer = some (.verdict verdict) ∧
    ∀ turn ∈ later, turn.popped = false ∧ (turn.answer.isSome → turn.command.keepsVerdict)

/-- The option was set to `true`, and has neither been set nor been reset since. -/
def Enabled (turns : List Turn) (key : Keyword) : Prop :=
  ∃ later set earlier, turns = later ++ set :: earlier ∧
    set.command = .setOption key (.bool true) ∧ set.answer.isSome ∧
    ∀ turn ∈ later, turn.answer.isSome →
      turn.command ≠ .reset ∧ ∀ value, turn.command ≠ .setOption key value

section Turns

variable {turns : List Turn} {turn : Turn} {verdict : Verdict} {key : Keyword}

theorem Verified.cons (h : Verified turns verdict) (hpopped : turn.popped = false)
    (hkeeps : turn.answer.isSome → turn.command.keepsVerdict) :
    Verified (turn :: turns) verdict := by
  obtain ⟨later, check, earlier, rfl, hcheck, hanswer, hlater⟩ := h
  exact ⟨turn :: later, check, earlier, rfl, hcheck, hanswer,
    List.forall_mem_cons.mpr ⟨⟨hpopped, hkeeps⟩, hlater⟩⟩

theorem Verified.check (hcheck : turn.command = .checkSat)
    (hanswer : turn.answer = some (.verdict verdict)) : Verified (turn :: turns) verdict :=
  ⟨[], turn, turns, rfl, hcheck, hanswer, by simp⟩

theorem Enabled.cons (h : Enabled turns key)
    (hkeeps : turn.answer.isSome →
      turn.command ≠ .reset ∧ ∀ value, turn.command ≠ .setOption key value) :
    Enabled (turn :: turns) key := by
  obtain ⟨later, set, earlier, rfl, hset, hanswer, hlater⟩ := h
  exact ⟨turn :: later, set, earlier, rfl, hset, hanswer,
    List.forall_mem_cons.mpr ⟨hkeeps, hlater⟩⟩

theorem Enabled.set (hset : turn.command = .setOption key (.bool true))
    (hanswer : turn.answer.isSome) : Enabled (turn :: turns) key :=
  ⟨[], turn, turns, rfl, hset, hanswer, by simp⟩

end Turns

/-! ## Commits and the two fields -/

namespace Options

variable {options : Options} {key : Keyword} {value : AttributeValue}

theorem canonical_of_ne {version : Version} (hkey : key ≠ .interactiveMode) :
    canonical version key = key :=
  if_neg fun h => hkey h.1

/-- Both names of an option start with the same value. -/
theorem get?_initial (version : Version) : (initial version).get? key = defaults.lookup key := by
  rw [get?]
  by_cases hkey : key = .interactiveMode
  · subst hkey
    cases version <;> rfl
  · rw [canonical_of_ne hkey]
    rfl

theorem get?_set_of_ne {other : Keyword} (hkey : other ≠ key)
    (hinteractive : other ≠ .interactiveMode) (hassertions : other ≠ .produceAssertions) :
    (options.set key value).get? other = options.get? other := by
  rw [get?, version_set, canonical_of_ne hinteractive, lookup_set_of_ne hkey hassertions, get?,
    canonical_of_ne hinteractive]

theorem eq_bool_of_bool? (h : value.bool?.getD false) : value = .bool true := by
  cases value with
  | symbol name =>
      obtain ⟨name⟩ := name
      simp only [AttributeValue.bool?] at h
      split at h
      · next htrue => rw [htrue]; rfl
      · split at h <;> simp at h
  | constant value => simp [AttributeValue.bool?] at h
  | list items => simp [AttributeValue.bool?] at h

/-- An option that is set is enabled only by the value `true`. -/
theorem eq_bool_of_enabled_set (h : (options.set key value).enabled key) : value = .bool true := by
  rw [enabled, get?_set, if_pos rfl] at h
  exact eq_bool_of_bool? h

theorem enabled_set_of_ne {other : Keyword} (hkey : other ≠ key)
    (hinteractive : other ≠ .interactiveMode) (hassertions : other ≠ .produceAssertions) :
    (options.set key value).enabled other = options.enabled other := by
  rw [enabled, get?_set_of_ne hkey hinteractive hassertions, enabled]

end Options

namespace State

/-- The options that the queries about the last verdict need. -/
def queryOptions : List Keyword := [.produceModels, .produceUnsatCores]

variable {state : State} {command : Command} {response : Response} {verdict : Verdict}
  {key : Keyword}

theorem ne_of_mem_queryOptions (hkey : key ∈ queryOptions) :
    key ≠ .interactiveMode ∧ key ≠ .produceAssertions ∧ key ∉ unsupportedOptions ∧
      key ≠ .verbosity := by
  have hall : ∀ key ∈ queryOptions, key ≠ .interactiveMode ∧ key ≠ .produceAssertions ∧
      key ∉ unsupportedOptions ∧ key ≠ .verbosity := by decide
  exact hall key hkey

theorem not_enabled_initial (hkey : key ∈ queryOptions) (version : Version) :
    (Options.initial version).enabled key = false := by
  have hall : ∀ key ∈ queryOptions,
      ((Options.defaults.lookup key).bind AttributeValue.bool?).getD false = false := by decide
  rw [Options.enabled, Options.get?_initial]
  exact hall key hkey

/-- A verdict that is known after a command was known before, or is the answer to a check. -/
theorem verdict_commit (h : (state.commit command response).verdict = some verdict) :
    command.keepsVerdict ∧ state.verdict = some verdict ∨
      command = .checkSat ∧ response = .verdict verdict ∨ command = .exit := by
  cases command with
  | checkSat =>
      refine .inr (.inl ⟨rfl, ?_⟩)
      cases response with
      | verdict outcome => exact congrArg _ (Option.some.inj h)
      | _ => simp [State.commit, Response.verdict?] at h
  | exit => exact .inr (.inr rfl)
  | pop levels =>
      rw [State.commit] at h
      split at h
      · next hlevels => exact .inl ⟨by simpa [Command.keepsVerdict] using hlevels, h⟩
      · simp at h
  | setOption key value =>
      rw [State.commit] at h
      split at h
      · exact .inl ⟨rfl, h⟩
      · exact .inl ⟨rfl, h⟩
  | echo text => exact .inl ⟨rfl, h⟩
  | getAssertions => exact .inl ⟨rfl, h⟩
  | getAssignment => exact .inl ⟨rfl, h⟩
  | getInfo key => exact .inl ⟨rfl, h⟩
  | getModel => exact .inl ⟨rfl, h⟩
  | getOption key => exact .inl ⟨rfl, h⟩
  | getProof => exact .inl ⟨rfl, h⟩
  | getUnsatCore => exact .inl ⟨rfl, h⟩
  | getValue terms => exact .inl ⟨rfl, h⟩
  | setInfo key value => exact .inl ⟨rfl, h⟩
  | _ => simp [State.commit] at h

theorem options_sent (state : State) (command : Command) :
    (state.sent command).options = state.options := by
  unfold sent
  split <;> rfl

/-- An option of a query that is enabled after a command was enabled before, or is set by it. -/
theorem enabled_commit (hkey : key ∈ queryOptions)
    (h : (state.commit command response).options.enabled key) :
    (state.options.enabled key ∧ command ≠ .reset ∧ ∀ value, command ≠ .setOption key value) ∨
      command = .setOption key (.bool true) := by
  obtain ⟨hinteractive, hassertions, hunsupported, -⟩ := ne_of_mem_queryOptions hkey
  cases command with
  | setOption other value =>
      rw [State.commit] at h
      split at h
      · next hother =>
          refine .inl ⟨h, by simp, fun value' hcommand => ?_⟩
          cases hcommand
          exact hunsupported hother
      · by_cases hsame : key = other
        · subst hsame
          exact .inr (by rw [Options.eq_bool_of_enabled_set h])
        · rw [Options.enabled_set_of_ne hsame hinteractive hassertions] at h
          refine .inl ⟨h, by simp, fun value' hcommand => ?_⟩
          cases hcommand
          exact hsame rfl
  | reset =>
      rw [State.commit, not_enabled_initial hkey] at h
      simp at h
  | pop levels =>
      rw [State.commit] at h
      split at h <;> exact .inl ⟨h, by simp, by simp⟩
  | _ => exact .inl ⟨h, by simp, by simp⟩

end State

/-! ## The two fields and the history -/

/-- The verdict and the options of queries are what the history says they are. -/
structure Backed (turns : List Turn) (state : State) : Prop where
  verdict : ∀ verdict, state.verdict = some verdict → Verified turns verdict
  options : ∀ key ∈ State.queryOptions, state.options.enabled key → Enabled turns key

theorem Backed.initial (config : Config) : Backed [] (.initial config) where
  verdict := fun verdict h => by simp [State.initial] at h
  options := fun key hkey h => by
    obtain ⟨hinteractive, hassertions, -, hverbosity⟩ := State.ne_of_mem_queryOptions hkey
    rw [State.initial, Options.configured,
      Options.enabled_set_of_ne hverbosity hinteractive hassertions,
      State.not_enabled_initial hkey] at h
    simp at h

/-- A turn without an answer forgets nothing, unless it has popped. -/
theorem Backed.unanswered {turns : List Turn} {state : State} (h : Backed turns state)
    (command : Command) : Backed (⟨command, none, false⟩ :: turns) state where
  verdict := fun verdict hverdict => (h.verdict verdict hverdict).cons rfl (by simp)
  options := fun key hkey henabled => (h.options key hkey henabled).cons (by simp)

namespace Session

variable {σ : Type} {host : Host σ} {config : Config} {turns : List Turn} {session : Session σ}
  {command : Command}

theorem base_of_not_popped (h : session.popped? host command = none) :
    session.base host command = session.state := by
  rw [base, h]

theorem verdict_base_of_popped {popped : Response}
    (h : session.popped? host command = some popped) :
    (session.base host command).verdict = none := by
  have hdepth := (setLogic_of_popped? h).2.2
  rw [base, h]
  dsimp only
  rw [State.commit, if_neg (by omega)]

theorem options_base : (session.base host command).options = session.state.options := by
  unfold base
  split
  · rw [State.commit]
    split <;> rfl
  · rfl

/-- A move without an answer leaves the options alone. -/
theorem Moves.options_eq {state : State} (h : Moves host command session none state) :
    state.options = session.state.options := by
  cases h with
  | kept hpopped => rfl
  | settled hrunning => rw [State.options_sent, options_base]
  | closed hrunning => exact options_base

/-- A command that is committed is backed by its own turn, as long as the session goes on. -/
theorem backed_commit (h : Backed turns session.state) (response : Response)
    (hrunning : ((session.base host command).commit command response).terminated = false) :
    Backed (⟨command, some response, (session.popped? host command).isSome⟩ :: turns)
      ((session.base host command).commit command response) where
  verdict := fun verdict hverdict => by
    rcases State.verdict_commit hverdict with ⟨hkeeps, hbase⟩ | ⟨rfl, rfl⟩ | rfl
    · -- a command that keeps the verdict is no setting of the logic, so nothing was popped
      have hpopped : session.popped? host command = none :=
        popped?_of_ne (by rintro logic rfl; simp [Command.keepsVerdict] at hkeeps)
      rw [base_of_not_popped hpopped] at hbase
      exact (h.verdict verdict hbase).cons (by simp [hpopped]) fun _ => hkeeps
    · exact .check rfl rfl
    · simp [State.commit] at hrunning
  options := fun key hkey henabled => by
    rcases State.enabled_commit hkey henabled with ⟨hbase, hreset⟩ | rfl
    · rw [options_base] at hbase
      exact (h.options key hkey hbase).cons fun _ => hreset
    · exact .set rfl rfl

/-- What a relaxed setting of the logic leaves after its pop is backed by its turn. -/
theorem backed_base (h : Backed turns session.state) :
    Backed (⟨command, none, (session.popped? host command).isSome⟩ :: turns)
      (session.base host command) := by
  cases hpopped : session.popped? host command with
  | none =>
      rw [base_of_not_popped hpopped]
      exact h.unanswered command
  | some popped =>
      -- the pop has forgotten the verdict, and has left the options alone
      refine ⟨fun verdict hverdict => ?_, fun key hkey henabled => ?_⟩
      · simp [verdict_base_of_popped hpopped] at hverdict
      · rw [options_base] at henabled
        exact (h.options key hkey henabled).cons (by simp)

/-- A move keeps the two fields backed, as long as the session goes on. -/
theorem Moves.backed {answer : Option Response} {state : State}
    (hmoves : Moves host command session answer state)
    (h : session.state.terminated = false → Backed turns session.state)
    (hstate : state.terminated = false) :
    Backed (⟨command, answer, (session.popped? host command).isSome⟩ :: turns) state := by
  cases hmoves with
  | kept hpopped =>
      rw [hpopped]
      exact (h hstate).unanswered command
  | committed hrunning hplan => exact backed_commit (h hrunning) _ hstate
  | settled hrunning =>
      by_cases hexit : command = .exit
      · simp [State.sent, hexit, State.closed] at hstate
      · rw [State.sent, if_neg hexit]
        exact backed_base (h hrunning)
  | closed hrunning => simp [State.closed] at hstate

/-- **The two fields are backed along every run, until the session is over.** -/
theorem Run.backed (hrun : Run host config turns session)
    (hrunning : session.state.terminated = false) : Backed turns session.state := by
  induction hrun with
  | start hstart =>
      rw [state_of_start hstart]
      exact .initial config
  | turn hrun command ih => exact (moves host command _).backed ih hrunning

end Session

/-! ## Queries -/

/-- What the history must say before the text of a command of some name is handed over. -/
structure Justified (turns : List Turn) (name : String) : Prop where
  model : name = "get-model" → Verified turns .sat ∧ Enabled turns .produceModels
  value : name = "get-value" →
    (Verified turns .sat ∨ Verified turns .unknown) ∧ Enabled turns .produceModels
  core : name = "get-unsat-core" → Verified turns .unsat ∧ Enabled turns .produceUnsatCores
  proof : name ≠ "get-proof"
  assignment : name ≠ "get-assignment"

/-- An option that is always off lets nothing pass. -/
theorem State.Sound.not_enabled {version : Version} {state : State} (h : Sound version state) :
    state.options.enabled .produceProofs = false ∧
      state.options.enabled .produceAssignments = false := by
  refine ⟨?_, ?_⟩
  · rw [Options.enabled, Options.get?, Options.canonical_of_ne (by decide), h.proofs]
    rfl
  · rw [Options.enabled, Options.get?, Options.canonical_of_ne (by decide), h.assignments]
    rfl

section Queries

variable {turns : List Turn} {version : Version} {state : State} {relax : Bool} {command : Command}
  {plan : Plan}

/-- Where an option and a verdict are required, the history has both. -/
theorem Backed.required (h : Backed turns state) (key : Keyword) (hkey : key ∈ State.queryOptions)
    {accepted : List Verdict} {next : Unit → Except Violation Plan}
    (hplan : (state.requireOption command key >>= fun _ =>
      state.requireVerdict command accepted >>= next) = .ok plan) :
    (∃ verdict ∈ accepted, Verified turns verdict) ∧ Enabled turns key := by
  obtain ⟨henabled, hnext⟩ := State.requireOption_bind hplan
  obtain ⟨⟨verdict, hmem, hverdict⟩, -⟩ := State.requireVerdict_bind hnext
  exact ⟨⟨verdict, hmem, h.verdict verdict hverdict⟩, h.options key hkey henabled⟩

/-- A query is let pass only if the history justifies it. -/
theorem Backed.justified (h : Backed turns state) (hsound : state.Sound version)
    (hplan : state.plan relax command = .ok plan) : Justified turns command.name := by
  cases command with
  | getModel =>
      have hrequired := h.required .produceModels (by decide) hplan
      simp only [List.mem_singleton, exists_eq_left] at hrequired
      constructor <;> simp [Command.name, hrequired]
  | getValue terms =>
      have hrequired := h.required .produceModels (by decide) hplan
      simp only [List.mem_pair, exists_eq_or_imp, exists_eq_left] at hrequired
      constructor <;> simp [Command.name, hrequired]
  | getUnsatCore =>
      have hrequired := h.required .produceUnsatCores (by decide) hplan
      simp only [List.mem_singleton, exists_eq_left] at hrequired
      constructor <;> simp [Command.name, hrequired]
  | getProof =>
      -- the option that it needs is always off
      have henabled := (State.requireOption_bind hplan).1
      rw [hsound.not_enabled.1] at henabled
      simp at henabled
  | getAssignment =>
      have henabled := (State.requireOption_bind hplan).1
      rw [hsound.not_enabled.2] at henabled
      simp at henabled
  | _ => constructor <;> simp [Command.name]

end Queries

namespace Session

variable {σ : Type} {host : Host σ} {config : Config} {turns : List Turn} {session : Session σ}

/-- **A query is handed over only if the history justifies it**, and proofs and assignments are
never asked for. -/
theorem run_justified (hrun : Run host config turns session) (command : Command) {text : String}
    {sent : Command} (hhanded : .send text ∈ session.calls host command)
    (htext : translate .z3 (.command sent) = .ok text) : Justified turns sent.name := by
  obtain ⟨hrunning, ⟨⟨plan, hplan⟩, htext'⟩ | ⟨-, levels, htext'⟩⟩ := handed_text hhanded
  · rw [name_eq_of_translate htext htext']
    exact (hrun.backed hrunning).justified hrun.sound hplan
  · rw [name_eq_of_translate htext htext']
    constructor <;> simp [Command.name]

/-- A run in which a model is asked for. -/
theorem run_justified_model :
    ∃ turns, ∃ session : Session Script, Run .scripted { lenient := true } turns session ∧
      Verified turns .sat ∧ Enabled turns .produceModels := by
  have hrun : ∃ turns, ∃ session : Session Script,
      Run .scripted { lenient := true } turns session ∧
        session.calls .scripted .getModel = [.send "(get-model)"] := by
    have hstart : start .scripted { lenient := true }
        ({ byName := [("check-sat", [.ok "sat"])] } : Script) = .ok _ _ := rfl
    exact ⟨_, _, (((Run.start hstart).turn (.setOption .produceModels (.bool true))).turn
      (.setLogic ⟨"QF_LIA"⟩)).turn .checkSat, by decide +kernel⟩
  obtain ⟨turns, session, hrun, hcalls⟩ := hrun
  have hhanded : .send "(get-model)" ∈ session.calls .scripted .getModel := by simp [hcalls]
  have htext : translate .z3 (.command .getModel) = .ok "(get-model)" := rfl
  exact ⟨turns, session, hrun, (run_justified hrun .getModel hhanded htext).model rfl⟩

end Session

end SmtSession
