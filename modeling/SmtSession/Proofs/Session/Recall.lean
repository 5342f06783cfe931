import SmtSession.Proofs.Session.History

/-!
# What a session remembers of its options

A session answers itself what an option is, from the table that it keeps.  The
answer is what the caller can read off the history: the value of the last
setting that was answered since the last reset, or else the value with which the
option starts (`Session.getOption_recalls`).

## Strategy

What is `recalled` is a function of the history alone, and it changes with a turn
in one of three ways: a reset forgets everything, a setting of the option
replaces the value, and any other turn leaves it (`recalled_cons`).  The table
changes in the same way with every move of a turn, for two keywords are kept
under the same name exactly if they name the same option
(`Options.canonical_eq_iff`).
-/

namespace SmtSession

/-! ## What a history says about an option -/

/-- Whether two keywords name the same option.  After version 2.0 of the standard, an option has
two names. -/
def Keyword.SameOption (version : Version) (key other : Keyword) : Prop :=
  key = other ∨ version ≠ .v20 ∧ key ∈ [.interactiveMode, .produceAssertions] ∧
    other ∈ [.interactiveMode, .produceAssertions]

instance (version : Version) (key other : Keyword) : Decidable (key.SameOption version other) :=
  inferInstanceAs (Decidable (_ ∨ _))

namespace Turn

/-- Whether all options are put back. -/
def isReset : Turn → Bool
  | ⟨.reset, some _, _⟩ => true
  | _ => false

/-- The value that an option is given, if it is set and the session remembers it. -/
def setting? (version : Version) (key : Keyword) : Turn → Option AttributeValue
  | ⟨.setOption other value, some _, _⟩ =>
    if key.SameOption version other ∧ other ∉ State.unsupportedOptions then some value else none
  | _ => none

end Turn

/-- The value of the last setting of an option since the last reset. -/
def lastSetting? (version : Version) (key : Keyword) (turns : List Turn) :
    Option AttributeValue :=
  (turns.takeWhile (!·.isReset)).findSome? (·.setting? version key)

/-- The value of an option that is not set.  The configured verbosity does not survive a reset. -/
def unsetValue (config : Config) (key : Keyword) (turns : List Turn) : Option AttributeValue :=
  if key = .verbosity ∧ !turns.any Turn.isReset then some (.numeral config.verbosity)
  else Options.defaults.lookup key

/-- The value of an option after some turns, the latest first, if there is such an option. -/
def recalled (config : Config) (key : Keyword) (turns : List Turn) : Option AttributeValue :=
  (lastSetting? config.version key turns).or (unsetValue config key turns)

/-- **What a turn does to an option**, the value before it being given. -/
def Turn.recall (version : Version) (key : Keyword) (turn : Turn)
    (before : Option AttributeValue) : Option AttributeValue :=
  if turn.isReset then Options.defaults.lookup key else (turn.setting? version key).or before

theorem recalled_cons (config : Config) (key : Keyword) (turn : Turn) (turns : List Turn) :
    recalled config key (turn :: turns) =
      turn.recall config.version key (recalled config key turns) := by
  unfold recalled Turn.recall lastSetting? unsetValue
  cases hreset : turn.isReset with
  | true => simp [hreset]
  | false =>
      simp only [List.takeWhile_cons, List.any_cons, hreset, Bool.not_false, Bool.false_or,
        Bool.false_eq_true, if_true, if_false, List.findSome?_cons]
      cases turn.setting? config.version key <;> rfl

/-- A turn without an answer leaves every option as it is. -/
theorem Turn.recall_unanswered (version : Version) (key : Keyword) (command : Command)
    (popped : Bool) (before : Option AttributeValue) :
    Turn.recall version key ⟨command, none, popped⟩ before = before := by
  cases command <;> rfl

theorem Turn.recall_setOption (version : Version) (key other : Keyword) (value : AttributeValue)
    (response : Response) (popped : Bool) (before : Option AttributeValue) :
    Turn.recall version key ⟨.setOption other value, some response, popped⟩ before =
      if key.SameOption version other ∧ other ∉ State.unsupportedOptions then some value
      else before := by
  show Option.or (if _ then some value else none) before = _
  split <;> rfl

/-! ## The table -/

namespace Options

variable {version : Version} {key other : Keyword}

/-- Keywords are kept under the same name exactly if they name the same option. -/
theorem canonical_eq_iff :
    canonical version key = canonical version other ↔ key.SameOption version other := by
  unfold canonical Keyword.SameOption
  by_cases hversion : version = .v20
  · simp [hversion]
  · by_cases hkey : key = .interactiveMode <;> by_cases hother : other = .interactiveMode
    · simp [hkey, hother]
    · simp [hversion, hkey, hother, Ne.symm hother, eq_comm]
    · simp [hversion, hkey, hother]
    · simp only [hkey, hother, false_and, if_false, List.mem_pair, false_or]
      exact ⟨.inl, fun h => h.elim id fun ⟨_, hassertions, hassertions'⟩ =>
        hassertions.trans hassertions'.symm⟩

/-- The verbosity has one name. -/
theorem sameOption_verbosity : key.SameOption version .verbosity ↔ key = .verbosity := by
  constructor
  · rintro (hkey | ⟨-, -, hassertions⟩)
    · exact hkey
    · exact absurd hassertions (by decide)
  · exact .inl

theorem get?_configured (config : Config) :
    (configured config).get? key = recalled config key [] := by
  have hverbosity : canonical (initial config.version).version key =
      canonical (initial config.version).version .verbosity ↔ key = .verbosity :=
    canonical_eq_iff.trans sameOption_verbosity
  rw [configured, get?_set, get?_initial]
  by_cases hkey : key = .verbosity <;> simp [recalled, lastSetting?, unsetValue, hverbosity, hkey]

end Options

/-- A command that is committed changes the table as its turn changes what is recalled. -/
theorem State.get?_commit (state : State) (command : Command) (response : Response)
    (popped : Bool) (key : Keyword) :
    (state.commit command response).options.get? key =
      Turn.recall state.options.version key ⟨command, some response, popped⟩
        (state.options.get? key) := by
  cases command with
  | reset => exact Options.get?_initial _
  | setOption other value =>
      rw [commit, Turn.recall_setOption]
      by_cases hunsupported : other ∈ unsupportedOptions
      · simp [hunsupported]
      · simp [hunsupported, Options.get?_set, Options.canonical_eq_iff]
  | pop levels =>
      rw [commit]
      split <;> rfl
  | _ => rfl

namespace Session

variable {σ : Type} {host : Host σ} {config : Config} {turns : List Turn} {session : Session σ}
  {command : Command}

/-- A move changes the table as the turn changes what is recalled. -/
theorem Moves.get?_eq {answer : Option Response} {state : State}
    (hmoves : Moves host command session answer state) (popped : Bool) (key : Keyword) :
    state.options.get? key =
      Turn.recall session.state.options.version key ⟨command, answer, popped⟩
        (session.state.options.get? key) := by
  cases answer with
  | none => rw [Turn.recall_unanswered, hmoves.options_eq]
  | some response =>
      cases hmoves with
      | committed hrunning hplan => rw [State.get?_commit _ _ _ popped, options_base]

/-- **The table is the history**, along every run. -/
theorem Run.get?_eq_recalled (hrun : Run host config turns session) (key : Keyword) :
    session.state.options.get? key = recalled config key turns := by
  induction hrun with
  | start hstart =>
      rw [state_of_start hstart]
      exact Options.get?_configured config
  | @turn turns session hrun command ih =>
      rw [recalled_cons, ← ih, ← hrun.sound.version_eq]
      exact (moves host command session).get?_eq _ key

/-- **A session remembers its options.**  While it runs, asking what an option is asks nothing of
the solver and changes nothing.  The answer is the value of the last setting that was answered since
the last reset, or the value with which the option starts, or that there is no such option. -/
theorem getOption_recalls (hrun : Run host config turns session)
    (hrunning : session.state.terminated = false) (key : Keyword) :
    session.calls host (.getOption key) = [] ∧
      execute host (.getOption key) session =
        .ok (optionAnswer (recalled config key turns)) session := by
  refine ⟨?_, ?_⟩
  · have hrecording : (session.recording []).state.terminated = false := hrunning
    rw [calls, execute_getOption hrecording]
    rfl
  · rw [execute_getOption hrunning, hrun.get?_eq_recalled]

/-- A run in which the verbosity is set and reset, and an option is set under its old name. -/
theorem getOption_recalls_reset :
    ∃ turns, ∃ session : Session Script, Run .scripted { verbosity := 1 } turns session ∧
      execute .scripted (.getOption .verbosity) session = .ok (.value (.numeral 0)) session ∧
      execute .scripted (.getOption .produceAssertions) session =
        .ok (.value (.bool true)) session := by
  have hrun : ∃ turns, ∃ session : Session Script,
      Run .scripted { verbosity := 1 } turns session ∧ session.state.terminated = false ∧
        recalled { verbosity := 1 } .verbosity turns = some (.numeral 0) ∧
        recalled { verbosity := 1 } .produceAssertions turns = some (.bool true) := by
    have hstart : start .scripted { verbosity := 1 } ({} : Script) = .ok _ _ := rfl
    exact ⟨_, _, (((Run.start hstart).turn (.setOption .verbosity (.numeral 2))).turn .reset).turn
      (.setOption .interactiveMode (.bool true)), by decide +kernel, by decide +kernel,
      by decide +kernel⟩
  obtain ⟨turns, session, hrun, hrunning, hverbosity, hassertions⟩ := hrun
  refine ⟨turns, session, hrun, ?_, ?_⟩
  · have hanswer := (getOption_recalls hrun hrunning .verbosity).2
    rwa [hverbosity] at hanswer
  · have hanswer := (getOption_recalls hrun hrunning .produceAssertions).2
    rwa [hassertions] at hanswer

end Session

end SmtSession
