import SmtSession.Host.Scripted
import SmtSession.Proofs.Session.Run

/-!
# The invariant of a session

Before the logic is set, nothing is asserted and no verdict is known; the
options that the solver does not support stay off; and no option that exists
from the start is lost (`State.Sound`).  Every move of a turn preserves this,
the half of a relaxed setting of the logic included, so it holds along every run
(`Session.Run.sound`).

The invariant is what makes the rules of a session work: the logic opens exactly
one level because the depth is zero whenever no logic is set.
-/

namespace SmtSession

/-! ## The invariant -/

namespace State

/-- What holds of the state of a session at all times. -/
structure Sound (version : Version) (state : State) : Prop where
  unset : state.logicSet = false → state.depth = 0 ∧ state.verdict = none
  proofs : state.options.values.lookup .produceProofs = some (.bool false)
  assignments : state.options.values.lookup .produceAssignments = some (.bool false)
  known : ∀ entry ∈ Options.defaults, (state.options.values.lookup entry.1).isSome
  version_eq : state.options.version = version
  interactive : version ≠ .v20 →
    state.options.values.lookup .interactiveMode = some (.bool false)

/-- The state after a command that succeeded, unless it pops more levels than there are. -/
def commit? (state : State) (command : Command) (response : Response) : Option State :=
  match command with
  | .pop levels =>
    if levels ≤ state.depth then some (state.commit (.pop levels) response) else none
  | command => some (state.commit command response)

end State

/-! ## Options -/

namespace Options

variable {options : Options} {key : Keyword} {value : AttributeValue}

theorem lookup_set (other : Keyword) :
    (options.set key value).values.lookup other =
      if other = canonical options.version key then some value else options.values.lookup other :=
  lookup_put ..

/-- A keyword is kept under itself or under another name of the assertions. -/
theorem canonical_cases (version : Version) (key : Keyword) :
    canonical version key = key ∨ canonical version key = .produceAssertions := by
  unfold canonical
  split
  · exact .inr rfl
  · exact .inl rfl

theorem canonical_ne_interactiveMode {version : Version} (hversion : version ≠ .v20)
    (key : Keyword) : canonical version key ≠ .interactiveMode := by
  unfold canonical
  split
  · decide
  · next hkey => exact fun hinteractive => hkey ⟨hinteractive, hversion⟩

/-- An option is kept under the keyword of another one only if it is this one, or if that one is
the option of the assertions. -/
theorem lookup_set_of_ne {other : Keyword} (hkey : other ≠ key)
    (hassertions : other ≠ .produceAssertions) :
    (options.set key value).values.lookup other = options.values.lookup other := by
  rw [lookup_set, if_neg]
  -- a keyword is kept under itself or under that of the assertions
  intro hother
  rcases canonical_cases options.version key with hcanonical | hcanonical
  · exact hkey (hother.trans hcanonical)
  · exact hassertions (hother.trans hcanonical)

end Options

namespace State.Sound

variable {version : Version} {state : State}

theorem setOption (h : Sound version state) {key : Keyword} (value : AttributeValue)
    (hkey : key ∉ unsupportedOptions) :
    Sound version { state with options := state.options.set key value } where
  unset := h.unset
  proofs := by
    rw [Options.lookup_set_of_ne (by rintro rfl; simp [unsupportedOptions] at hkey) (by decide)]
    exact h.proofs
  assignments := by
    rw [Options.lookup_set_of_ne (by rintro rfl; simp [unsupportedOptions] at hkey) (by decide)]
    exact h.assignments
  known := fun entry hentry => by
    rw [Options.lookup_set]
    split
    · rfl
    · exact h.known entry hentry
  version_eq := h.version_eq
  interactive := fun hversion => by
    rw [Options.lookup_set,
      if_neg (Options.canonical_ne_interactiveMode (h.version_eq.symm ▸ hversion) key).symm]
    exact h.interactive hversion

/-- The options that a session starts with are as they should be. -/
theorem of_initial (hunset : state.logicSet = false → state.depth = 0 ∧ state.verdict = none)
    (hoptions : state.options = .initial version) : Sound version state where
  unset := hunset
  proofs := hoptions ▸ rfl
  assignments := hoptions ▸ rfl
  known := by
    have hknown : ∀ entry ∈ Options.defaults, (Options.defaults.lookup entry.1).isSome := by decide
    exact hoptions ▸ hknown
  version_eq := hoptions ▸ rfl
  interactive := fun _ => hoptions ▸ rfl

theorem initial (config : Config) : Sound config.version (.initial config) := by
  have hdefaults : Sound config.version
      { State.initial config with options := .initial config.version } :=
    of_initial (fun _ => ⟨rfl, rfl⟩) rfl
  exact hdefaults.setOption (.numeral config.verbosity) (by decide)

/-- The invariant says nothing about being over. -/
theorem closed (h : Sound version state) : Sound version state.closed :=
  { h with }

theorem sent (h : Sound version state) (command : Command) :
    Sound version (state.sent command) := by
  unfold State.sent
  split
  · exact h.closed
  · exact h

/-- A state that differs in logic, depth and verdict only. -/
theorem of_options {state' : State} (h : Sound version state)
    (hunset : state'.logicSet = false → state'.depth = 0 ∧ state'.verdict = none)
    (hoptions : state'.options = state.options) : Sound version state' where
  unset := hunset
  proofs := hoptions ▸ h.proofs
  assignments := hoptions ▸ h.assignments
  known := hoptions ▸ h.known
  version_eq := hoptions ▸ h.version_eq
  interactive := hoptions ▸ h.interactive

/-- **A command that is let pass preserves the invariant.** -/
theorem commit (h : Sound version state) (command : Command) (response : Response)
    (hlogic : command.needsLogic → state.logicSet) :
    Sound version (state.commit command response) := by
  have hforgotten : Sound version { state with verdict := none } :=
    h.of_options (fun hunset => ⟨(h.unset hunset).1, rfl⟩) rfl
  -- what makes levels or verdicts needs the logic, so without one there are none
  cases command with
  | setLogic logic => exact h.of_options (fun hunset => absurd hunset (by simp [State.commit])) rfl
  | assert term => exact hforgotten
  | declareConst name sort => exact hforgotten
  | declareDatatypes sorts datatypes => exact hforgotten
  | declareFun name params result => exact hforgotten
  | declareSort name arity => exact hforgotten
  | defineFun name params result body => exact hforgotten
  | defineSort name params sort => exact hforgotten
  | push levels =>
      have hset : state.logicSet := hlogic rfl
      exact h.of_options (fun hunset => absurd (hunset.symm.trans hset) (by simp)) rfl
  | pop levels =>
      rw [State.commit]
      split
      · exact h
      · refine h.of_options ?_ rfl
        intro hunset
        have hdepth : state.depth = 0 := (h.unset hunset).1
        exact ⟨by simp [hdepth], rfl⟩
  | checkSat =>
      have hset : state.logicSet := hlogic rfl
      exact h.of_options (fun hunset => absurd (hunset.symm.trans hset) (by simp)) rfl
  | setOption key value =>
      rw [State.commit]
      split
      · exact h
      · next hkey => exact h.setOption value hkey
  | reset => exact of_initial (fun _ => ⟨rfl, rfl⟩) (by rw [← h.version_eq]; rfl)
  | resetAssertions =>
      refine h.of_options (fun hunset => ⟨if_neg ?_, rfl⟩) rfl
      rw [show state.logicSet = false from hunset]
      simp
  | exit => exact h.closed
  | echo text => exact h
  | getAssertions => exact h
  | getAssignment => exact h
  | getInfo key => exact h
  | getModel => exact h
  | getOption key => exact h
  | getProof => exact h
  | getUnsatCore => exact h
  | getValue terms => exact h
  | setInfo key value => exact h

end State.Sound

/-! ## Runs -/

namespace Session

variable {σ : Type} {host : Host σ} {config : Config} {turns : List Turn} {session : Session σ}
  {version : Version} {command : Command}

theorem sound_base (h : State.Sound version session.state) (command : Command) :
    State.Sound version (session.base host command) := by
  unfold base
  split
  · next response hpopped =>
      exact h.commit _ _ fun _ => (setLogic_of_popped? hpopped).2.1
  · exact h

theorem logicSet_base (h : session.state.logicSet) (command : Command) :
    (session.base host command).logicSet := by
  unfold base
  split
  · rw [State.commit]
    split <;> exact h
  · exact h

/-- A move preserves the invariant. -/
theorem Moves.sound {answer : Option Response} {state : State}
    (hmoves : Moves host command session answer state) (h : State.Sound version session.state) :
    State.Sound version state := by
  have hbase : State.Sound version (session.base host command) := sound_base h command
  cases hmoves with
  | kept hpopped => exact h
  | committed hrunning hplan =>
      exact hbase.commit _ _ fun hneeds => logicSet_base (State.logicSet_of_plan hplan hneeds) _
  | settled hrunning => exact hbase.sent command
  | closed hrunning => exact hbase.closed

/-- **The invariant holds along every run.** -/
theorem Run.sound (hrun : Run host config turns session) :
    State.Sound config.version session.state := by
  induction hrun with
  | start hstart =>
      rw [state_of_start hstart]
      exact .initial config
  | turn hrun command ih => exact (moves host command _).sound ih

/-! ## What the invariant is good for -/

/-- The pop before the logic is set again takes no more levels than there are. -/
theorem commit?_of_popped? {popped : Response} (h : session.popped? host command = some popped) :
    session.state.commit? (.pop session.state.depth) popped = some (session.base host command) := by
  rw [State.commit?, if_pos le_rfl, base, h]

/-- A command that succeeds pops no more levels than there are. -/
theorem commit?_of_execute {response : Response} {after : Session σ}
    (h : execute host command session = .ok response after) :
    (session.base host command).commit? command response = some after.state := by
  obtain ⟨-, ⟨plan, hplan⟩, hstate⟩ := execute_ok h
  rw [hstate]
  cases command with
  | pop levels =>
      have hbase : session.base host (.pop levels) = session.state :=
        base_of_not_reopen fun levels' hreopen => by simpa using (State.reopen_of_plan hreopen).1
      rw [State.commit?, hbase, if_pos (State.le_depth_of_plan_pop hplan)]
  | _ => rfl

/-- Setting the logic opens one level, for there is none when no logic is set. -/
theorem depth_of_setLogic (h : State.Sound version session.state) {logic : Symbol}
    {response : Response} {after : Session σ}
    (hexecute : execute host (.setLogic logic) session = .ok response after) :
    after.state.depth = 1 ∧ after.state.verdict = none := by
  have hbase : State.Sound version (session.base host (.setLogic logic)) := sound_base h _
  obtain ⟨-, -, hstate⟩ := execute_ok hexecute
  rw [hstate]
  refine ⟨?_, rfl⟩
  rw [State.commit]
  cases hset : (session.base host (.setLogic logic)).logicSet with
  | true => rfl
  | false => simp [(hbase.unset hset).1]

/-- A text is handed over only when the rules for its command hold. -/
theorem rules_of_handed {text : String} {sent : Command}
    (hhanded : .send text ∈ session.calls host command)
    (htext : translate .z3 (.command sent) = .ok text) :
    (sent.needsLogic → session.state.logicSet) ∧
      ∀ term, sent = .assert term → 0 < session.state.depth := by
  obtain ⟨-, ⟨⟨plan, hplan⟩, htext'⟩ | ⟨hset, levels, htext'⟩⟩ := handed_text hhanded
  · have hname := name_eq_of_translate htext htext'
    refine ⟨fun hneeds => State.logicSet_of_plan hplan ?_, ?_⟩
    · rwa [Command.needsLogic, ← hname]
    · rintro term rfl
      obtain ⟨term', rfl⟩ := Command.exists_assert_of_name hname.symm
      exact State.depth_pos_of_plan_assert hplan
  · have hname := name_eq_of_translate htext htext'
    refine ⟨fun _ => hset, ?_⟩
    rintro term rfl
    simp [Command.name] at hname

/-- **What holds along every run.**  The state is sound; no commit pops more levels than there are;
setting the logic opens one level; and a text is handed over only when its command may be sent. -/
theorem run_invariant (hrun : Run host config turns session) (command : Command) :
    State.Sound config.version session.state ∧
      (∀ popped, session.popped? host command = some popped →
        session.state.commit? (.pop session.state.depth) popped =
          some (session.base host command)) ∧
      (∀ response after, execute host command session = .ok response after →
        (session.base host command).commit? command response = some after.state ∧
          ∀ logic, command = .setLogic logic →
            after.state.depth = 1 ∧ after.state.verdict = none) ∧
      ∀ text sent, .send text ∈ session.calls host command →
        translate .z3 (.command sent) = .ok text →
          (sent.needsLogic → session.state.logicSet) ∧
            ∀ term, sent = .assert term → 0 < session.state.depth := by
  refine ⟨hrun.sound, fun _ => commit?_of_popped?, ?_, fun text sent => rules_of_handed⟩
  intro response after hexecute
  refine ⟨commit?_of_execute hexecute, ?_⟩
  rintro logic rfl
  exact depth_of_setLogic hrun.sound hexecute

/-- A run over a solver that acknowledges the logic and is gone at a push. -/
theorem run_invariant_pushed :
    ∃ turns, ∃ session : Session Script, Run .scripted { lenient := true } turns session ∧
      session.state.depth = 1 ∧ session.state.terminated ∧ State.Sound .v25 session.state := by
  have hrun : ∃ turns, ∃ session : Session Script,
      Run .scripted { lenient := true } turns session ∧ session.state.depth = 1 ∧
        session.state.terminated := by
    have hstart : start .scripted { lenient := true }
        ({ byName := [("push", [.error ⟨.brokenPipe, none⟩])] } : Script) = .ok _ _ := rfl
    exact ⟨_, _, ((Run.start hstart).turn (.setLogic ⟨"QF_LIA"⟩)).turn (.push 2),
      by decide +kernel, by decide +kernel⟩
  obtain ⟨turns, session, hrun, hdepth, hterminated⟩ := hrun
  exact ⟨turns, session, hrun, hdepth, hterminated, (run_invariant hrun .checkSat).1⟩

end Session

end SmtSession
