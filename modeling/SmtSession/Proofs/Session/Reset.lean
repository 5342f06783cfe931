import SmtSession.Proofs.Session.Conversation
import SmtSession.Proofs.Session.Recall

/-!
# What a reset brings back

After a reset a session is in the state in which it would have started with
verbosity zero, for the configured verbosity does not survive a reset.  From then
on it cannot be told from a session that has just started, except by its
verbosity, and not even by that once the verbosity has been set or reset again
(`Session.reset_restarts`).

## Strategy

What happens to a state is a sequence of exchanges (`State.through`): a command,
and what came of it.  Two states that are alike but for the verbosity
(`State.Alike`) let the same commands pass, so an exchange changes them in the
same way and they stay alike.  The verbosity itself either stays what it was in
both of them, or is replaced in both by the same exchange (`State.replaced?`).
-/

namespace SmtSession

/-! ## Exchanges -/

/-- What comes of a command, as far as the state is concerned. -/
inductive Outcome where
  /-- There is a response, and the command is committed. -/
  | answered (response : Response)
  /-- The command has been sent, and what came back is no response. -/
  | rejected
  /-- The solver has been lost. -/
  | lost
  /-- The command was refused, and nothing has happened. -/
  | refused

/-- A command and what comes of it. -/
structure Exchange where
  command : Command
  /-- The response to the pop that precedes the setting of a logic that is set, if it got one. -/
  popped : Option Response
  outcome : Outcome

namespace State

/-- The state to which an exchange commits: that after the pop, if there was one. -/
def committable (relax : Bool) (state : State) (exchange : Exchange) : State :=
  match state.plan relax exchange.command, exchange.popped with
  | .ok (.reopen levels), some response => state.commit (.pop levels) response
  | _, _ => state

/-- The state after an exchange of which the command is let pass. -/
def passed (relax : Bool) (state : State) (exchange : Exchange) : State :=
  match exchange.outcome with
  | .answered response => (state.committable relax exchange).commit exchange.command response
  | .rejected => (state.committable relax exchange).sent exchange.command
  | .lost => (state.committable relax exchange).closed
  | .refused => state

/-- The state after an exchange, `relax` saying whether the rules are relaxed. -/
def follow (relax : Bool) (state : State) (exchange : Exchange) : State :=
  if state.terminated then state
  else
    match state.plan relax exchange.command with
    | .error _ => state
    | .ok _ => state.passed relax exchange

/-- The state after some exchanges. -/
def through (relax : Bool) (state : State) (exchanges : List Exchange) : State :=
  exchanges.foldl (follow relax) state

/-! ## States that are alike but for the verbosity -/

/-- The states are the same, except that the verbosity may be another. -/
structure Alike (a b : State) : Prop where
  logicSet : a.logicSet = b.logicSet
  depth : a.depth = b.depth
  verdict : a.verdict = b.verdict
  terminated : a.terminated = b.terminated
  version : a.options.version = b.options.version
  options : ∀ key, key ≠ .verbosity → a.options.get? key = b.options.get? key

variable {a b : State} {relax : Bool} {command : Command}

theorem version_commit (state : State) (command : Command) (response : Response) :
    (state.commit command response).options.version = state.options.version := by
  cases command with
  | setOption key value =>
      rw [commit]
      split <;> rfl
  | pop levels =>
      rw [commit]
      split <;> rfl
  | _ => rfl

theorem exists_plan_getOption (state : State) (relax : Bool) (key : Keyword) :
    ∃ response, state.plan relax (.getOption key) = .ok (.answer response) := by
  rw [plan]
  cases state.options.get? key with
  | some value => exact ⟨.value value, rfl⟩
  | none => exact ⟨.unsupported, rfl⟩

namespace Alike

theorem enabled (h : Alike a b) {key : Keyword} (hkey : key ≠ .verbosity) :
    a.options.enabled key = b.options.enabled key := by
  rw [Options.enabled, Options.enabled, h.options key hkey]

/-- **States that are alike let the same commands pass**, and only the question for the verbosity
may be answered otherwise. -/
theorem plan_eq (h : Alike a b) (hcommand : command ≠ .getOption .verbosity) :
    a.plan relax command = b.plan relax command := by
  have hlogic (command : Command) : a.requireLogic command = b.requireLogic command := by
    rw [requireLogic, requireLogic, h.logicSet]
  have hverdict (command : Command) (accepted : List Verdict) :
      a.requireVerdict command accepted = b.requireVerdict command accepted := by
    rw [requireVerdict, requireVerdict, h.verdict]
  have hoption (command : Command) {key : Keyword} (hkey : key ≠ .verbosity) :
      a.requireOption command key = b.requireOption command key := by
    rw [requireOption, requireOption, h.enabled hkey]
  cases command with
  | getOption key =>
      have hkey : key ≠ .verbosity := fun hkey => hcommand (hkey ▸ rfl)
      rw [plan, plan, h.options key hkey]
  | setOption key value => rw [plan, plan, planOption, planOption, h.logicSet]
  | getModel => rw [plan, plan, hoption _ (by decide), hverdict]
  | getValue terms => rw [plan, plan, hoption _ (by decide), hverdict]
  | getProof => rw [plan, plan, hoption _ (by decide), hverdict]
  | getUnsatCore => rw [plan, plan, hoption _ (by decide), hverdict]
  | getAssignment => rw [plan, plan, hoption _ (by decide), hverdict]
  | getAssertions => rw [plan, plan, hlogic, hoption _ (by decide)]
  | setLogic logic => rw [plan, plan, h.logicSet, h.depth]
  | assert term => rw [plan, plan, hlogic, h.depth]
  | pop levels => rw [plan, plan, hlogic, h.depth]
  | push levels => rw [plan, plan, hlogic]
  | checkSat => rw [plan, plan, hlogic]
  | declareConst name sort => rw [plan, plan, hlogic]
  | declareDatatypes sorts datatypes => rw [plan, plan, hlogic]
  | declareFun name params result => rw [plan, plan, hlogic]
  | declareSort name arity => rw [plan, plan, hlogic]
  | defineFun name params result body => rw [plan, plan, hlogic]
  | defineSort name params sort => rw [plan, plan, hlogic]
  | _ => rfl

/-- Whatever the command is, it is let pass in both states or in neither. -/
theorem plan_cases (h : Alike a b) (relax : Bool) (command : Command) :
    a.plan relax command = b.plan relax command ∨
      ∃ response response', a.plan relax command = .ok (.answer response) ∧
        b.plan relax command = .ok (.answer response') := by
  by_cases hcommand : command = .getOption .verbosity
  · subst hcommand
    obtain ⟨response, hplan⟩ := exists_plan_getOption a relax .verbosity
    obtain ⟨response', hplan'⟩ := exists_plan_getOption b relax .verbosity
    exact .inr ⟨response, response', hplan, hplan'⟩
  · exact .inl (h.plan_eq hcommand)

theorem commit (h : Alike a b) (command : Command) (response : Response) :
    Alike (a.commit command response) (b.commit command response) := by
  have hcontrol : (a.commit command response).logicSet = (b.commit command response).logicSet ∧
      (a.commit command response).depth = (b.commit command response).depth ∧
      (a.commit command response).verdict = (b.commit command response).verdict ∧
      (a.commit command response).terminated = (b.commit command response).terminated := by
    cases command with
    | setOption key value =>
        rw [State.commit, State.commit]
        split <;> exact ⟨h.logicSet, h.depth, h.verdict, h.terminated⟩
    | pop levels =>
        rw [State.commit, State.commit]
        split <;> simp [h.logicSet, h.depth, h.verdict, h.terminated]
    | _ => simp [State.commit, h.logicSet, h.depth, h.verdict, h.terminated]
  obtain ⟨hlogic, hdepth, hverdict, hterminated⟩ := hcontrol
  refine ⟨hlogic, hdepth, hverdict, hterminated, ?_, fun key hkey => ?_⟩
  · rw [version_commit, version_commit, h.version]
  · rw [get?_commit _ _ _ false, get?_commit _ _ _ false, h.version, h.options key hkey]

theorem closed (h : Alike a b) : Alike a.closed b.closed :=
  { h with terminated := rfl }

theorem sent (h : Alike a b) (command : Command) : Alike (a.sent command) (b.sent command) := by
  unfold State.sent
  split
  · exact h.closed
  · exact h

theorem committable (h : Alike a b) (relax : Bool) (exchange : Exchange) :
    Alike (a.committable relax exchange) (b.committable relax exchange) := by
  unfold State.committable
  obtain heq | ⟨answer, answer', hanswer, hanswer'⟩ := h.plan_cases relax exchange.command
  · rw [heq]
    split
    · exact h.commit _ _
    · exact h
  · rw [hanswer, hanswer']
    exact h

/-- States that are alike stay alike. -/
theorem follow (h : Alike a b) (relax : Bool) (exchange : Exchange) :
    Alike (a.follow relax exchange) (b.follow relax exchange) := by
  have hbase := h.committable relax exchange
  have hpassed : Alike (a.passed relax exchange) (b.passed relax exchange) := by
    unfold State.passed
    cases exchange.outcome with
    | answered response => exact hbase.commit exchange.command response
    | rejected => exact hbase.sent exchange.command
    | lost => exact hbase.closed
    | refused => exact h
  unfold State.follow
  rw [h.terminated]
  split
  · exact h
  · obtain heq | ⟨answer, answer', hanswer, hanswer'⟩ := h.plan_cases relax exchange.command
    · rw [heq]
      split
      · exact h
      · exact hpassed
    · rw [hanswer, hanswer']
      exact hpassed

theorem through (h : Alike a b) (relax : Bool) (exchanges : List Exchange) :
    Alike (a.through relax exchanges) (b.through relax exchanges) := by
  induction exchanges generalizing a b with
  | nil => exact h
  | cons exchange later ih => exact ih (h.follow relax exchange)

end Alike

end State

/-! ## The verbosity -/

/-- The verbosity that a command brings about when it is answered, if it replaces it. -/
def Command.verbosity? : Command → Option AttributeValue
  | .setOption key value => if key = .verbosity then some value else none
  | .reset => some (.numeral 0)
  | _ => none

/-- The verbosity that an exchange brings about, if it replaces it. -/
def Exchange.verbosity? (exchange : Exchange) : Option AttributeValue :=
  match exchange.outcome with
  | .answered _ => exchange.command.verbosity?
  | _ => none

namespace State

/-- The verbosity that some exchanges bring about, if one of them replaces it.  The last one that
does so counts, and none does so any more once the session is over. -/
def replaced? (relax : Bool) : State → List Exchange → Option AttributeValue
  | _, [] => none
  | state, exchange :: later =>
    (replaced? relax (state.follow relax exchange) later).or
      (if state.terminated then none else exchange.verbosity?)

variable {a b state : State} {relax : Bool} {exchange : Exchange}

theorem plan_setOption_verbosity (state : State) (relax : Bool) (value : AttributeValue) :
    state.plan relax (.setOption .verbosity value) = .ok (.send .success) := by
  rw [plan, planOption, if_neg fun hbroken => absurd hbroken.1 (by decide),
    if_neg fun hbroken => absurd hbroken.2 (by decide), if_neg (by decide), if_neg (by decide)]

/-- The setting of the verbosity is never refused, and neither is a reset. -/
theorem verbosity?_of_refused {command : Command} {broken : Violation}
    (h : state.plan relax command = .error broken) : command.verbosity? = none := by
  cases command with
  | setOption key value =>
      refine if_neg ?_
      rintro rfl
      rw [plan_setOption_verbosity] at h
      cases h
  | reset => cases h
  | _ => rfl

theorem get?_verbosity_commit (state : State) (command : Command) (response : Response) :
    (state.commit command response).options.get? .verbosity =
      command.verbosity?.or (state.options.get? .verbosity) := by
  rw [get?_commit _ _ _ false]
  cases command with
  | setOption key value =>
      have hname : Keyword.verbosity.SameOption state.options.version key ↔ key = .verbosity := by
        rw [← Options.canonical_eq_iff, eq_comm, Options.canonical_eq_iff,
          Options.sameOption_verbosity]
      have hsame : Keyword.verbosity.SameOption state.options.version key ∧
          key ∉ unsupportedOptions ↔ key = .verbosity := by
        rw [hname]
        exact and_iff_left_of_imp fun hkey => hkey ▸ by decide
      rw [Turn.recall_setOption, if_congr hsame rfl rfl]
      show _ = Option.or (if key = .verbosity then some value else none) _
      split <;> rfl
  | _ => rfl

theorem options_committable (state : State) (relax : Bool) (exchange : Exchange) :
    (state.committable relax exchange).options = state.options := by
  unfold committable
  split
  · rw [commit]
    split <;> rfl
  · rfl

/-- **What an exchange does to the verbosity.** -/
theorem get?_verbosity_follow (state : State) (relax : Bool) (exchange : Exchange) :
    (state.follow relax exchange).options.get? .verbosity =
      (if state.terminated then none else exchange.verbosity?).or
        (state.options.get? .verbosity) := by
  have hbase := state.options_committable relax exchange
  unfold follow
  split
  · rfl
  · unfold Exchange.verbosity?
    cases hplan : state.plan relax exchange.command with
    | error broken =>
        rw [verbosity?_of_refused hplan]
        cases exchange.outcome <;> rfl
    | ok plan =>
        dsimp only [passed]
        cases exchange.outcome with
        | answered response => rw [get?_verbosity_commit, hbase]
        | rejected => rw [options_sent, hbase, Option.none_or]
        | lost => exact congrArg (·.get? .verbosity) hbase
        | refused => rfl

theorem get?_verbosity_through (state : State) (relax : Bool) (exchanges : List Exchange) :
    (state.through relax exchanges).options.get? .verbosity =
      (state.replaced? relax exchanges).or (state.options.get? .verbosity) := by
  induction exchanges generalizing state with
  | nil => rfl
  | cons exchange later ih =>
      rw [replaced?, Option.or_assoc, ← get?_verbosity_follow]
      exact ih (state.follow relax exchange)

/-- In states that are alike, the same exchanges replace the verbosity. -/
theorem Alike.replaced?_eq (h : Alike a b) (exchanges : List Exchange) :
    a.replaced? relax exchanges = b.replaced? relax exchanges := by
  induction exchanges generalizing a b with
  | nil => rfl
  | cons exchange later ih => rw [replaced?, replaced?, h.terminated, ih (h.follow relax exchange)]

/-- A session without verbosity starts with the options that every session knows. -/
theorem configured_silent (config : Config) :
    Options.configured { config with verbosity := 0 } = .initial config.version := by
  rw [Options.configured]
  cases config.version <;> rfl

theorem alike_initial (config : Config) (verbosity : Nat) :
    Alike (.initial { config with verbosity }) (.initial config) where
  logicSet := rfl
  depth := rfl
  verdict := rfl
  terminated := rfl
  version := rfl
  options key hkey := by
    show (Options.configured _).get? key = (Options.configured _).get? key
    simp only [Options.get?_configured, recalled, unsetValue, hkey, false_and, if_false]

theorem get?_verbosity_initial (config : Config) :
    (initial config).options.get? .verbosity = some (.numeral config.verbosity) :=
  Options.get?_configured config

end State

/-! ## Sessions -/

namespace Session

variable {σ : Type} {host : Host σ} {config : Config} {turns : List Turn} {session : Session σ}
  {command : Command}

/-- The execution of a command, as an exchange. -/
def exchange (host : Host σ) (command : Command) (session : Session σ) (outcome : Outcome) :
    Exchange where
  command := command
  popped := session.popped? host command
  outcome := outcome

theorem committable_exchange (outcome : Outcome) :
    session.state.committable session.config.relax (session.exchange host command outcome) =
      session.base host command := by
  unfold State.committable base exchange
  cases hpopped : session.popped? host command with
  | none =>
      split
      · next hsome => cases hsome
      · rfl
  | some response =>
      by_cases hreopen : ∃ levels,
          session.state.plan session.config.relax command = .ok (.reopen levels)
      · obtain ⟨levels, hplan⟩ := hreopen
        obtain ⟨-, -, rfl, -⟩ := State.reopen_of_plan hplan
        simp only [hplan]
      · rw [popped?_of_not_reopen (by simpa using hreopen)] at hpopped
        cases hpopped

/-- What a session does with a command is an exchange, as far as the state is concerned. -/
theorem exists_follow (host : Host σ) (command : Command) (session : Session σ) :
    ∃ outcome, (session.after host command).state =
      session.state.follow session.config.relax (session.exchange host command outcome) := by
  cases hended : session.state.terminated with
  | true =>
      refine ⟨.refused, ?_⟩
      rw [after_eq_ended, execute_of_terminated hended, State.follow, if_pos hended]
      rfl
  | false =>
      cases hplan : session.state.plan session.config.relax command with
      | error broken =>
          refine ⟨.refused, ?_⟩
          rw [after_eq_ended, execute_of_broken hended hplan, State.follow, exchange, hplan]
          simp [hended, ended]
      | ok plan =>
          have hpassed (outcome : Outcome) : session.state.follow session.config.relax
              (session.exchange host command outcome) =
                session.state.passed session.config.relax
                  (session.exchange host command outcome) := by
            simp only [State.follow, exchange, hended, hplan, Bool.false_eq_true, if_false]
          have hmoves := moves host command session
          simp only [hpassed]
          generalize (session.turn host command).answer = answer,
            (session.after host command).state = state at hmoves
          cases hmoves with
          | kept hpopped => exact ⟨.refused, rfl⟩
          | @committed plan response hrunning hplan =>
              refine ⟨.answered response, ?_⟩
              rw [State.passed, committable_exchange]
              rfl
          | settled hrunning =>
              refine ⟨.rejected, ?_⟩
              rw [State.passed, committable_exchange]
              rfl
          | closed hrunning =>
              refine ⟨.lost, ?_⟩
              rw [State.passed, committable_exchange]
              rfl

theorem config_after (host : Host σ) (command : Command) (session : Session σ) :
    (session.after host command).config = session.config := by
  have hkept : KeptByHost host fun after => after.config = session.config :=
    keptByHost_of_apart fun _ _ _ h => h
  rw [after_eq_ended]
  exact keeps_execute hkept (fun _ _ _ h => h) command session rfl

/-- What a session does with some commands is a sequence of exchanges. -/
theorem exists_through (host : Host σ) (commands : List Command) (session : Session σ) :
    ∃ exchanges : List Exchange, exchanges.map Exchange.command = commands ∧
      (session.through host (commands.map .execute)).state =
        session.state.through session.config.relax exchanges := by
  induction commands generalizing session with
  | nil => exact ⟨[], rfl, rfl⟩
  | cons command later ih =>
      obtain ⟨outcome, hstate⟩ := exists_follow host command session
      obtain ⟨exchanges, rfl, hlater⟩ := ih (session.after host command)
      refine ⟨session.exchange host command outcome :: exchanges, rfl, ?_⟩
      rw [config_after, hstate] at hlater
      rw [List.map_cons, through_cons, following, ← after_eq_ended]
      exact hlater

/-- An accepted reset puts everything back, and keeps nothing of the configuration but the
version. -/
theorem Run.state_of_reset (hrun : Run host config turns session) {response : Response}
    {after : Session σ} (h : execute host .reset session = .ok response after) :
    after.state = .initial { config with verbosity := 0 } := by
  obtain ⟨hrunning, -, hstate⟩ := execute_ok h
  have hbase : session.base host .reset = session.state :=
    base_of_not_popped (popped?_of_ne (by simp))
  rw [hstate, hbase, State.initial, State.configured_silent, ← hrun.sound.version_eq]
  simp only [State.commit, hrunning]

/-- **A reset brings a session back to where it started**, with the verbosity zero.  Whatever
exchanges follow, its state and that of a session which has just started differ in nothing but the
verbosity: the same commands are let pass, and the verbosity is the same again once one of the
exchanges has replaced it.  What the session does with commands after the reset are such
exchanges. -/
theorem reset_restarts (hrun : Run host config turns session) {response : Response}
    {after : Session σ} (h : execute host .reset session = .ok response after) :
    after.state = .initial { config with verbosity := 0 } ∧
      (∀ relax exchanges,
        State.Alike (after.state.through relax exchanges)
          ((State.initial config).through relax exchanges) ∧
        (∀ command, command ≠ .getOption .verbosity →
          (after.state.through relax exchanges).plan relax command =
            ((State.initial config).through relax exchanges).plan relax command) ∧
        (after.state.through relax exchanges).options.get? .verbosity =
          ((State.initial config).replaced? relax exchanges).or (some (.numeral 0)) ∧
        ((State.initial config).through relax exchanges).options.get? .verbosity =
          ((State.initial config).replaced? relax exchanges).or
            (some (.numeral config.verbosity))) ∧
      ∀ commands : List Command, ∃ exchanges : List Exchange,
        exchanges.map Exchange.command = commands ∧
          (after.through host (commands.map .execute)).state =
            after.state.through after.config.relax exchanges := by
  have hstate := hrun.state_of_reset h
  have halike : State.Alike after.state (.initial config) :=
    hstate ▸ State.alike_initial config 0
  have hsilent : after.state.options.get? .verbosity = some (.numeral 0) := by
    rw [hstate, State.get?_verbosity_initial]
  refine ⟨hstate, fun relax exchanges => ?_, fun commands => exists_through host commands after⟩
  have hthrough := halike.through relax exchanges
  refine ⟨hthrough, fun command => hthrough.plan_eq, ?_, ?_⟩
  · rw [State.get?_verbosity_through, halike.replaced?_eq, hsilent]
  · rw [State.get?_verbosity_through, State.get?_verbosity_initial]

/-- A session in which the logic is set is reset, and then the verbosity is set. -/
theorem reset_restarts_logic :
    ∃ turns, ∃ session after : Session Script, Run .scripted { verbosity := 2 } turns session ∧
      session.state.logicSet ∧
      (∃ response, execute .scripted .reset session = .ok response after) ∧
      after.state = .initial {} ∧
      State.Alike
        (after.state.through false [⟨.setOption .verbosity (.numeral 5), none, .answered .success⟩])
        ((State.initial { verbosity := 2 }).through false
          [⟨.setOption .verbosity (.numeral 5), none, .answered .success⟩]) := by
  have hrun : ∃ turns, ∃ session : Session Script,
      Run .scripted { verbosity := 2 } turns session ∧ session.state.logicSet ∧
        (session.turn .scripted .reset).answer.isSome := by
    have hstart : start .scripted { verbosity := 2 } ({} : Script) = .ok _ _ := rfl
    exact ⟨_, _, (Run.start hstart).turn (.setLogic ⟨"QF_LIA"⟩), by decide +kernel,
      by decide +kernel⟩
  obtain ⟨turns, session, hrun, hlogic, hanswered⟩ := hrun
  obtain ⟨response, hreset⟩ := exists_of_answered hanswered
  obtain ⟨hstate, halike, -⟩ := reset_restarts hrun hreset
  exact ⟨turns, session, _, hrun, hlogic, ⟨response, hreset⟩, hstate, (halike false _).1⟩

/-- The configured verbosity does not survive a reset. -/
theorem reset_forgets_verbosity :
    ∃ session after : Session Script, Run .scripted { verbosity := 2 } [] session ∧
      (∃ response, execute .scripted .reset session = .ok response after) ∧
      after.state.options.get? .verbosity = some (.numeral 0) ∧
      (State.initial { verbosity := 2 }).options.get? .verbosity = some (.numeral 2) := by
  have hstart : start .scripted { verbosity := 2 } ({} : Script) = .ok _ _ := rfl
  refine ⟨_, _, .start hstart, exists_of_answered ?_, ?_, ?_⟩ <;> decide +kernel

end Session

end SmtSession
