import Mathlib.Data.List.Forall2
import SmtSession.Proofs.Command.Text
import SmtSession.Proofs.Session.Delivery
import SmtSession.Proofs.Session.Plan

/-!
# How an execution ends

An execution has many points at which it can fail, and a relaxed setting of the
logic sends two texts.  This file says once, for every way in which an
execution can end, which state the session is left in and which texts the
transport was handed (`Session.Executed`, `Session.executed`).  Everything else
about executions follows from it by cases.

Only a relaxed setting of the logic commits twice.  The state it has reached
after its pop is the base of the second commit (`Session.base`); for all other
commands the base is the state before the execution.
-/

namespace SmtSession

namespace State

/-- An exit that succeeds says again that the session is over. -/
theorem commit_sent (state : State) (command : Command) (response : Response) :
    (state.sent command).commit command response = state.commit command response := by
  by_cases hexit : command = .exit
  · subst hexit
    rfl
  · rw [sent, if_neg hexit]

/-- The commands that are sent for a command, in order. -/
def sends (state : State) (relax : Bool) (command : Command) : List Command :=
  match state.plan relax command with
  | .ok (.send _) => [command]
  | .ok (.reopen levels) => [.pop levels, command]
  | _ => []

end State

namespace Session

variable {σ : Type}

/-! ## The base of an execution -/

/-- The response to the pop that a relaxed setting of the logic starts with, if it got one. -/
def popped? (host : Host σ) (command : Command) (session : Session σ) : Option Response :=
  if session.state.terminated then none
  else
    match session.state.plan session.config.relax command with
    | .ok (.reopen levels) =>
      match (prepare host command >>= fun _ => deliver host (.pop levels) .success) session with
      | .ok response _ => some response
      | .error _ _ => none
    | _ => none

/-- The state to which the execution of a command is committed. -/
def base (host : Host σ) (command : Command) (session : Session σ) : State :=
  match popped? host command session with
  | some response => session.state.commit (.pop session.state.depth) response
  | none => session.state

variable (host : Host σ)

section Base

variable {host} {command : Command} {session : Session σ} {levels : Nat}

theorem popped?_of_not_reopen
    (hplan : ∀ levels, session.state.plan session.config.relax command ≠ .ok (.reopen levels)) :
    session.popped? host command = none := by
  unfold popped?
  split
  · rfl
  · split
    · next levels hreopen => exact absurd hreopen (hplan levels)
    · rfl

theorem base_of_not_reopen
    (hplan : ∀ levels, session.state.plan session.config.relax command ≠ .ok (.reopen levels)) :
    session.base host command = session.state := by
  rw [base, popped?_of_not_reopen hplan]

/-- Only the setting of a logic that is set is preceded by a pop. -/
theorem setLogic_of_popped? {response : Response}
    (h : session.popped? host command = some response) :
    (∃ logic, command = .setLogic logic) ∧ session.state.logicSet ∧ 0 < session.state.depth := by
  by_cases hreopen : ∃ levels,
      session.state.plan session.config.relax command = .ok (.reopen levels)
  · obtain ⟨levels, hreopen⟩ := hreopen
    obtain ⟨hlogic, hset, -, hdepth⟩ := State.reopen_of_plan hreopen
    exact ⟨hlogic, hset, hdepth⟩
  · rw [popped?_of_not_reopen (by simpa using hreopen)] at h
    simp at h

theorem popped?_of_ne (hcommand : ∀ logic, command ≠ .setLogic logic) :
    session.popped? host command = none := by
  refine popped?_of_not_reopen fun levels hreopen => ?_
  obtain ⟨⟨logic, hlogic⟩, -⟩ := State.reopen_of_plan hreopen
  exact hcommand logic hlogic

theorem popped?_of_reopen (hrunning : session.state.terminated = false)
    (hplan : session.state.plan session.config.relax command = .ok (.reopen levels))
    {prepared : Session σ} (hprepare : prepare host command session = .ok () prepared) :
    session.popped? host command =
      match deliver host (.pop levels) .success prepared with
      | .ok response _ => some response
      | .error _ _ => none := by
  simp only [popped?, hrunning, hplan, bind_apply, hprepare]
  rfl

end Base

theorem popped?_recording (command : Command) (session : Session σ) (calls : List Call) :
    (session.recording calls).popped? host.recorded command = session.popped? host command := by
  have hforgets : ∀ levels, Forgets
      (prepare host.recorded command >>= fun _ => deliver host.recorded (.pop levels) .success)
      (prepare host command >>= fun _ => deliver host (.pop levels) .success) := fun levels =>
    .of_matches (.bind (matches_prepare host.extends_recorded command) fun _ =>
      matches_deliver host.extends_recorded (.pop levels) .success)
  unfold popped?
  rw [state_recording, config_recording]
  congr 1
  cases session.state.plan session.config.relax command with
  | error violation => rfl
  | ok plan =>
    cases plan with
    | send shape => rfl
    | answer response => rfl
    | reopen levels =>
      have hforget := hforgets levels (session.recording calls)
      rw [forget_recording] at hforget
      dsimp only
      rw [← hforget]
      cases (prepare host.recorded command >>=
        fun _ => deliver host.recorded (.pop levels) .success) (session.recording calls) <;> rfl

theorem base_recording (command : Command) (session : Session σ) (calls : List Call) :
    (session.recording calls).base host.recorded command = session.base host command := by
  simp only [base, popped?_recording, state_recording]

/-! ## Executing a command -/

/-- The texts are those of the commands, one by one. -/
abbrev Spell : List String → List Command → Prop :=
  List.Forall₂ fun text command => translate .z3 (.command command) = .ok text

/-- The texts that the calls hand over are those of the first of the given commands. -/
def Handed (commands : List Command) (calls : List Call) : Prop :=
  ∃ sent, sent <+: commands ∧ Spell (calls.filterMap Call.text?) sent

theorem Spell.exists_of_mem {texts : List String} {commands : List Command} {text : String}
    (h : Spell texts commands) (hmem : text ∈ texts) :
    ∃ command ∈ commands, translate .z3 (.command command) = .ok text := by
  induction h with
  | nil => simp at hmem
  | cons htext _ ih =>
      rcases List.mem_cons.mp hmem with rfl | hmem
      · exact ⟨_, List.mem_cons_self, htext⟩
      · obtain ⟨command, hcommand, htext⟩ := ih hmem
        exact ⟨command, List.mem_cons_of_mem _ hcommand, htext⟩

/-- **How an execution ends.**  The constructors are in the order in which it can fail. -/
inductive Executed (host : Host σ) (command : Command) (session : Session (σ × List Call)) :
    EStateM.Result SessionError (Session (σ × List Call)) Response → Prop
  | ended (hended : session.state.terminated) :
      Executed host command session (.error .terminated session)
  | broken {violation : Violation} (hrunning : session.state.terminated = false)
      (hplan : session.state.plan session.config.relax command = .error violation) :
      Executed host command session (.error (.violation violation) session)
  | unopened {path : String} {failure : Failure} {world : σ}
      (hrunning : session.state.terminated = false)
      (hset : ∃ key value, command = .setOption key value) :
      Executed host command session
        (.error (.channel path failure) (session.acted session.state world []))
  | untranslatable {refused : RefusedString} {world : σ}
      (hrunning : session.state.terminated = false)
      (htext : translate .z3 (.command command) = .error refused) :
      Executed host command session
        (.error (.untranslatable refused) (session.acted session.state world []))
  | completed {plan : Plan} {response : Response} {regular diagnostic : Channel} {world : σ}
      {calls : List Call} (hrunning : session.state.terminated = false)
      (hplan : session.state.plan session.config.relax command = .ok plan)
      (hcalls : Handed (session.state.sends session.config.relax command) calls) :
      Executed host command session
        (.ok response ((session.redirected regular diagnostic).acted
          ((session.base host.recorded command).commit command response) world calls))
  | rejected {error : DecodeError} {regular diagnostic : Channel} {world : σ} {calls : List Call}
      (hrunning : session.state.terminated = false)
      (hcalls : Handed (session.state.sends session.config.relax command) calls) :
      Executed host command session
        (.error (.reply error) ((session.redirected regular diagnostic).acted
          ((session.base host.recorded command).sent command) world calls))
  | lost {failure : Failure} {regular diagnostic : Channel} {world : σ} {calls : List Call}
      (hrunning : session.state.terminated = false)
      (hcalls : Handed (session.state.sends session.config.relax command) calls) :
      Executed host command session
        (.error (.failure failure) ((session.redirected regular diagnostic).acted
          (session.base host.recorded command).closed world calls))
  | died {regular diagnostic : Channel} {world : σ} {calls : List Call}
      (hrunning : session.state.terminated = false)
      (hcalls : Handed (session.state.sends session.config.relax command) calls) :
      Executed host command session
        (.error .terminated ((session.redirected regular diagnostic).acted
          (session.base host.recorded command).closed world calls))

/-- An action whose response is committed. -/
def committing (command : Command) (action : SessionM σ Response) : SessionM σ Response := do
  let response ← action
  commit command response
  return response

theorem committing_apply (command : Command) (action : SessionM σ Response) (session : Session σ) :
    committing command action session =
      match action session with
      | .ok response after =>
        .ok response { after with state := after.state.commit command response }
      | .error error after => .error error after := by
  rw [committing, bind_apply]
  cases action session <;> rfl

/-- The last command of an execution is delivered and committed.  The dialect can refuse it only if
nothing has happened before. -/
theorem executed_deliver {command : Command} {plan : Plan} {shape : ReplyShape}
    {session : Session (σ × List Call)} {regular diagnostic : Channel} {world : σ}
    {calls : List Call} {earlier : List Command} (hrunning : session.state.terminated = false)
    (hplan : session.state.plan session.config.relax command = .ok plan)
    (hsends : session.state.sends session.config.relax command = earlier ++ [command])
    (hearlier : Spell (calls.filterMap Call.text?) earlier)
    (hrefused : ∀ refused, translate .z3 (.command command) = .error refused →
      (session.redirected regular diagnostic).acted (session.base host.recorded command) world
        calls = session.acted session.state world []) :
    Executed host command session
      (committing command (deliver host.recorded command shape)
        ((session.redirected regular diagnostic).acted (session.base host.recorded command) world
          calls)) := by
  -- a text that is handed over is that of the command, and comes after the earlier ones
  have hhanded : ∀ {text more}, translate .z3 (.command command) = .ok text →
      more.filterMap Call.text? = [text] →
      Handed (session.state.sends session.config.relax command) (calls ++ more) := by
    intro text more htext hmore
    refine ⟨earlier ++ [command], hsends ▸ List.prefix_rfl, ?_⟩
    rw [List.filterMap_append, hmore]
    exact List.rel_append hearlier (.cons htext .nil)
  have hdelivered := delivered host command shape
    ((session.redirected regular diagnostic).acted (session.base host.recorded command) world calls)
  rw [committing_apply]
  cases hdeliver : deliver host.recorded command shape
      ((session.redirected regular diagnostic).acted (session.base host.recorded command) world
        calls) with
  | ok response after =>
      rw [hdeliver] at hdelivered
      cases hdelivered with
      | answered htext hcalls =>
          simp only [acted_acted, state_acted, State.commit_sent]
          exact .completed hrunning hplan (hhanded htext hcalls)
  | error error after =>
      rw [hdeliver] at hdelivered
      cases hdelivered with
      | untranslatable htext =>
          rw [hrefused _ htext]
          exact .untranslatable hrunning htext
      | rejected htext hcalls =>
          rw [acted_acted]
          exact .rejected hrunning (hhanded htext hcalls)
      | lost htext hcalls =>
          rw [acted_acted]
          exact .lost hrunning (hhanded htext hcalls)
      | died htext hcalls =>
          rw [acted_acted]
          exact .died hrunning (hhanded htext hcalls)

/-- A command for which one text is sent is delivered and committed, once it is prepared. -/
theorem executed_send {command : Command} {shape : ReplyShape}
    {session after : Session (σ × List Call)} (hrunning : session.state.terminated = false)
    (hplan : session.state.plan session.config.relax command = .ok (.send shape))
    (hprepared : Prepared command session (.ok () after)) :
    Executed host command session
      (committing command (deliver host.recorded command shape) after) := by
  have hbase : session.base host.recorded command = session.state :=
    base_of_not_reopen (by simp [hplan])
  have hsends : session.state.sends session.config.relax command = [] ++ [command] := by
    rw [State.sends, hplan]
    rfl
  cases hprepared with
  | @done regular diagnostic world hchannels =>
    rw [← hbase]
    refine executed_deliver host hrunning hplan hsends .nil ?_
    intro refused htext
    -- settings of options hold no terms, so a command that is refused has redirected nothing
    have hset : ∀ key value, command ≠ .setOption key value := by
      rintro key value rfl
      obtain ⟨text, htranslate⟩ := exists_translate_setOption .z3 key value
      rw [htranslate] at htext
      simp at htext
    obtain ⟨rfl, rfl⟩ := hchannels hset
    rw [hbase]
    rfl

section Reopen

variable {host} {logic : Symbol} {session : Session (σ × List Call)} {regular diagnostic : Channel}
  {world : σ} (hrunning : session.state.terminated = false)
  (hplan : session.state.plan session.config.relax (.setLogic logic) =
    .ok (.reopen session.state.depth))

include hrunning hplan

/-- After its pop, a relaxed setting of the logic is delivered like any other command. -/
theorem executed_popped {popped : Response} {popping : Session (σ × List Call)}
    (hbase : session.base host.recorded (.setLogic logic) =
      session.state.commit (.pop session.state.depth) popped)
    (hdelivered : Delivered (.pop session.state.depth)
      ((session.redirected regular diagnostic).acted session.state world [])
      (.ok popped popping)) :
    Executed host (.setLogic logic) session
      (committing (.setLogic logic) (deliver host.recorded (.setLogic logic) .success)
        { popping with state := popping.state.commit (.pop session.state.depth) popped }) := by
  have hsends : session.state.sends session.config.relax (.setLogic logic) =
      [.pop session.state.depth] ++ [.setLogic logic] := by
    rw [State.sends, hplan]
    rfl
  have htranslate : ∀ refused, translate .z3 (.command (.setLogic logic)) ≠ .error refused := by
    obtain ⟨text, htext⟩ := exists_translate_setLogic .z3 logic
    simp [htext]
  cases hdelivered with
  | @answered _ text world calls htext hcalls =>
    have hspell : Spell (calls.filterMap Call.text?) [.pop session.state.depth] :=
      hcalls ▸ .cons htext .nil
    simp only [acted_acted, state_acted, List.nil_append, State.sent, reduceCtorEq, if_false,
      ← hbase]
    exact executed_deliver host hrunning hplan hsends hspell
      fun refused hrefused => absurd hrefused (htranslate refused)

/-- If its pop fails, the setting of the logic fails in the same way, and has committed nothing. -/
theorem executed_unpopped {error : SessionError} {failed : Session (σ × List Call)}
    (hbase : session.base host.recorded (.setLogic logic) = session.state)
    (hdelivered : Delivered (.pop session.state.depth)
      ((session.redirected regular diagnostic).acted session.state world [])
      (.error error failed)) :
    Executed host (.setLogic logic) session (.error error failed) := by
  have hhanded : ∀ {text calls}, translate .z3 (.command (.pop session.state.depth)) = .ok text →
      calls.filterMap Call.text? = [text] →
      Handed (session.state.sends session.config.relax (.setLogic logic)) calls := by
    intro text calls htext hcalls
    refine ⟨[.pop session.state.depth], ?_, hcalls ▸ .cons htext .nil⟩
    rw [State.sends, hplan]
    exact List.prefix_append _ [_]
  cases hdelivered with
  | untranslatable hrefused =>
    obtain ⟨text, htranslate⟩ := exists_translate_pop .z3 session.state.depth
    rw [htranslate] at hrefused
    simp at hrefused
  | rejected htext hcalls =>
    simp only [acted_acted, List.nil_append, state_acted]
    rw [State.sent, if_neg (by simp), ← hbase]
    exact .rejected hrunning (hhanded htext hcalls)
  | lost htext hcalls =>
    simp only [acted_acted, List.nil_append, state_acted]
    rw [← hbase]
    exact .lost hrunning (hhanded htext hcalls)
  | died htext hcalls =>
    simp only [acted_acted, List.nil_append, state_acted]
    rw [← hbase]
    exact .died hrunning (hhanded htext hcalls)

/-- When the logic is set again, the pop comes first, and it is committed on its own. -/
theorem executed_reopen {after : Session (σ × List Call)}
    (hprepare : prepare host.recorded (.setLogic logic) session = .ok () after) :
    Executed host (.setLogic logic) session
      (committing (.setLogic logic)
        (perform host.recorded (.setLogic logic) (.reopen session.state.depth)) after) := by
  have hprepared := prepared host (.setLogic logic) session
  have hpopped := popped?_of_reopen hrunning hplan hprepare
  have hdelivered := delivered host (.pop session.state.depth) .success after
  rw [hprepare] at hprepared
  cases hprepared with
  | @done regular diagnostic world hchannels =>
    rw [committing_apply, perform, bind_apply]
    cases hdeliver : deliver host.recorded (.pop session.state.depth) .success
        ((session.redirected regular diagnostic).acted session.state world []) with
    | ok popped popping =>
      rw [hdeliver] at hpopped hdelivered
      have hexecuted := executed_popped hrunning hplan (by rw [base, hpopped]) hdelivered
      rw [committing_apply] at hexecuted
      exact hexecuted
    | error error failed =>
      rw [hdeliver] at hpopped hdelivered
      exact executed_unpopped hrunning hplan (by rw [base, hpopped]) hdelivered

end Reopen

/-- What is planned for a command is performed and committed, once the command is prepared. -/
theorem executed_perform {command : Command} {plan : Plan} {session after : Session (σ × List Call)}
    (hrunning : session.state.terminated = false)
    (hplan : session.state.plan session.config.relax command = .ok plan)
    (hprepare : prepare host.recorded command session = .ok () after) :
    Executed host command session
      (committing command (perform host.recorded command plan) after) := by
  have hprepared := prepared host command session
  rw [hprepare] at hprepared
  cases plan with
  | answer response =>
    have hbase : session.base host.recorded command = session.state :=
      base_of_not_reopen (by simp [hplan])
    cases hprepared with
    | done hchannels =>
      rw [← hbase]
      exact .completed hrunning hplan ⟨[], List.nil_prefix, .nil⟩
  | send shape => exact executed_send host hrunning hplan hprepared
  | reopen levels =>
    obtain ⟨⟨logic, rfl⟩, -, rfl, -⟩ := State.reopen_of_plan hplan
    exact executed_reopen hrunning hplan hprepare

/-- **Every execution ends in one of these ways.** -/
theorem executed (command : Command) (session : Session (σ × List Call)) :
    Executed host command session (execute host.recorded command session) := by
  rw [execute, bind_apply, get_apply]
  cases hrunning : session.state.terminated with
  | true =>
    simp only [hrunning, if_true]
    exact .ended hrunning
  | false =>
    cases hplan : session.state.plan session.config.relax command with
    | error violation =>
      simp only [hrunning, hplan]
      exact .broken hrunning hplan
    | ok plan =>
      simp only [hrunning, hplan, Bool.false_eq_true, if_false]
      rw [bind_apply]
      cases hprepare : prepare host.recorded command session with
      | error error after =>
        have hprepared := prepared host command session
        rw [hprepare] at hprepared
        cases hprepared with
        | unopened hset => exact .unopened hrunning hset
      | ok value after => exact executed_perform host hrunning hplan hprepare

/-! ## Executions of the host itself -/

section Plain

variable {host} {command : Command} {session after : Session σ}

/-- An execution that gives a response commits the command to the base. -/
theorem execute_ok {response : Response} (h : execute host command session = .ok response after) :
    session.state.terminated = false ∧
      (∃ plan, session.state.plan session.config.relax command = .ok plan) ∧
      after.state = (session.base host command).commit command response := by
  obtain ⟨recorded, hrun, hforget, -⟩ := exists_recorded_of_ok host command h
  have hexecuted := executed host command (session.recording [])
  rw [hrun] at hexecuted
  subst hforget
  cases hexecuted with
  | completed hrunning hplan hcalls =>
      refine ⟨hrunning, ⟨_, hplan⟩, ?_⟩
      rw [← base_recording host command session []]
      rfl

/-- What an execution asks for hands over the commands that are planned to be sent. -/
theorem handed_calls (host : Host σ) (command : Command) (session : Session σ) :
    session.calls host command = [] ∨ session.state.terminated = false ∧
      Handed (session.state.sends session.config.relax command) (session.calls host command) := by
  have hexecuted := executed host command (session.recording [])
  rw [calls]
  cases hrun : execute host.recorded command (session.recording []) with
  | ok response recorded =>
      rw [hrun] at hexecuted
      cases hexecuted with
      | completed hrunning hplan hcalls => exact .inr ⟨hrunning, hcalls⟩
  | error error recorded =>
      rw [hrun] at hexecuted
      cases hexecuted with
      | ended hended => exact .inl rfl
      | broken hrunning hplan => exact .inl rfl
      | unopened hrunning hset => exact .inl rfl
      | untranslatable hrunning htext => exact .inl rfl
      | rejected hrunning hcalls => exact .inr ⟨hrunning, hcalls⟩
      | lost hrunning hcalls => exact .inr ⟨hrunning, hcalls⟩
      | died hrunning hcalls => exact .inr ⟨hrunning, hcalls⟩

/-- A text that is handed over is that of the command, or that of the pop before it. -/
theorem handed_text {text : String} (h : .send text ∈ session.calls host command) :
    session.state.terminated = false ∧
      ((∃ plan, session.state.plan session.config.relax command = .ok plan) ∧
          translate .z3 (.command command) = .ok text ∨
        session.state.logicSet ∧ ∃ levels, translate .z3 (.command (.pop levels)) = .ok text) := by
  rcases handed_calls host command session with hnone | ⟨hrunning, sent, hprefix, hspell⟩
  · simp [hnone] at h
  · have hmem : text ∈ (session.calls host command).filterMap Call.text? :=
      List.mem_filterMap.mpr ⟨.send text, h, rfl⟩
    obtain ⟨command', hcommand', htext⟩ := hspell.exists_of_mem hmem
    refine ⟨hrunning, ?_⟩
    -- it is one of the commands that are planned to be sent
    have hsends := hprefix.subset hcommand'
    unfold State.sends at hsends
    split at hsends
    · next shape hplan =>
        rw [List.mem_singleton] at hsends
        subst hsends
        exact .inl ⟨⟨_, hplan⟩, htext⟩
    · next levels hplan =>
        rcases List.mem_pair.mp hsends with rfl | rfl
        · exact .inr ⟨(State.reopen_of_plan hplan).2.1, levels, htext⟩
        · exact .inl ⟨⟨_, hplan⟩, htext⟩
    · simp at hsends

end Plain

end Session

end SmtSession
