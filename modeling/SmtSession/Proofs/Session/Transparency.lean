import SmtSession.Proofs.Session.Answering

/-!
# Calls that leave no trace

A query changes nothing that later calls depend on, and neither does a call that
is refused.  So such calls may be deleted from a run, with the replies they have
consumed: what remains is answered, handed over and recorded as before
(`Session.trace_thinned`).

## Strategy

Two facts about a single call make up the argument: a transparent call changes
the session only in the script that is left (`after_of_transparent`), and a call
that consumes the same replies does the same (`execute_withScript`).  What may be
deleted is an inductive relation along the run (`Thinned`), so the theorem is by
induction on it.
-/

namespace SmtSession

/-! ## Calls that may be deleted -/

/-- Whether a command asks for something or notes something, and does nothing else. -/
def Command.isQuery : Command → Bool
  | .getOption _ => true
  | .getInfo _ => true
  | .getModel => true
  | .getProof => true
  | .getValue _ => true
  | .getUnsatCore => true
  | .getAssignment => true
  | .getAssertions => true
  | .echo _ => true
  | .setInfo _ _ => true
  | _ => false

theorem State.commit_query (state : State) {command : Command} (hquery : command.isQuery)
    (response : Response) : state.commit command response = state := by
  cases command <;> first | rfl | simp [Command.isQuery] at hquery

/-- Whether the error says that a command was refused before anything was sent. -/
def SessionError.isRefusal : SessionError → Bool
  | .violation _ => true
  | .untranslatable _ => true
  | .channel _ _ => true
  | _ => false

/-- Whether a call with the given result leaves no trace: a command that was refused, and a query
unless the solver was lost. -/
def Command.isTransparent (command : Command) : Except SessionError Response → Bool
  | .ok _ => command.isQuery
  | .error (.reply _) => command.isQuery
  | .error error => error.isRefusal

namespace Session

variable {σ : Type} {host : Host σ} {command : Command} {session after : Session σ}
  {error : SessionError}

/-! ### Refusals -/

theorem prepare_eq_pure (hlogic : ∀ logic, command ≠ .setLogic logic)
    (hoption : ∀ key value, command ≠ .setOption key value) :
    prepare host command = pure () := by
  unfold prepare
  split
  · next logic => exact absurd rfl (hlogic logic)
  · next key value => exact absurd rfl (hoption key value)
  · rfl

/-- Logics and options are written for every solver, so what is refused is another command. -/
theorem prepare_of_untranslatable {refused : RefusedString}
    (htext : translate .z3 (.command command) = .error refused) :
    prepare host command = pure () := by
  refine prepare_eq_pure ?_ ?_
  · rintro logic rfl
    obtain ⟨text, htranslate⟩ := exists_translate_setLogic .z3 logic
    simp [htranslate] at htext
  · rintro key value rfl
    obtain ⟨text, htranslate⟩ := exists_translate_setOption .z3 key value
    simp [htranslate] at htext

/-- What is refused while it is delivered cannot be written for the solver. -/
theorem deliver_refused {shape : ReplyShape}
    (h : deliver host command shape session = .error error after) (hrefusal : error.isRefusal) :
    after = session ∧ ∃ refused, translate .z3 (.command command) = .error refused := by
  have hdelivered := delivered host command shape (session.recording [])
  have hforget := Forgets.of_matches (matches_deliver host.extends_recorded command shape)
    (session.recording [])
  rw [forget_recording, h] at hforget
  generalize deliver host.recorded command shape (session.recording []) = result
    at hdelivered hforget
  cases hdelivered with
  | untranslatable htext =>
      cases hforget
      exact ⟨rfl, _, htext⟩
  | answered => cases hforget
  | rejected =>
      cases hforget
      simp [SessionError.isRefusal] at hrefusal
  | lost =>
      cases hforget
      simp [SessionError.isRefusal] at hrefusal
  | died =>
      cases hforget
      simp [SessionError.isRefusal] at hrefusal

theorem perform_refused {plan : Plan} {prepared : Session σ}
    (hplan : session.state.plan session.config.relax command = .ok plan)
    (h : perform host command plan prepared = .error error after) (hrefusal : error.isRefusal) :
    after = prepared ∧ ∃ refused, translate .z3 (.command command) = .error refused := by
  cases plan with
  | answer response => cases h
  | send shape => exact deliver_refused h hrefusal
  | reopen levels =>
      -- neither the pop nor the setting of the logic is refused
      obtain ⟨⟨logic, rfl⟩, -⟩ := State.reopen_of_plan hplan
      obtain ⟨text, htext⟩ := exists_translate_setLogic .z3 logic
      obtain ⟨text', htext'⟩ := exists_translate_pop .z3 levels
      rw [perform, bind_apply] at h
      cases hpop : deliver host (.pop levels) .success prepared with
      | ok popped popping =>
          rw [hpop] at h
          have hlogic : deliver host (.setLogic logic) .success
              { popping with state := popping.state.commit (.pop levels) popped } =
                .error error after := h
          obtain ⟨-, refused, hrefused⟩ := deliver_refused hlogic hrefusal
          simp [htext] at hrefused
      | error cause failed =>
          rw [hpop] at h
          cases h
          obtain ⟨-, refused, hrefused⟩ := deliver_refused hpop hrefusal
          simp [htext'] at hrefused

/-- Only a channel that cannot be opened keeps a command from being prepared. -/
theorem ensures_prepare_failed (hopen : host.toOutputs.FailsCleanly) :
    Ensures (· = session) (prepare host command) (fun _ _ => True) (fun _ after => after = session)
    := by
  have hchannel (name : String) : Ensures (· = session) (openChannel host name) (fun _ _ => True)
      (fun _ after => after = session) := by
    unfold openChannel
    cases Channel.ofName name with
    | stdout => exact .pure fun _ _ => trivial
    | stderr => exact .pure fun _ _ => trivial
    | file path =>
        have hfile : Ensures (· = session) (onWorld (host.openFile path))
            (fun result after => ∀ failure, result = .error failure → after = session)
            (fun _ after => after = session) := by
          rintro before rfl failure hfailure
          show { before with world := _ } = before
          rw [hopen path before.world failure hfailure]
        refine .bind hfile fun result => ?_
        cases result with
        | ok opened => exact .pure fun _ _ => trivial
        | error failure => exact .throw fun _ hafter => hafter failure rfl
  have hapart : KeptByOutputs host fun _ => True :=
    ⟨fun _ _ _ => trivial, fun _ _ _ _ => trivial⟩
  unfold prepare
  split
  · exact fun before _ => ensures_diagnose hapart _ before trivial
  · split
    · exact .bind (hchannel _) fun channel => fun _ _ => trivial
    · split
      · exact .bind (hchannel _) fun channel => fun _ _ => trivial
      · exact .pure fun _ _ => trivial
  · exact .pure fun _ _ => trivial

/-- A command that is refused changes nothing. -/
theorem execute_refused (hopen : host.toOutputs.FailsCleanly)
    (h : execute host command session = .error error after) (hrefusal : error.isRefusal) :
    after = session := by
  cases hended : session.state.terminated with
  | true =>
      rw [execute_of_terminated hended] at h
      cases h
      rfl
  | false =>
      cases hplan : session.state.plan session.config.relax command with
      | error broken =>
          rw [execute_of_broken hended hplan] at h
          cases h
          rfl
      | ok plan =>
          have hprepare : Meets (fun _ _ => True) (fun _ after => after = session)
              (prepare host command session) := ensures_prepare_failed hopen session rfl
          rw [execute_of_plan hended hplan, bind_apply] at h
          cases hprepared : prepare host command session with
          | error cause failed =>
              rw [hprepared] at h hprepare
              cases h
              exact hprepare
          | ok _ prepared =>
              rw [hprepared] at h
              cases hperform : perform host command plan prepared with
              | ok response performed =>
                  simp only [bind_apply, hperform] at h
                  cases h
              | error cause failed =>
                  simp only [bind_apply, hperform] at h
                  cases h
                  -- only sending is refused here, and nothing was done to prepare it
                  obtain ⟨rfl, refused, htext⟩ := perform_refused hplan hperform hrefusal
                  rw [prepare_of_untranslatable htext] at hprepared
                  cases hprepared
                  rfl

/-! ### Queries -/

section Queries

variable {session : Session (List Reply × σ)} {exhausted : Reply}

/-- The session is the given one, but for the replies that are left. -/
def UpToScript (session after : Session (List Reply × σ)) : Prop :=
  ∃ script, after = session.withScript script

/-- Until the solver is lost, a query takes replies and does nothing else. -/
theorem ensures_deliver_query (hquery : command.isQuery) (shape : ReplyShape) :
    Ensures session.UpToScript (deliver (host.answering exhausted) command shape)
      (fun _ => session.UpToScript)
      (fun error after => (∃ failure, error = .failure failure) ∨ session.UpToScript after) := by
  have hsend (text : String) : Keeps session.UpToScript
      (onWorld ((host.answering exhausted).send text)) := by
    rintro _ ⟨script, rfl⟩
    cases script with
    | nil => exact ⟨[], rfl⟩
    | cons reply script => exact ⟨script, rfl⟩
  have htransmit (text : String) : Ensures session.UpToScript
      (transmit (host.answering exhausted) text) (fun _ => session.UpToScript)
      (fun error after => (∃ failure, error = .failure failure) ∨ session.UpToScript after) := by
    refine .bind (hsend text).ensures_onWorld fun reply => ?_
    cases reply with
    | ok reply => exact .pure fun _ h => h
    | error failure => exact fun _ _ => .inl ⟨failure, rfl⟩
  unfold deliver
  cases translate .z3 (.command command) with
  | error refused => exact .throw fun _ h => .inr h
  | ok text =>
      dsimp only
      split
      · simp [Command.isQuery] at hquery
      · simp [Command.isQuery] at hquery
      · simp [Command.isQuery] at hquery
      · refine .bind (htransmit text) fun reply => ?_
        exact (keeps_decode reply shape).ensures.mono (fun _ _ h => h) fun _ _ h => .inr h

theorem ensures_execute_query (hquery : command.isQuery) :
    Ensures session.UpToScript (execute (host.answering exhausted) command)
      (fun _ => session.UpToScript)
      (fun error after => (∃ failure, error = .failure failure) ∨ session.UpToScript after) := by
  refine .get fun before hbefore => ?_
  split
  · exact .inr hbefore
  · split
    · exact .inr hbefore
    · next plan hplan =>
      have hprepare : prepare (host.answering exhausted) command = pure () := by
        refine prepare_eq_pure ?_ ?_
        · rintro logic rfl
          simp [Command.isQuery] at hquery
        · rintro key value rfl
          simp [Command.isQuery] at hquery
      have hperform : Ensures session.UpToScript
          (perform (host.answering exhausted) command plan) (fun _ => session.UpToScript)
          (fun error after =>
            (∃ failure, error = .failure failure) ∨ session.UpToScript after) := by
        cases plan with
        | answer response => exact .pure fun _ h => h
        | send shape => exact ensures_deliver_query hquery shape
        | reopen levels =>
            obtain ⟨⟨logic, rfl⟩, -⟩ := State.reopen_of_plan hplan
            simp [Command.isQuery] at hquery
      have hcommit (response : Response) : Ensures session.UpToScript
          (commit command response >>= fun _ => pure response) (fun _ => session.UpToScript)
          (fun error after =>
            (∃ failure, error = .failure failure) ∨ session.UpToScript after) := by
        rintro after ⟨script, rfl⟩
        refine ⟨script, ?_⟩
        have hstate := State.commit_query (session.withScript script).state hquery response
        exact congrArg (fun state => { session.withScript script with state }) hstate
      rw [hprepare]
      exact (Ensures.pure fun _ h => h).bind (fun _ => hperform.bind hcommit) before hbefore

/-- **A transparent call changes the session only in the replies that are left.** -/
theorem after_of_transparent (hopen : host.toOutputs.FailsCleanly)
    (h : command.isTransparent (outcome (execute (host.answering exhausted) command session))) :
    session.UpToScript (session.after (host.answering exhausted) command) := by
  have hquery (hquery : command.isQuery) : Meets (fun _ => session.UpToScript)
      (fun error after => (∃ failure, error = .failure failure) ∨ session.UpToScript after)
      (execute (host.answering exhausted) command session) :=
    ensures_execute_query hquery session ⟨session.script, rfl⟩
  have hrefused {error : SessionError} {failed : Session (List Reply × σ)}
      (hrun : execute (host.answering exhausted) command session = .error error failed)
      (hrefusal : error.isRefusal) : session.UpToScript failed :=
    ⟨session.script, execute_refused hopen.answering hrun hrefusal⟩
  rw [after_eq_ended]
  cases hrun : execute (host.answering exhausted) command session with
  | ok response after =>
      rw [hrun] at h hquery
      exact hquery h
  | error error after =>
      rw [hrun] at h hquery
      cases error with
      | reply error => exact (hquery h).resolve_left (by simp)
      | violation broken => exact hrefused hrun rfl
      | untranslatable refused => exact hrefused hrun rfl
      | channel path failure => exact hrefused hrun rfl
      | failure failure => simp [outcome, Command.isTransparent, SessionError.isRefusal] at h
      | terminated => simp [outcome, Command.isTransparent, SessionError.isRefusal] at h

end Queries

/-! ## Runs from which calls are deleted -/

/-- Transparent calls are deleted from the run of some commands.  The relation says which commands
remain, which replies are left to them when those consumed by the deleted calls are taken out, and
what was observed of them in the run. -/
inductive Thinned (solver : Host (List Reply × σ)) : Session (List Reply × σ) → List Command →
    List Command → List Reply → List Observation → Prop
  | nil (session : Session (List Reply × σ)) : Thinned solver session [] [] session.script []
  | kept {session : Session (List Reply × σ)} {command : Command} {later remaining : List Command}
      {script : List Reply} {observed : List Observation} :
      Thinned solver (session.after solver command) later remaining script observed →
        Thinned solver session (command :: later) (command :: remaining)
          (session.consumed solver command ++ script) (session.observe solver command :: observed)
  | deleted {session : Session (List Reply × σ)} {command : Command}
      {later remaining : List Command} {script : List Reply} {observed : List Observation} :
      command.isTransparent (outcome (execute solver command session)) →
        Thinned solver (session.after solver command) later remaining script observed →
        Thinned solver session (command :: later) remaining script observed

section Thinned

variable {session : Session (List Reply × σ)} {commands remaining : List Command}
  {script : List Reply} {observed : List Observation} {exhausted : Reply}

/-- A script that is used up is left as it is. -/
theorem Thinned.script_eq_nil
    (h : Thinned (host.answering exhausted) session commands remaining script observed)
    (hempty : session.script = []) : script = [] := by
  induction h with
  | nil => exact hempty
  | kept _ ih =>
      obtain ⟨hconsumed, hafter⟩ := List.append_eq_nil_iff.mp (consumed_append.trans hempty)
      rw [hconsumed, ih hafter, List.append_nil]
  | deleted _ _ ih => exact ih (List.append_eq_nil_iff.mp (consumed_append.trans hempty)).2

/-- What was observed of the remaining calls is a part of what was observed in the run. -/
theorem Thinned.sublist {solver : Host (List Reply × σ)}
    (h : Thinned solver session commands remaining script observed) :
    observed.Sublist (session.trace solver commands) := by
  induction h with
  | nil => exact .slnil
  | kept _ ih => exact ih.cons_cons _
  | deleted _ _ ih => exact ih.cons _

/-- **Queries and refused commands are transparent.**  If such calls are deleted from a run, with
the replies they have consumed, then every remaining call gives the same result, asks the transport
for the same, and leaves the same state. -/
theorem trace_thinned (hopen : host.toOutputs.FailsCleanly)
    (h : Thinned (host.answering exhausted) session commands remaining script observed) :
    observed.Sublist (session.trace (host.answering exhausted) commands) ∧
      (session.withScript script).trace (host.answering exhausted) remaining = observed := by
  refine ⟨h.sublist, ?_⟩
  induction h with
  | nil => rfl
  | @kept session command later remaining script observed hlater ih =>
      obtain ⟨hobserve, hafter⟩ := execute_withScript hlater.script_eq_nil
      rw [trace, hobserve, hafter, ih]
  | @deleted session command later remaining script observed htransparent hlater ih =>
      obtain ⟨left, hafter⟩ := after_of_transparent hopen htransparent
      rw [hafter, withScript_withScript] at ih
      exact ih

/-- Between two checks, a query that is answered and a pop that is refused are deleted. -/
theorem trace_thinned_checks :
    ∃ session : Session (List Reply × Script), ∃ script observed,
      Thinned (Host.scripted.answering (.ok "success\n")) session
        [.setLogic ⟨"QF_LIA"⟩, .checkSat, .getInfo ⟨"reason-unknown"⟩, .pop 7, .checkSat]
        [.setLogic ⟨"QF_LIA"⟩, .checkSat, .checkSat] script observed ∧
      script = [.ok "success\n", .ok "unknown\n", .ok "sat\n"] ∧
      observed.map (·.state.verdict) = [none, some .unknown, some .sat] ∧
      (session.withScript script).trace (Host.scripted.answering (.ok "success\n"))
        [.setLogic ⟨"QF_LIA"⟩, .checkSat, .checkSat] = observed := by
  have hthinned : ∃ session : Session (List Reply × Script), ∃ script observed,
      Thinned (Host.scripted.answering (.ok "success\n")) session
        [.setLogic ⟨"QF_LIA"⟩, .checkSat, .getInfo ⟨"reason-unknown"⟩, .pop 7, .checkSat]
        [.setLogic ⟨"QF_LIA"⟩, .checkSat, .checkSat] script observed ∧
      script = [.ok "success\n", .ok "unknown\n", .ok "sat\n"] ∧
      observed.map (·.state.verdict) = [none, some .unknown, some .sat] :=
    ⟨⟨{}, .initial {}, ⟨1, false⟩, .stdout, .stderr,
        [.ok "success\n", .ok "unknown\n", .ok "(:reason-unknown memout)\n", .ok "sat\n"], {}⟩,
      _, _, .kept (.kept (.deleted (by decide +kernel) (.deleted (by decide +kernel)
        (.kept (.nil _))))), by decide +kernel, by decide +kernel⟩
  obtain ⟨session, script, observed, hthinned, hscript, hverdicts⟩ := hthinned
  exact ⟨session, script, observed, hthinned, hscript, hverdicts,
    (trace_thinned Host.failsCleanly_scripted hthinned).2⟩

end Thinned

end Session

end SmtSession
