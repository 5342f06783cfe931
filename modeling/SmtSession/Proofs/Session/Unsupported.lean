import SmtSession.Host.Scripted
import SmtSession.Proofs.SExpr.RoundTrip
import SmtSession.Proofs.Session.Execution
import SmtSession.Proofs.Term.Encoding

/-!
# Commands that the solver does not support

A solver may answer `unsupported` where an acknowledgement is expected.  It has
not done what the command asks for, but what is recorded of a command does not
depend on that: the answer is a response like any other, and the session goes
into the state that an acknowledgement leads to (`Session.execute_unsupported`).
Only the two options that are answered without the solver are left out of the
record.
-/

namespace SmtSession.Session

variable {σ : Type} {host : Host σ} {command : Command} {session prepared : Session σ}

/-- Preparing a command leaves the state and the decoder alone. -/
theorem state_of_prepare (h : prepare host command session = .ok () prepared) :
    prepared.state = session.state ∧ prepared.decoder = session.decoder := by
  have hprepared := Session.prepared host command (session.recording [])
  have hforget := forgets_prepare host command (session.recording [])
  rw [forget_recording, h] at hforget
  cases hrun : prepare host.recorded command (session.recording []) with
  | ok done recorded =>
      rw [hrun] at hprepared hforget
      cases hforget
      cases hprepared with
      | done => exact ⟨rfl, rfl⟩
  | error error recorded => simp [hrun, forgetResult] at hforget

/-- What the solver answers to a command that it is to acknowledge is the response, if it can be
read. -/
theorem deliver_of_decode {text reply : String} {world : σ} {response : Response}
    (hexit : command ≠ .exit) (hcheck : command ≠ .checkSat)
    (htext : translate .z3 (.command command) = .ok text)
    (hsend : host.send text session.world = (.ok reply, world))
    (hreply : session.decoder.decode reply .success = .ok response) :
    deliver host command .success session = .ok response { session with world } := by
  have htransmit : transmit host text session = .ok reply { session with world } := by
    simp only [transmit, bind_apply, onWorld, hsend]
    rfl
  simp only [deliver, htext]
  split
  · exact absurd rfl hexit
  · exact absurd rfl hcheck
  · simp only [bind_apply, htransmit, get_apply, hreply]
    rfl
  · simp only [bind_apply, htransmit, decode_apply, hreply]

/-- **An unsupported command is recorded as if it had been acknowledged.** -/
theorem execute_unsupported (host : Host σ) (command : Command) (session prepared : Session σ)
    {text reply : String} {world : σ}
    (hrunning : session.state.terminated = false)
    (hplan : session.state.plan session.config.relax command = .ok (.send .success))
    (hexit : command ≠ .exit) (hprepare : prepare host command session = .ok () prepared)
    (htext : translate .z3 (.command command) = .ok text)
    (hsend : host.send text prepared.world = (.ok reply, world))
    (hreply : session.decoder.decode reply .success = .ok .unsupported) :
    ∃ after, execute host command session = .ok .unsupported after ∧
      after.state = session.state.commit command .success := by
  obtain ⟨hstate, hdecoder⟩ := state_of_prepare hprepare
  have hcheck : command ≠ .checkSat := by
    rintro rfl
    exact absurd (State.requireLogic_bind hplan).2 (by simp [pure, Except.pure])
  have hdeliver := deliver_of_decode hexit hcheck htext hsend (hdecoder ▸ hreply)
  -- only a check looks at its response when it is committed
  have hcommit : session.state.commit command .unsupported =
      session.state.commit command .success := by
    cases command with
    | checkSat => exact absurd rfl hcheck
    | _ => rfl
  refine ⟨{ prepared with world, state := session.state.commit command .unsupported }, ?_, hcommit⟩
  simp only [execute, bind_apply, get_apply, hrunning, hplan, hprepare, perform, hdeliver,
    Bool.false_eq_true, if_false]
  rw [← hstate]
  rfl

/-- Models are taken to be produced by a solver that cannot produce any. -/
theorem execute_unsupported_option :
    ∃ session after : Session Script, session.state.options.enabled .produceModels = false ∧
      execute .scripted (.setOption .produceModels (.symbol ⟨"true"⟩)) session =
        .ok .unsupported after ∧ after.state.options.enabled .produceModels := by
  have hlaid : Laid false (SExpr.named "unsupported").tokens "unsupported\n".toList :=
    .word (.ident "unsupported") rfl (.nil (.blank rfl .nil))
  obtain ⟨tree, hparse, htree⟩ := parseText_of_laid hlaid (by decide)
  have hname : tree.isName "unsupported" := by simp [Tree.isName_of_named htree]
  have hnormal : normalize "unsupported\n" = "unsupported\n" := by decide +kernel
  have hreport : isErrorReport "unsupported\n" = false := by decide +kernel
  have hreply : Decoder.decode ⟨1, false⟩ "unsupported\n" .success = .ok .unsupported := by
    simp [Decoder.decode, hnormal, hreport, hparse, hname]
  let session : Session Script :=
    ⟨{}, .initial {}, ⟨1, false⟩, .stdout, .stderr, { replies := [.ok "unsupported\n"] }⟩
  obtain ⟨after, hafter, hstate⟩ := execute_unsupported .scripted
    (.setOption .produceModels (.symbol ⟨"true"⟩)) session session rfl rfl (by simp) rfl rfl rfl
    hreply
  exact ⟨session, after, rfl, hafter, by rw [hstate]; decide⟩

/-- Two levels are counted that do not exist. -/
theorem execute_unsupported_push : ∃ session after : Session Script,
    session.state.plan session.config.relax (.push 2) = .ok (.send .success) ∧
      execute .scripted (.push 2) session = .ok .unsupported after ∧
      session.state.depth = 1 ∧ after.state.depth = 3 := by
  have hdepth : (match execute .scripted (.push 2)
      ⟨{}, { State.initial {} with logicSet := true, depth := 1 }, ⟨1, false⟩, .stdout, .stderr,
        { replies := [.ok "unsupported\n"] }⟩ with
      | .ok .unsupported after => some after.state.depth
      | _ => none) = some 3 := by
    decide +kernel
  split at hdepth
  · next after hrun => exact ⟨_, after, rfl, hrun, rfl, Option.some.inj hdepth⟩
  · simp at hdepth

end SmtSession.Session
