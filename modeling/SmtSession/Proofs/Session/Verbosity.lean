import SmtSession.Proofs.Session.Conversation
import SmtSession.Proofs.Session.Recall

/-!
# What a session writes about itself

A session that is verbose announces on its diagnostic channel the logic that it
is about to set, and its end; it writes nothing else about itself
(`Session.lines_eq`).

How verbose it is follows from the last setting of the verbosity, but not from
all of its numeral.  The level is the numeral up to a multiple of `2 ^ 64`, the
number of words of 64 bits (`Session.level_of_setting`).  So a numeral that is
such a multiple silences the session, however large it is, and among the numerals
between two multiples the larger ones have the higher levels.

## Strategy

What is written is what a host notes that keeps an account of it
(`Host.audited`).

* **Setting a logic** writes before anything is sent, while the command is
  prepared.
* **An exit** writes after it was sent, when the session is over but its options
  and channels are still those it had before.
* **All other commands** write nothing: they are prepared without an announcement
  and delivered without any output (`Session.keeps_execute_unannounced`).
-/

namespace SmtSession

variable {σ τ : Type}

/-! ## Keeping an account -/

/-- A text that is written, and where to. -/
abbrev Note := Channel × String

namespace Host

/-- The host that notes what is written, the latest text last. -/
def audited (host : Host σ) : Host (σ × List Note) where
  send text := onFirst (host.send text)
  sendNoWait text := onFirst (host.sendNoWait text)
  isAlive wait := onFirst (host.isAlive wait)
  terminate := onFirst host.terminate
  openFile path := onFirst (host.openFile path)
  write channel text := fun world =>
    let (result, first) := host.write channel text world.1
    (result, first, world.2 ++ [(channel, text)])

/-- The notes are not seen. -/
theorem extends_audited (host : Host σ) : host.audited.Extends Prod.fst host where
  send _ _ := rfl
  sendNoWait _ _ := rfl
  isAlive _ _ := rfl
  terminate _ := rfl
  openFile _ _ := rfl
  write _ _ _ := rfl

end Host

namespace Session

/-- The session with nothing noted. -/
def auditing (session : Session σ) : Session (σ × List Note) :=
  { session with world := (session.world, []) }

/-- What is written when a command is executed. -/
def lines (host : Host σ) (session : Session σ) (command : Command) : List Note :=
  (ended (execute host.audited command session.auditing)).world.2

/-- **Keeping an account changes nothing but the account.** -/
theorem viewed_audited (host : Host σ) (session : Session σ) (command : Command) :
    (ended (execute host.audited command session.auditing)).viewed Prod.fst =
      session.after host command := by
  rw [after_eq_ended]
  exact viewed_ended (matches_execute host.extends_audited command) session.auditing

/-! ## Lines -/

/-- What a session writes to tell a line about itself. -/
def told (session : Session σ) (line : String) : List Note :=
  if session.state.options.verbosity > 0 then [(session.diagnostic, line ++ "\n")] else []

end Session

/-- The line with which a command is announced. -/
def Command.announcement? : Command → Option String
  | .setLogic logic => some ("#set-logic " ++ logic.text)
  | .exit => some "Ended Z3 "
  | _ => none

namespace Session

/-- The line with which the session announces a command, if it lets the command pass. -/
def announcement? (session : Session σ) (command : Command) : Option String :=
  if session.state.terminated then none
  else
    match session.state.plan session.config.relax command with
    | .error _ => none
    | .ok _ => command.announcement?

section Lines

variable {host : Host σ} {notes : List Note} {command : Command}

/-- What is noted so far. -/
def Noted (notes : List Note) (session : Session (σ × List Note)) : Prop :=
  session.world.2 = notes

/-- What will be noted when the line is told. -/
def Owes (line : String) (notes : List Note) (session : Session (σ × List Note)) : Prop :=
  session.world.2 ++ session.told line = notes

theorem ensures_diagnose_owed {line : String} {failed : SessionError → Session _ → Prop} :
    Ensures (Owes line notes) (diagnose host.audited line) (fun _ => Noted notes) failed := by
  refine .get fun session howes => ?_
  unfold Owes told at howes
  split
  · next hverbose =>
    rw [if_pos hverbose] at howes
    exact howes
  · next hverbose =>
    rw [if_neg hverbose, List.append_nil] at howes
    exact howes

theorem keptByHost_noted (host : Host σ) (notes : List Note) :
    KeptByHost host.audited.muted (Noted notes) where
  openFile _ _ h := h
  write _ _ _ h := h
  send _ _ h := h
  isAlive _ _ h := h
  terminate _ h := h
  modifyState _ _ h := h

theorem keeps_commit_noted (response : Response) :
    Keeps (Noted notes)
      (commit command response >>= fun _ => pure response : SessionM (σ × List Note) Response) :=
  .bind (fun _ h => h) fun _ => .pure _

/-- Only a logic and an exit are announced. -/
theorem keeps_execute_unannounced (hlogic : ∀ logic, command ≠ .setLogic logic)
    (hexit : command ≠ .exit) : Keeps (Noted notes) (execute host.audited command) :=
  have hprepare : Ensures (Noted notes) (prepare host.audited command) (fun _ => Noted notes)
      (fun _ => Noted notes) :=
    ensures_prepare_unannounced (fun _ _ h => h) (fun _ _ _ h => h) (fun _ _ _ h => h) hlogic
  keeps_execute_of_parts hprepare.keeps (keeps_perform_muted (keptByHost_noted host notes) hexit)
    fun _ _ h => h

/-- A logic is announced before it is sent. -/
theorem ensures_announced_logic (logic : Symbol) (plan : Plan) :
    Ensures (Owes ("#set-logic " ++ logic.text) notes)
      (do
        prepare host.audited (.setLogic logic)
        let response ← perform host.audited (.setLogic logic) plan
        commit (.setLogic logic) response
        return response)
      (fun _ => Noted notes) (fun _ => Noted notes) :=
  .bind ensures_diagnose_owed fun _ =>
    (Keeps.bind (keeps_perform_muted (keptByHost_noted host notes) (by simp) plan)
      keeps_commit_noted).ensures

/-- The end of a session is announced when the session is over. -/
theorem ensures_leave_owed (host : Host σ) (text : String) :
    Ensures (Owes "Ended Z3 " notes) (leave host.audited text) (fun _ => Noted notes)
      (fun _ => Noted notes) := by
  have hsend : Keeps (Owes "Ended Z3 " notes) (onWorld (host.audited.send text)) := fun _ h => h
  refine .bind hsend.ensures_onWorld fun answered => .get fun session howes => ?_
  have hstop : Keeps (Owes "Ended Z3 " notes) (onWorld host.audited.terminate) := fun _ h => h
  have hclose : Ensures (Owes "Ended Z3 " notes)
      (modifyState ({ · with terminated := true } : State → State) : SessionM (σ × List Note) Unit)
      (fun _ => Owes "Ended Z3 " notes) (fun _ => Noted notes) := fun _ h => h
  refine Ensures.bind hstop.ensures_onWorld (fun _ => .bind hclose fun _ => ?_) session howes
  exact .bind ensures_diagnose_owed fun _ => (keeps_farewell answered session.decoder).ensures

theorem ensures_announced_exit :
    Ensures (Owes "Ended Z3 " notes)
      (do
        prepare host.audited .exit
        let response ← perform host.audited .exit (.send .success)
        commit .exit response
        return response)
      (fun _ => Noted notes) (fun _ => Noted notes) :=
  have hperform : Ensures (Owes "Ended Z3 " notes) (perform host.audited .exit (.send .success))
      (fun _ => Noted notes) (fun _ => Noted notes) :=
    ensures_leave_owed host "(exit)"
  .bind (.pure fun _ h => h) fun _ => .bind hperform fun response =>
    (keeps_commit_noted response).ensures

/-- **What a session writes about itself.**  It is the announcement of the command, if the command
is let pass and the session is verbose. -/
theorem lines_eq (host : Host σ) (session : Session σ) (command : Command) :
    session.lines host command = (session.announcement? command).elim [] session.told := by
  have hended : ∀ {notes : List Note}
      {result : EStateM.Result SessionError (Session (σ × List Note)) Response},
      Meets (fun _ => Noted notes) (fun _ => Noted notes) result → Noted notes (ended result) :=
    fun h => h.ended (fun _ _ h => h) fun _ _ h => h
  unfold lines announcement?
  cases hrunning : session.state.terminated with
  | true =>
      have hauditing : session.auditing.state.terminated = true := hrunning
      rw [execute_of_terminated hauditing]
      rfl
  | false =>
      have hauditing : session.auditing.state.terminated = false := hrunning
      cases hplan : session.state.plan session.config.relax command with
      | error broken =>
          rw [execute_of_broken hauditing hplan]
          rfl
      | ok plan =>
          cases command with
          | setLogic logic =>
              rw [execute_of_plan hauditing hplan]
              exact hended (ensures_announced_logic logic plan session.auditing rfl)
          | exit =>
              cases hplan
              rw [execute_of_plan hauditing rfl]
              exact hended (ensures_announced_exit session.auditing rfl)
          | _ =>
              exact keeps_execute_unannounced (by simp) (by simp) session.auditing rfl

end Lines

end Session

/-! ## Levels -/

theorem Options.verbosity_of_get? {options : Options} {n : Nat}
    (h : options.get? .verbosity = some (.numeral n)) : options.verbosity = n % UInt64.size := by
  rw [verbosity, h]
  rfl

/-- Up to the next multiple of the modulus, larger numbers have larger remainders. -/
theorem mod_le_mod_of_div_eq {n m k : Nat} (hblock : n / k = m / k) (hle : n ≤ m) :
    n % k ≤ m % k := by
  have hn : k * (n / k) + n % k = n := Nat.div_add_mod n k
  have hm : k * (m / k) + m % k = m := Nat.div_add_mod m k
  rw [← hblock] at hm
  omega

namespace Session

/-- The level is that of the last setting. -/
theorem Run.verbosity_eq {host : Host σ} {config : Config} {turns : List Turn}
    {session : Session σ} {n : Nat} (hrun : Run host config turns session)
    (hset : lastSetting? config.version .verbosity turns = some (.numeral n)) :
    session.state.options.verbosity = n % UInt64.size := by
  refine Options.verbosity_of_get? ?_
  rw [hrun.get?_eq_recalled, recalled, hset]
  rfl

/-- **The level is the numeral of the last setting, up to a multiple of `2 ^ 64`.**  While a setting
of the verbosity is the last one that was answered since the last reset, it decides how verbose the
session is.  The session tells nothing about itself if `2 ^ 64` divides the numeral, and announces
the commands that it lets pass otherwise.  Of two numerals between the same multiples of `2 ^ 64`,
the level of the larger one is not below that of the other. -/
theorem level_of_setting {host : Host σ} {host' : Host τ} {config config' : Config}
    {turns turns' : List Turn} {session : Session σ} {session' : Session τ} {n m : Nat}
    (hrun : Run host config turns session)
    (hset : lastSetting? config.version .verbosity turns = some (.numeral n))
    (hrun' : Run host' config' turns' session')
    (hset' : lastSetting? config'.version .verbosity turns' = some (.numeral m)) :
    session.state.options.verbosity = n % UInt64.size ∧
      (∀ command, session.lines host command =
        if UInt64.size ∣ n then []
        else ((session.announcement? command).map fun line =>
          (session.diagnostic, line ++ "\n")).toList) ∧
      (n / UInt64.size = m / UInt64.size → n ≤ m →
        session.state.options.verbosity ≤ session'.state.options.verbosity) := by
  have hlevel : session.state.options.verbosity = n % UInt64.size := hrun.verbosity_eq hset
  have hlevel' : session'.state.options.verbosity = m % UInt64.size := hrun'.verbosity_eq hset'
  refine ⟨hlevel, fun command => ?_, fun hblock hle => ?_⟩
  · have hsilent : session.state.options.verbosity > 0 ↔ ¬ UInt64.size ∣ n := by
      rw [hlevel, Nat.dvd_iff_mod_eq_zero]
      exact Nat.pos_iff_ne_zero
    rw [lines_eq]
    cases session.announcement? command with
    | none => simp
    | some line => simp [told, hsilent]
  · rw [hlevel, hlevel']
    exact mod_le_mod_of_div_eq hblock hle

/-- The numeral 3 lies below the first multiple, as 5 does. -/
theorem level_of_setting_small :
    ∃ turns turns', ∃ session session' : Session Script,
      Run .scripted {} turns session ∧ Run .scripted {} turns' session' ∧
      lastSetting? .v25 .verbosity turns = some (.numeral 3) ∧
      lastSetting? .v25 .verbosity turns' = some (.numeral 5) ∧
      session.state.options.verbosity = 3 ∧
      session.lines .scripted (.setLogic ⟨"QF_LIA"⟩) = [(.stderr, "#set-logic QF_LIA\n")] ∧
      session.lines .scripted .exit = [(.stderr, "Ended Z3 \n")] ∧
      session.state.options.verbosity ≤ session'.state.options.verbosity := by
  have hstart : start .scripted {} ({} : Script) = .ok _ _ := rfl
  have hrun := (Run.start hstart).turn (.setOption .verbosity (.numeral 3))
  have hrun' := ((Run.start hstart).turn (.setOption .verbosity (.numeral 2))).turn
    (.setOption .verbosity (.numeral 5))
  obtain ⟨hlevel, hlines, hle⟩ := level_of_setting (n := 3) (m := 5) hrun (by decide +kernel) hrun'
    (by decide +kernel)
  refine ⟨_, _, _, _, hrun, hrun', by decide +kernel, by decide +kernel, hlevel, ?_, ?_,
    hle rfl (by decide)⟩
  · rw [hlines]
    decide +kernel
  · rw [hlines]
    decide +kernel

/-- A numeral whose lowest 64 bits are clear: the session lets a logic pass and says nothing of
it. -/
theorem level_of_setting_large :
    ∃ turns, ∃ session : Session Script, Run .scripted {} turns session ∧
      lastSetting? .v25 .verbosity turns = some (.numeral UInt64.size) ∧
      session.state.options.verbosity = 0 ∧
      session.announcement? (.setLogic ⟨"QF_LIA"⟩) = some "#set-logic QF_LIA" ∧
      session.lines .scripted (.setLogic ⟨"QF_LIA"⟩) = [] := by
  have hstart : start .scripted {} ({} : Script) = .ok _ _ := rfl
  exact ⟨_, _, (Run.start hstart).turn (.setOption .verbosity (.numeral UInt64.size)),
    by decide +kernel, by decide +kernel, by decide +kernel, by decide +kernel⟩

end Session

end SmtSession
