import SmtSession.Host.Scripted
import SmtSession.Proofs.Session.Conversation
import SmtSession.Proofs.Session.Wire

/-!
# Line numbers in error reports

The solver counts the lines that it is sent, and the caller those that it has
written.  A decoder corrects the one to the other by a number of lines that it
is given when the session is opened, and that is never changed.  But the session
goes on writing lines of its own: whenever a logic is set again while levels are
open, it pops them first.  So the correction falls behind by one line with every
such pop, and it is right exactly as long as there has been none
(`Session.lineOffset_through`).

## Strategy

What a request hands over for an execution is known from
`Session.spell_sentCommands`: the texts of the commands that are planned to be
sent, of which the last one is what the caller has written.  That the pop before
it is handed over indeed, whatever comes of it, is a condition on the record
that everything after the pop keeps.
-/

namespace SmtSession

/-- The number of lines that some texts take in the stream. -/
def lineCount (texts : List String) : Nat :=
  (String.join (texts.map asLine)).toList.count '\n'

@[simp] theorem lineCount_nil : lineCount [] = 0 := rfl

/-- The text that the caller has written. -/
def Request.text? : Request → Option String
  | .execute command => (translate .z3 (.command command)).toOption
  | .comment text => some (commentText text)
  | .print _ => none

theorem lineCount_eq_one {text : String} (h : '\n' ∉ text.toList) : lineCount [text] = 1 := by
  have hlast : text.toList.getLast? ≠ some '\n' := fun hlast => h (List.mem_of_getLast? hlast)
  have hline : String.join [asLine text] = text ++ "\n" := by
    rw [asLine, if_neg hlast]
    simp [String.join]
  rw [lineCount, List.map_singleton, hline, String.toList_append, List.count_append,
    List.count_eq_zero.mpr h]
  rfl

/-- The text of a pop. -/
def popText (levels : Nat) : String :=
  "(pop " ++ levels.repr ++ ")"

theorem translate_pop (levels : Nat) :
    translate .z3 (.command (.pop levels)) = .ok (popText levels) :=
  rfl

theorem lineCount_popText (levels : Nat) : lineCount [popText levels] = 1 := by
  refine lineCount_eq_one ?_
  have hdigits : '\n' ∉ levels.repr.toList := by
    intro hmem
    have hdigit := (isDigits_iff.mp (isDigits_repr levels)).2 _ hmem
    simp [Char.isDigit] at hdigit
  simpa [popText] using hdigits

namespace Session

variable {σ : Type}

/-! ## Lines that the caller did not write -/

/-- The texts that are handed over for a request and that the caller did not write. -/
def ownTexts (host : Host σ) (session : Session σ) (request : Request) : List String :=
  (((session.events host request).map Event.call).filterMap Call.handed?).filter
    (request.text? ≠ some ·)

/-- The number of lines that a session writes by itself in the course of some requests. -/
def ownLines (host : Host σ) : Session σ → List Request → Nat
  | _, [] => 0
  | session, request :: later =>
    lineCount (session.ownTexts host request) + ownLines host (session.following host request) later

/-- The number of lines that are written when a session is opened. -/
def openingLines (host : Host σ) (config : Config) (world : σ) : Nat :=
  lineCount ((startCalls host config world).filterMap Call.handed?)

/-- Whether a request sets the logic again while levels are open. -/
def reopens (session : Session σ) : Request → Bool
  | .execute command =>
    !session.state.terminated &&
      match session.state.plan session.config.relax command with
      | .ok (.reopen _) => true
      | _ => false
  | _ => false

/-- How often the logic is set again while levels are open. -/
def reopenings (host : Host σ) : Session σ → List Request → Nat
  | _, [] => 0
  | session, request :: later =>
    (session.reopens request).toNat + reopenings host (session.following host request) later

variable {host : Host σ} {session : Session σ}

/-! ## The pop before a logic -/

/-- The call has been recorded. -/
def Recorded (call : Call) (session : Session (σ × List Call)) : Prop :=
  call ∈ session.world.2

theorem keptByHost_recorded (host : Host σ) (call : Call) :
    KeptByHost host.recorded (Recorded call) where
  openFile _ _ h := h
  write _ _ _ h := h
  send _ _ h := List.mem_append_left _ h
  isAlive _ _ h := List.mem_append_left _ h
  terminate _ h := List.mem_append_left _ h
  modifyState _ _ h := h

theorem ensures_recorded_pop (host : Host σ) (levels : Nat) :
    Ensures (fun _ => True) (deliver host.recorded (.pop levels) .success)
      (fun _ => Recorded (.send (popText levels)))
      (fun _ => Recorded (.send (popText levels))) := by
  have htransmit : Ensures (fun _ => True) (transmit host.recorded (popText levels))
      (fun _ => Recorded (.send (popText levels)))
      (fun _ => Recorded (.send (popText levels))) := by
    intro session _
    rw [transmit_recorded]
    rcases host.send (popText levels) session.world.1 with ⟨failure | reply, world⟩
    · exact List.mem_append_right _ (List.mem_singleton_self _)
    · exact List.mem_append_right _ (List.mem_singleton_self _)
  exact .bind htransmit fun reply => (keeps_decode reply .success).ensures

/-- The pop before a logic is handed over, whatever comes of it and of the logic. -/
theorem send_popText_mem_calls {command : Command} {levels : Nat}
    (hrunning : session.state.terminated = false)
    (hplan : session.state.plan session.config.relax command = .ok (.reopen levels)) :
    .send (popText levels) ∈ session.calls host command := by
  obtain ⟨⟨logic, rfl⟩, -⟩ := State.reopen_of_plan hplan
  have hkept := keptByHost_recorded host (.send (popText levels))
  have hlogic : ∀ popped, Keeps (Recorded (.send (popText levels)))
      (do commit (.pop levels) popped; deliver host.recorded (.setLogic logic) .success) :=
    fun popped => .bind (hkept.modifyState _) fun _ => keeps_deliver hkept _ _
  have hcommit : ∀ response, Keeps (Recorded (.send (popText levels)))
      (do commit (.setLogic logic) response; return response : SessionM (σ × List Call) Response) :=
    fun response => .bind (hkept.modifyState _) fun _ => .pure _
  have hperform : Ensures (fun _ => True)
      (perform host.recorded (.setLogic logic) (.reopen levels))
      (fun _ => Recorded (.send (popText levels))) (fun _ => Recorded (.send (popText levels))) :=
    .bind (ensures_recorded_pop host levels) fun popped => (hlogic popped).ensures
  -- the logic is announced before anything is sent
  obtain ⟨world, hdiagnose⟩ := exists_diagnose_recorded host ("#set-logic " ++ logic.text)
    (session.recording [])
  have hmeets : Meets (fun _ => Recorded (.send (popText levels)))
      (fun _ => Recorded (.send (popText levels)))
      (execute host.recorded (.setLogic logic) (session.recording [])) := by
    have hrecording : (session.recording []).state.terminated = false := hrunning
    rw [execute_of_plan hrecording hplan]
    refine Meets.bind_ok hdiagnose ?_
    exact Ensures.bind hperform (fun response => (hcommit response).ensures) _ trivial
  rw [calls_eq_ended]
  exact hmeets.ended (fun _ _ h => h) fun _ _ h => h

/-! ## One request -/

theorem ownTexts_comment (text : String) : session.ownTexts host (.comment text) = [] := by
  have hcalls : (session.events host (.comment text)).map Event.call =
      session.commentCalls host text := map_call_events _
  rw [ownTexts, hcalls, commentCalls_eq]
  split <;> simp [Request.text?, Call.handed?]

theorem ownTexts_print (response : Response) : session.ownTexts host (.print response) = [] := by
  rw [ownTexts, events_print]
  rfl

/-- The texts of a command are what the caller has written. -/
theorem filter_text_of_spell {texts : List String} {commands : List Command} {command : Command}
    (h : Spell texts commands) (hcommands : ∀ sent ∈ commands, sent = command) :
    texts.filter ((Request.execute command).text? ≠ some ·) = [] := by
  rw [List.filter_eq_nil_iff]
  intro text hmem
  obtain ⟨sent, hsent, htext⟩ := h.exists_of_mem hmem
  rw [hcommands sent hsent] at htext
  simp [Request.text?, htext, Except.toOption]

theorem popText_ne_text {command : Command} {levels : Nat} (h : command.name ≠ "pop") :
    (Request.execute command).text? ≠ some (popText levels) := by
  intro htext
  cases htranslate : translate .z3 (.command command) with
  | error refused => simp [Request.text?, htranslate, Except.toOption] at htext
  | ok text =>
      rw [Request.text?, htranslate] at htext
      rw [Option.some.inj htext] at htranslate
      exact h (name_eq_of_translate htranslate (translate_pop levels))

theorem ownTexts_execute (command : Command) :
    session.ownTexts host (.execute command) =
      ((session.calls host command).filterMap Call.handed?).filter
        ((Request.execute command).text? ≠ some ·) := by
  have hcalls : (session.events host (.execute command)).map Event.call =
      session.calls host command := by
    rw [calls_eq_ended]
    exact map_call_events _
  rw [ownTexts, hcalls]

/-- When the logic is set again, the pop is the one text that the caller did not write. -/
theorem ownTexts_of_reopen {command : Command} {levels : Nat}
    (hrunning : session.state.terminated = false)
    (hplan : session.state.plan session.config.relax command = .ok (.reopen levels)) :
    session.ownTexts host (.execute command) = [popText levels] := by
  obtain ⟨⟨logic, rfl⟩, -⟩ := State.reopen_of_plan hplan
  have hhanded : popText levels ∈ (session.calls host (.setLogic logic)).filterMap Call.handed? :=
    List.mem_filterMap.mpr ⟨_, send_popText_mem_calls hrunning hplan, rfl⟩
  have hspell : Spell ((session.calls host (.setLogic logic)).filterMap Call.handed?)
      (session.sentCommands host (.setLogic logic)) := spell_sentCommands _ session
  have hprefix : session.sentCommands host (.setLogic logic) <+:
      [.pop levels, .setLogic logic] := by
    have hsends : session.state.sends session.config.relax (.setLogic logic) =
        [.pop levels, .setLogic logic] := by
      rw [State.sends, hplan]
    rw [← hsends]
    exact List.take_prefix _ _
  rw [ownTexts_execute]
  generalize (session.calls host (.setLogic logic)).filterMap Call.handed? = texts
    at hhanded hspell ⊢
  generalize session.sentCommands host (.setLogic logic) = sent at hspell hprefix
  -- something is handed over, so the first text is that of the pop
  cases hspell with
  | nil => simp at hhanded
  | @cons text first texts later htext hspell =>
      obtain ⟨rfl, hlater⟩ := List.cons_prefix_cons.mp hprefix
      have hpop : text = popText levels := Except.ok.inj (htext.symm.trans (translate_pop levels))
      have hrest : texts.filter ((Request.execute (.setLogic logic)).text? ≠ some ·) = [] :=
        filter_text_of_spell hspell fun sent hsent =>
          List.mem_singleton.mp (hlater.subset hsent)
      have hne : (Request.execute (.setLogic logic)).text? ≠ some (popText levels) :=
        popText_ne_text (by simp [Command.name])
      rw [hpop, List.filter_cons_of_pos (by simpa using hne), hrest]

theorem ownTexts_of_not_reopen {command : Command}
    (hplan : ∀ levels, session.state.plan session.config.relax command ≠ .ok (.reopen levels)) :
    session.ownTexts host (.execute command) = [] := by
  rw [ownTexts_execute]
  refine filter_text_of_spell (spell_sentCommands command session) fun sent hsent => ?_
  have hsends : sent ∈ session.state.sends session.config.relax command :=
    List.mem_of_mem_take hsent
  unfold State.sends at hsends
  split at hsends
  · exact List.mem_singleton.mp hsends
  · next levels hreopen => exact absurd hreopen (hplan levels)
  · simp at hsends

theorem ownTexts_of_terminated {command : Command} (h : session.state.terminated = true) :
    session.ownTexts host (.execute command) = [] := by
  rcases handed_calls host command session with hnone | ⟨hrunning, -⟩
  · rw [ownTexts_execute, hnone]
    rfl
  · simp [h] at hrunning

/-- A session writes a line of its own where it sets the logic again, and no other. -/
theorem lineCount_ownTexts (request : Request) :
    lineCount (session.ownTexts host request) = (session.reopens request).toNat := by
  cases request with
  | comment text => rw [ownTexts_comment]; rfl
  | print response => rw [ownTexts_print]; rfl
  | execute command =>
      cases hrunning : session.state.terminated with
      | true => simp [ownTexts_of_terminated hrunning, reopens, hrunning]
      | false =>
          by_cases hplan : ∃ levels,
              session.state.plan session.config.relax command = .ok (.reopen levels)
          · obtain ⟨levels, hplan⟩ := hplan
            simp [ownTexts_of_reopen hrunning hplan, reopens, hrunning, hplan, lineCount_popText]
          · have hnot : ∀ levels,
                session.state.plan session.config.relax command ≠ .ok (.reopen levels) := by
              simpa using hplan
            rw [ownTexts_of_not_reopen hnot, reopens]
            split
            · next levels hreopen => exact absurd hreopen (hnot levels)
            · simp

/-! ## Conversations -/

theorem ownLines_eq_reopenings (requests : List Request) :
    session.ownLines host requests = session.reopenings host requests := by
  induction requests generalizing session with
  | nil => rfl
  | cons request later ih => rw [ownLines, reopenings, lineCount_ownTexts, ih]

/-- What a decoder is told when the session is opened is never corrected. -/
theorem decoder_following (request : Request) :
    (session.following host request).decoder = session.decoder := by
  cases request with
  | execute command =>
      have hkept : KeptByHost host fun after => after.decoder = session.decoder :=
        keptByHost_of_apart fun _ _ _ h => h
      exact keeps_execute hkept (fun _ _ _ h => h) command session rfl
  | comment text =>
      obtain ⟨world, hworld⟩ := exists_ended_comment host session text
      rw [following, hworld]
  | print response =>
      obtain ⟨world, hworld⟩ := exists_ended_print host session response
      rw [following, hworld]

theorem openingLines_eq (config : Config) (world : σ) : openingLines host config world = 1 := by
  rw [openingLines, startCalls_eq]
  rfl

/-- **Line numbers are corrected by the lines that were written at the start.**  The session has
written one more for every time that it has set the logic again while levels were open. -/
theorem lineOffset_through {config : Config} {world world' : σ} {opened : Session σ}
    (hstart : start host config world = .ok opened world') (requests : List Request) :
    (opened.through host requests).decoder.lineOffset = 1 ∧
      openingLines host config world + opened.ownLines host requests =
        (opened.through host requests).decoder.lineOffset + opened.reopenings host requests := by
  have hdecoder : (opened.through host requests).decoder.lineOffset = 1 := by
    have hstep : ∀ (session : Session σ) request, session.decoder.lineOffset = 1 →
        (session.following host request).decoder.lineOffset = 1 := by
      intro session request h
      rw [decoder_following, h]
    obtain ⟨world, rfl⟩ := exists_of_start hstart
    exact holds_through host hstep rfl requests
  exact ⟨hdecoder, by rw [hdecoder, openingLines_eq, ownLines_eq_reopenings]⟩

/-- Without a pop the correction is right, whatever else is sent and whatever fails. -/
theorem lineOffset_through_pushed : ∃ (opened : Session Script) (requests : List Request),
    opened.reopenings .scripted requests = 0 ∧
      openingLines .scripted {} {} + opened.ownLines .scripted requests =
        (opened.through .scripted requests).decoder.lineOffset := by
  have hrun : ∃ (opened : Session Script) (world' : Script) (requests : List Request),
      start .scripted {} {} = .ok opened world' ∧ opened.reopenings .scripted requests = 0 :=
    ⟨_, _, [.execute (.setLogic ⟨"QF_LIA"⟩), .comment "two\nlines", .execute (.push 2),
      .execute (.setLogic ⟨"QF_BV"⟩)], rfl, by decide +kernel⟩
  obtain ⟨opened, world', requests, hstart, hreopenings⟩ := hrun
  have hlines := (lineOffset_through hstart requests).2
  rw [hreopenings] at hlines
  exact ⟨opened, requests, hreopenings, hlines⟩

/-- After a pop, the correction is behind by a line. -/
theorem lineOffset_through_popped : ∃ (opened : Session Script) (world' : Script)
    (requests : List Request), start .scripted { relax := true } {} = .ok opened world' ∧
      (opened.through .scripted requests).decoder.lineOffset = 1 ∧
      openingLines .scripted { relax := true } {} + opened.ownLines .scripted requests = 2 :=
  ⟨_, _, [.execute (.setLogic ⟨"QF_LIA"⟩), .execute (.setLogic ⟨"QF_BV"⟩)], rfl,
    by decide +kernel, by decide +kernel⟩

end Session

end SmtSession
