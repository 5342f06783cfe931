import SmtSession.Proofs.Command.Encoding
import SmtSession.Proofs.SExpr.RoundTrip
import SmtSession.Proofs.Session.Asking
import SmtSession.Proofs.Session.Run

/-!
# What the solver is told

Everything that a session hands to its transport goes into one stream, text by
text, each on lines of its own (`wire`).  Read as S-expressions, this stream is
the preamble and the commands that were sent, and nothing else
(`Session.parseEach_wire`): a comment is a gap between them, whatever it says.

## Strategy

The stream is a layout of the tokens of these expressions, and this is kept by
every step of a dialogue.  What is handed over for a command is known from
`Session.handed_calls`; that nothing else is handed over with it, from
`Session.calls_of_execute`.
-/

namespace SmtSession

/-! ## The stream -/

/-- A text as it stands in the stream: with a line break at its end, if it has none. -/
def asLine (text : String) : String :=
  if text.toList.getLast? = some '\n' then text else text ++ "\n"

/-- The text that a call hands over, answered or not. -/
def Call.handed? : Call → Option String
  | .send text => some text
  | .sendNoWait text => some text
  | _ => none

/-- The texts that calls hand over, one after the other. -/
def wire (calls : List Call) : String :=
  String.join ((calls.filterMap Call.handed?).map asLine)

theorem wire_append (calls more : List Call) : wire (calls ++ more) = wire calls ++ wire more := by
  simp [wire, String.join_append]

/-! ## Comments -/

theorem Text.not_mem_of_mem_linesFrom {line chars : List Char} (hline : '\n' ∉ line) :
    ∀ text ∈ Text.linesFrom line chars, '\n' ∉ text.toList := by
  induction chars generalizing line with
  | nil =>
      unfold Text.linesFrom
      split
      · simp
      · simpa using hline
  | cons c chars ih =>
      unfold Text.linesFrom
      split
      · -- the line is over, without a carriage return that it may end with
        refine List.forall_mem_cons.mpr ⟨?_, ih (by simp)⟩
        have htail : '\n' ∉ line.tail := fun h => hline (List.mem_of_mem_tail h)
        rw [String.toList_ofList, List.mem_reverse]
        split
        · exact htail
        · exact hline
      · next hbreak => exact ih (by simpa [eq_comm, hbreak] using hline)

/-- The text of a comment: every line of it after a semicolon. -/
def commentText (text : String) : String :=
  "\n".intercalate ((Text.lines text).map ("; " ++ ·))

/-- Lines after semicolons are comments, and only a line break is missing at the end. -/
theorem gap_intercalate {lines : List String} (hlines : ∀ line ∈ lines, '\n' ∉ line.toList)
    (hne : lines ≠ []) :
    Gap (("\n".intercalate (lines.map ("; " ++ ·))).toList ++ ['\n']) ∧
      ("\n".intercalate (lines.map ("; " ++ ·))).toList.getLast? ≠ some '\n' := by
  induction lines with
  | nil => exact absurd rfl hne
  | cons line lines ih =>
      rw [List.forall_mem_cons] at hlines
      have hcomment : '\n' ∉ ' ' :: line.toList := by simpa using hlines.1
      cases lines with
      | nil =>
          refine ⟨by simpa using Gap.comment hcomment .nil, fun hlast => ?_⟩
          have hmem := List.mem_of_getLast? hlast
          simp [hlines.1] at hmem
      | cons next lines =>
          obtain ⟨hgap, hlast⟩ := ih hlines.2 (by simp)
          have htext : ("\n".intercalate ((line :: next :: lines).map ("; " ++ ·))).toList =
              ';' :: ' ' :: line.toList ++
                '\n' :: ("\n".intercalate ((next :: lines).map ("; " ++ ·))).toList := by
            simp [String.intercalate_cons_cons]
          have hne : ("\n".intercalate ((next :: lines).map ("; " ++ ·))).toList ≠ [] := by
            cases lines <;> simp [String.intercalate_cons_cons]
          rw [htext, List.append_assoc, List.getLast?_append_cons,
            List.getLast?_cons_of_ne_nil hne]
          exact ⟨.comment hcomment hgap, hlast⟩

/-- A comment in the stream is a gap. -/
theorem gap_comment (text : String) : Gap (asLine (commentText text)).toList := by
  have hlines : ∀ line ∈ Text.lines text, '\n' ∉ line.toList :=
    Text.not_mem_of_mem_linesFrom (by simp)
  unfold asLine commentText
  by_cases hne : Text.lines text = []
  · rw [hne]
    exact .blank rfl .nil
  · obtain ⟨hgap, hlast⟩ := gap_intercalate hlines hne
    rw [if_neg hlast]
    simpa using hgap

/-! ## Commands -/

/-- The text of a command in the stream is a layout of its list. -/
theorem Command.laid_asLine {command : Command} {text : String}
    (h : translate .z3 (.command command) = .ok text) :
    Laid true command.encode.tokens (asLine text).toList := by
  have hlaid : Laid true command.encode.tokens text.toList :=
    Laid.tighten rfl (laid_of_translate h)
  unfold asLine
  split
  · exact hlaid
  · have hbreak : Laid true [] ['\n'] := .nil (.blank rfl .nil)
    simpa using hlaid.append hbreak

/-- The texts of some commands in the stream are a layout of their lists. -/
theorem laid_join_of_spell {texts : List String} {commands : List Command}
    (h : Session.Spell texts commands) :
    Laid true (SExpr.tokensEach (commands.map Command.encode))
      (String.join (texts.map asLine)).toList := by
  induction h with
  | nil => exact .nil .nil
  | cons htext _ ih =>
      rw [List.map_cons, List.map_cons, SExpr.tokensEach, String.join_cons, String.toList_append]
      exact (Command.laid_asLine htext).append ih

theorem State.isLexical_of_mem_sends {state : State} {relax : Bool} {command sent : Command}
    (h : sent ∈ state.sends relax command) (hcommand : command.isLexical) : sent.isLexical := by
  unfold sends at h
  split at h
  · rw [List.mem_singleton] at h
    rwa [h]
  · rcases List.mem_pair.mp h with rfl | rfl
    · rfl
    · exact hcommand
  · simp at h

namespace Session

variable {σ : Type} (host : Host σ)

/-! ## Dialogues -/

/-- What the transport is asked for when a session is opened. -/
def startCalls (config : Config) (world : σ) : List Call :=
  match start host.recorded config (world, []) with
  | .ok session _ => session.world.2
  | .error _ world => world.2

/-- What the transport is asked for when a comment is sent. -/
def commentCalls (text : String) (session : Session σ) : List Call :=
  (ended (comment host.recorded text (session.recording []))).world.2

/-- The commands whose texts are handed over while a command is executed: as many of those that are
planned as there are texts. -/
def sentCommands (command : Command) (session : Session σ) : List Command :=
  (session.state.sends session.config.relax command).take
    ((session.calls host command).filterMap Call.handed?).length

/-- A run in which commands are executed and comments are sent: what the transport has been asked
for, the commands that were sent, and the session that has been reached. -/
inductive Dialogue (host : Host σ) (config : Config) :
    List Call → List Command → Session σ → Prop
  | start {world world' : σ} {session : Session σ}
      (hstart : start host config world = .ok session world') :
      Dialogue host config (startCalls host config world) [] session
  | execute {calls : List Call} {sent : List Command} {session : Session σ}
      (h : Dialogue host config calls sent session) (command : Command)
      (hlexical : command.isLexical) :
      Dialogue host config (calls ++ session.calls host command)
        (sent ++ session.sentCommands host command) (session.after host command)
  | comment {calls : List Call} {sent : List Command} {session : Session σ}
      (h : Dialogue host config calls sent session) (text : String) :
      Dialogue host config (calls ++ session.commentCalls host text) sent
        (ended (comment host text session))

theorem startCalls_eq (config : Config) (world : σ) :
    startCalls host config world = [.send preamble] := by
  have hsend : host.recorded.send preamble (world, []) =
      ((host.send preamble world).1, (host.send preamble world).2, [.send preamble]) := rfl
  simp only [startCalls, start, hsend]
  cases (host.send preamble world).1 with
  | error failure => rfl
  | ok reply =>
      dsimp only
      obtain ⟨written, hdiagnose⟩ := exists_diagnose_recorded host
        ("Started " ++ solverName ++ " ") ⟨config, .initial config, ⟨1, config.lenient⟩, .stdout,
          .stderr, ((host.send preamble world).2, [.send preamble])⟩
      rw [hdiagnose]
      rfl

theorem commentCalls_eq (text : String) (session : Session σ) :
    session.commentCalls host text =
      if session.state.terminated then [] else [.sendNoWait (commentText text)] := by
  unfold commentCalls comment
  rw [bind_apply, get_apply]
  dsimp only
  rw [state_recording]
  cases session.state.terminated <;> rfl

variable {host}

/-- An execution hands over the texts of the commands that it sends, and no other text. -/
theorem spell_sentCommands (command : Command) (session : Session σ) :
    Spell ((session.calls host command).filterMap Call.handed?)
      (session.sentCommands host command) := by
  have hexpected : Expected fun call => call.handed? = call.text? :=
    ⟨fun _ => rfl, fun _ => rfl, rfl⟩
  have htexts : (session.calls host command).filterMap Call.handed? =
      (session.calls host command).filterMap Call.text? :=
    List.filterMap_congr (calls_of_execute host hexpected command session)
  unfold sentCommands
  rw [htexts]
  rcases handed_calls host command session with hnone | ⟨-, sent, hprefix, hspell⟩
  · rw [hnone]
    exact .nil
  · rw [hspell.length_eq, ← List.prefix_iff_eq_take.mp hprefix]
    exact hspell

theorem isLexical_of_mem_sentCommands {command sent : Command} {session : Session σ}
    (h : sent ∈ session.sentCommands host command) (hcommand : command.isLexical) :
    sent.isLexical :=
  State.isLexical_of_mem_sends (List.mem_of_mem_take h) hcommand

/-- The text of the first command, which the session sends by itself. -/
theorem translate_preamble :
    translate .z3 (.command (.setOption .printSuccess (.bool true))) = .ok preamble := by
  rfl

theorem laid_sentCommands (command : Command) (session : Session σ) :
    Laid true (SExpr.tokensEach ((session.sentCommands host command).map Command.encode))
      (wire (session.calls host command)).toList :=
  laid_join_of_spell (spell_sentCommands command session)

theorem gap_commentCalls (text : String) (session : Session σ) :
    Gap (wire (session.commentCalls host text)).toList := by
  rw [commentCalls_eq]
  split
  · exact .nil
  · simpa [wire, Call.handed?, String.join_cons] using gap_comment text

namespace Dialogue

variable {config : Config} {calls : List Call} {sent : List Command} {session : Session σ}

theorem isLexical (h : Dialogue host config calls sent session) :
    ∀ command ∈ sent, command.isLexical := by
  induction h with
  | start hstart => simp
  | execute _ command hlexical ih =>
      exact List.forall_mem_append.mpr
        ⟨ih, fun _ hmem => isLexical_of_mem_sentCommands hmem hlexical⟩
  | comment _ text ih => exact ih

/-- Each step adds a layout of what it sends to the stream. -/
theorem laid (h : Dialogue host config calls sent session) :
    Laid true (SExpr.tokensEach
      ((.setOption .printSuccess (.bool true) :: sent).map Command.encode))
      (wire calls).toList := by
  induction h with
  | start hstart =>
      rw [startCalls_eq]
      exact laid_join_of_spell (.cons translate_preamble .nil)
  | execute _ command _ ih =>
      rw [wire_append, String.toList_append, ← List.cons_append, List.map_append,
        SExpr.tokensEach_eq_flatMap, List.flatMap_append, ← SExpr.tokensEach_eq_flatMap,
        ← SExpr.tokensEach_eq_flatMap]
      exact ih.append (laid_sentCommands command _)
  | comment _ text ih =>
      rw [wire_append, String.toList_append]
      simpa using ih.append (.nil (gap_commentCalls text _))

end Dialogue

/-- **The solver is told the commands that were sent, and nothing else.**  Read as S-expressions,
what was handed over is the preamble and these commands in order, without an error between
them. -/
theorem parseEach_wire {config : Config} {calls : List Call} {sent : List Command}
    {session : Session σ} (h : Dialogue host config calls sent session) :
    (parseEach (itemsOfText (wire calls))).map (Except.map Tree.sexpr) =
      (.setOption .printSuccess (.bool true) :: sent).map fun command => .ok command.encode := by
  have hlexical : ∀ expr ∈ (.setOption .printSuccess (.bool true) :: sent).map Command.encode,
      expr.isLexical := by
    have hcommands : ∀ command ∈ Command.setOption .printSuccess (.bool true) :: sent,
        command.isLexical :=
      List.forall_mem_cons.mpr ⟨by decide, h.isLexical⟩
    intro expr hexpr
    obtain ⟨command, hcommand, rfl⟩ := List.mem_map.mp hexpr
    exact Command.isLexical_encode (hcommands command hcommand)
  rw [parseEach_of_laid h.laid hlexical, List.map_map]
  rfl

/-- A comment of two lines, the second of which would open a list, between a logic and another. -/
theorem parseEach_wire_comment :
    (parseEach (itemsOfText ("(set-option :print-success true)\n(set-logic QF_LIA)\n; first\n" ++
        "; (\n(pop 1)\n(set-logic |a b|)\n"))).map (Except.map Tree.sexpr) =
      ([.setOption .printSuccess (.bool true), .setLogic ⟨"QF_LIA"⟩, .pop 1,
        .setLogic ⟨"a b"⟩] : List Command).map fun command => .ok command.encode := by
  have hdialogue : ∃ calls sent, ∃ session : Session Script,
      Dialogue .scripted { relax := true } calls sent session ∧
        wire calls = "(set-option :print-success true)\n(set-logic QF_LIA)\n; first\n" ++
          "; (\n(pop 1)\n(set-logic |a b|)\n" ∧
        sent = [.setLogic ⟨"QF_LIA"⟩, .pop 1, .setLogic ⟨"a b"⟩] := by
    have hstart : start .scripted { relax := true } ({} : Script) = .ok _ _ := rfl
    exact ⟨_, _, _, (((Dialogue.start hstart).execute (.setLogic ⟨"QF_LIA"⟩) (by decide)).comment
      "first\r\n(").execute (.setLogic ⟨"a b"⟩) (by decide),
      by decide +kernel, by decide +kernel⟩
  obtain ⟨calls, sent, session, hrun, hwire, hsent⟩ := hdialogue
  rw [← hwire, parseEach_wire hrun, hsent]

end Session

end SmtSession
