import SmtSession.Host.Scripted
import SmtSession.Proofs.Command.Head
import SmtSession.Proofs.Session.Wire

/-!
# What the gate keeps back

A session never lets the solver stop acknowledging commands, sets nothing too
late, and leaves the information alone that the solver defines: such settings
are refused, or answered without the solver.  The gate looks at the keyword of
the command, and the solver at what it reads in the text.  These are one keyword
only where the keyword is one word, and there nothing gets past the gate
(`Session.gate_of_handed`).  Of a keyword that goes on after its first word, the
solver sees the first word and the gate does not.

## Strategy

A run keeps every text that it has handed over, with the state and the command
that it was handed over for.  One execution adds the texts of commands that are
planned to be sent, so what is known of them is what the plan has checked.
-/

namespace SmtSession

/-! ## Settings that are sent -/

namespace State

variable {state : State} {relax : Bool} {command sent : Command} {key : Keyword}

/-- What is sent for a command is the command itself, unless the logic is set again. -/
theorem plan_of_mem_sends (h : sent ∈ state.sends relax command)
    (hpop : ∀ levels, sent ≠ .pop levels) (hlogic : ∀ logic, sent ≠ .setLogic logic) :
    sent = command ∧ ∃ shape, state.plan relax command = .ok (.send shape) := by
  unfold sends at h
  split at h
  · next shape hplan => exact ⟨List.mem_singleton.mp h, shape, hplan⟩
  · next levels hplan =>
      obtain ⟨⟨logic, rfl⟩, -⟩ := reopen_of_plan hplan
      rcases List.mem_pair.mp h with rfl | rfl
      · exact absurd rfl (hpop levels)
      · exact absurd rfl (hlogic logic)
  · simp at h

/-- An option is set by the solver only if the gate lets it pass. -/
theorem setOption_of_mem_sends {value : AttributeValue}
    (h : .setOption key value ∈ state.sends relax command) :
    command = .setOption key value ∧ key ≠ .printSuccess ∧
      (state.logicSet → key ∉ beforeLogic) := by
  obtain ⟨rfl, shape, hplan⟩ := plan_of_mem_sends h (by simp) (by simp)
  simp only [plan, planOption] at hplan
  refine ⟨rfl, ?_, ?_⟩
  · rintro rfl
    split at hplan
    · simp at hplan
    · split at hplan
      · simp at hplan
      · split at hplan <;> simp at hplan
  · intro hset hbefore
    split at hplan
    · simp at hplan
    · rw [if_pos ⟨hset, hbefore⟩] at hplan
      simp at hplan

theorem setInfo_of_mem_sends {value : Option AttributeValue}
    (h : .setInfo key value ∈ state.sends relax command) :
    command = .setInfo key value ∧ key ∉ predefinedInfos := by
  obtain ⟨rfl, shape, hplan⟩ := plan_of_mem_sends h (by simp) (by simp)
  refine ⟨rfl, fun hdefined => ?_⟩
  simp [plan, hdefined] at hplan

end State

namespace Session

variable {σ : Type} {host : Host σ} {config : Config}

/-! ## Runs and what they hand over -/

/-- A text that was handed to the transport, with the state that the session was in and the command
that was executed. -/
structure Handover where
  state : State
  command : Command
  text : String
  deriving DecidableEq

/-- The solver reads the text as a list of the given name and keyword, and of whatever follows. -/
def Handover.Sets (handover : Handover) (name : String) (key : Keyword) : Prop :=
  ∃ items, (SExpr.list (.named name :: .atom (.keyword key) :: items)).ReadFrom handover.text

/-- Where the solver reads a setting, the command is one, of a keyword that begins in this way and
that was let pass. -/
structure Handover.Gated (handover : Handover) : Prop where
  option : ∀ read, handover.Sets "set-option" read → ∃ key value,
    handover.command = .setOption key value ∧ read = key.word ∧ key ≠ .printSuccess ∧
      (handover.state.logicSet → key ∉ State.beforeLogic)
  info : ∀ read, handover.Sets "set-info" read → ∃ key value,
    handover.command = .setInfo key value ∧ read = key.word ∧ key ∉ State.predefinedInfos

/-- The texts that are handed over while a command is executed. -/
def handovers (host : Host σ) (command : Command) (session : Session σ) : List Handover :=
  ((session.calls host command).filterMap Call.handed?).map (⟨session.state, command, ·⟩)

/-- A run of executions: what was handed over after the preamble, and the session that has been
reached. -/
inductive Handovers (host : Host σ) (config : Config) : List Handover → Session σ → Prop
  | start {world world' : σ} {session : Session σ}
      (hstart : start host config world = .ok session world') : Handovers host config [] session
  | execute {handed : List Handover} {session : Session σ}
      (h : Handovers host config handed session) (command : Command) :
      Handovers host config (handed ++ session.handovers host command) (session.after host command)

/-- A text that is handed over is that of a command that is planned to be sent. -/
theorem exists_sends_of_handover {command : Command} {session : Session σ} {handover : Handover}
    (h : handover ∈ session.handovers host command) :
    handover.state = session.state ∧ handover.command = command ∧
      ∃ sent ∈ session.state.sends session.config.relax command,
        translate .z3 (.command sent) = .ok handover.text := by
  obtain ⟨text, htext, rfl⟩ := List.mem_map.mp h
  obtain ⟨sent, hsent, htranslate⟩ := (spell_sentCommands command session).exists_of_mem htext
  exact ⟨rfl, rfl, sent, List.mem_of_mem_take hsent, htranslate⟩

/-- **What an execution hands over has passed the gate.** -/
theorem gated_handovers (command : Command) (session : Session σ) :
    ∀ handover ∈ session.handovers host command, handover.Gated := by
  intro handover hmem
  obtain ⟨hstate, hcommand, sent, hsent, htext⟩ := exists_sends_of_handover hmem
  constructor
  · rintro read ⟨items, hread⟩
    have hname := Command.name_of_readFrom htext hread
    cases sent with
    | setOption key value =>
        obtain ⟨rfl, hgate⟩ := State.setOption_of_mem_sends hsent
        exact ⟨key, value, hcommand, Command.word_of_readFrom rfl htext hread, hstate ▸ hgate⟩
    | _ => simp [Command.name] at hname
  · rintro read ⟨items, hread⟩
    have hname := Command.name_of_readFrom htext hread
    cases sent with
    | setInfo key value =>
        obtain ⟨rfl, hgate⟩ := State.setInfo_of_mem_sends hsent
        -- the keyword comes first, whether there is a value or not
        obtain ⟨parts, hparts⟩ : ∃ parts,
            (Command.setInfo key value).arguments .z3 = key.marks :: parts := by
          cases value <;> exact ⟨_, rfl⟩
        exact ⟨key, value, hcommand, Command.word_of_readFrom hparts htext hread, hgate⟩
    | _ => simp [Command.name] at hname

/-- **Whatever a run hands over has passed the gate.** -/
theorem Handovers.gated {handed : List Handover} {session : Session σ}
    (h : Handovers host config handed session) : ∀ handover ∈ handed, handover.Gated := by
  induction h with
  | start hstart => simp
  | execute _ command ih => exact List.forall_mem_append.mpr ⟨ih, gated_handovers command _⟩

/-- **Keywords that are one word do not get past the gate.**  The solver is not told to stop
acknowledging, to set an option when it is too late, or to replace what it defines itself, unless
the name of the keyword goes on after the word that the solver reads. -/
theorem gate_of_handed {handed : List Handover} {session : Session σ}
    (h : Handovers host config handed session) : ∀ handover ∈ handed, ∀ read : Keyword,
      (handover.Sets "set-option" read → ∃ key value,
        handover.command = .setOption key value ∧ read = key.word ∧
          key ≠ .printSuccess ∧ (handover.state.logicSet → key ∉ State.beforeLogic) ∧
          (key.isLexical → read ≠ .printSuccess ∧
            (handover.state.logicSet → read ∉ State.beforeLogic))) ∧
      (handover.Sets "set-info" read → ∃ key value,
        handover.command = .setInfo key value ∧ read = key.word ∧
          key ∉ State.predefinedInfos ∧ (key.isLexical → read ∉ State.predefinedInfos)) := by
  intro handover hmem read
  have hgated := h.gated handover hmem
  constructor
  · intro hsets
    obtain ⟨key, value, hcommand, hread, hprint, hbefore⟩ := hgated.option read hsets
    refine ⟨key, value, hcommand, hread, hprint, hbefore, ?_⟩
    intro hlexical
    rw [hread, Keyword.word_of_isLexical hlexical]
    exact ⟨hprint, hbefore⟩
  · intro hsets
    obtain ⟨key, value, hcommand, hread, hdefined⟩ := hgated.info read hsets
    refine ⟨key, value, hcommand, hread, hdefined, ?_⟩
    intro hlexical
    rwa [hread, Keyword.word_of_isLexical hlexical]

/-- A seed may be set after the logic. -/
theorem gate_of_handed_seed : ∃ handed, ∃ session : Session Script,
    Handovers .scripted {} handed session ∧ ∃ handover ∈ handed, handover.state.logicSet ∧
      handover.Sets "set-option" ⟨"random-seed"⟩ ∧ ∃ key value,
        handover.command = .setOption key value ∧ ⟨"random-seed"⟩ = key.word ∧
          key ∉ State.beforeLogic := by
  let handover : Handover := ⟨{ State.initial {} with logicSet := true, depth := 1 },
    .setOption ⟨"random-seed"⟩ (.numeral 5), "(set-option :random-seed 5)"⟩
  have hrun : ∃ handed, ∃ session : Session Script,
      Handovers .scripted {} handed session ∧ handover ∈ handed := by
    have hstart : start .scripted {} ({} : Script) = .ok _ _ := rfl
    exact ⟨_, _, ((Handovers.start hstart).execute (.setLogic ⟨"QF_LIA"⟩)).execute
      (.setOption ⟨"random-seed"⟩ (.numeral 5)), by decide +kernel⟩
  have hsets : handover.Sets "set-option" ⟨"random-seed"⟩ := by
    refine ⟨[.atom (.constant (.numeral 5))], ?_⟩
    rw [SExpr.readFrom_iff_items]
    decide +kernel
  obtain ⟨handed, session, hrun, hmem⟩ := hrun
  obtain ⟨key, value, hcommand, hread, -, hbefore, -⟩ :=
    (gate_of_handed hrun handover hmem ⟨"random-seed"⟩).1 hsets
  exact ⟨handed, session, hrun, handover, hmem, rfl, hsets, key, value, hcommand, hread,
    hbefore rfl⟩

/-- With a blank at the end of the keyword, acknowledgements are switched off. -/
theorem gate_of_handed_blank : ∃ handed, ∃ session : Session Script,
    Handovers .scripted {} handed session ∧ ∃ handover ∈ handed,
      handover.command = .setOption (.of ":print-success ") (.bool false) ∧
        handover.Sets "set-option" .printSuccess := by
  have hstart : start .scripted {} ({} : Script) = .ok _ _ := rfl
  refine ⟨_, _, (Handovers.start hstart).execute (.setOption (.of ":print-success ") (.bool false)),
    ⟨.initial {}, .setOption (.of ":print-success ") (.bool false),
      "(set-option :print-success  false)"⟩, by decide +kernel, rfl, [.named "false"], ?_⟩
  rw [SExpr.readFrom_iff_items]
  decide +kernel

end Session

end SmtSession
