import Mathlib.Data.List.Induction
import SmtSession.Host.Scripted
import SmtSession.Proofs.Session.Conversation
import SmtSession.Proofs.Session.History

/-!
# Where the output goes

A session has two channels, and for each of them an option that names where it
goes.  The channel is opened before the setting of its option is sent, and the
option is recorded when the setting is answered.  So they part in two ways: a
setting that is sent and not answered has moved the channel all the same, and a
reset puts the options back and leaves the channels where they are.  In no other
way do they part (`Session.channels_through`).

## Strategy

What becomes of the option is known from the moves of an execution.  What becomes
of the channel is followed through the actions of a session: only the setting of
its option touches it.
-/

namespace SmtSession

/-! ## Two channels -/

/-- One of the two channels of a session. -/
inductive Outlet where
  | regular
  | diagnostic

namespace Outlet

/-- What belongs to the channel of two things. -/
def pick {α : Type} (regular diagnostic : α) : Outlet → α
  | .regular => regular
  | .diagnostic => diagnostic

/-- The option that names where the channel goes. -/
def key : Outlet → Keyword :=
  pick .regularOutputChannel .diagnosticOutputChannel

/-- Where the channel goes when a session is opened. -/
def standard : Outlet → String :=
  pick "stdout" "stderr"

/-- The command that sends the channel somewhere. -/
abbrev setting (outlet : Outlet) (name : String) : Command :=
  .setOption outlet.key (.string name)

theorem key_ne (outlet : Outlet) : outlet.key ≠ .interactiveMode ∧
    outlet.key ≠ .produceAssertions ∧ outlet.key ≠ .printSuccess ∧
    outlet.key ∉ State.beforeLogic ∧ outlet.key ∉ State.unsupportedOptions ∧
    outlet.key ≠ .verbosity := by
  cases outlet <;> decide

end Outlet

variable (outlet : Outlet)

namespace Options

variable {options : Options} {key : Keyword} {value : AttributeValue}

theorem get?_set_outlet : (options.set outlet.key value).get? outlet.key = some value := by
  rw [get?_set, if_pos rfl]

theorem get?_set_of_ne_outlet (hkey : outlet.key ≠ key) :
    (options.set key value).get? outlet.key = options.get? outlet.key := by
  obtain ⟨hinteractive, hassertions, -⟩ := outlet.key_ne
  exact get?_set_of_ne hkey hinteractive hassertions

theorem get?_initial_outlet (version : Version) :
    (initial version).get? outlet.key = some (.string outlet.standard) := by
  rw [get?_initial]
  cases outlet <;> rfl

end Options

namespace State

variable {state : State} {command : Command}

/-- The setting of a channel is always sent. -/
theorem plan_setting (relax : Bool) (name : String) :
    state.plan relax (outlet.setting name) = .ok (.send .success) := by
  obtain ⟨-, -, hprint, hbefore, hunsupported, -⟩ := outlet.key_ne
  simp [plan, planOption, hprint, hbefore, hunsupported]

/-- A command that is committed leaves the option alone, unless it sets it or is a reset. -/
theorem get?_commit_outlet (hset : ∀ value, command ≠ .setOption outlet.key value)
    (hreset : command ≠ .reset) (response : Response) :
    (state.commit command response).options.get? outlet.key = state.options.get? outlet.key := by
  cases command with
  | reset => exact absurd rfl hreset
  | pop levels =>
      rw [commit]
      split <;> rfl
  | setOption key value =>
      rw [commit]
      split
      · rfl
      · exact Options.get?_set_of_ne_outlet outlet fun hkey => hset value (by rw [hkey])
  | _ => rfl

end State

namespace Session

variable {σ : Type}

/-- Where the channel goes. -/
def channel (session : Session σ) : Channel :=
  outlet.pick session.regular session.diagnostic

/-- The session reports that the channel goes to the given name. -/
def Reports (session : Session σ) (name : String) : Prop :=
  session.state.plan session.config.relax (.getOption outlet.key) =
    .ok (.answer (.value (.string name)))

/-- The channel goes where the session reports. -/
def Agrees (session : Session σ) : Prop :=
  ∃ name, session.Reports outlet name ∧ session.channel outlet = .ofName name

variable {host : Host σ} {session : Session σ} {command : Command} {outlet}

theorem reports_iff {name : String} :
    session.Reports outlet name ↔
      session.state.options.get? outlet.key = some (.string name) := by
  rw [Reports, State.plan]
  cases session.state.options.get? outlet.key with
  | none => simp
  | some value => simp

/-- What a session that runs reports is what it answers when it is asked. -/
theorem reports_iff_execute (hrunning : session.state.terminated = false) {name : String} :
    session.Reports outlet name ↔
      execute host (.getOption outlet.key) session = .ok (.value (.string name)) session := by
  rw [execute_getOption hrunning, reports_iff]
  cases session.state.options.get? outlet.key with
  | none => simp [optionAnswer]
  | some value => simp [optionAnswer]

/-! ## The option -/

/-- The option after an execution that has an answer. -/
theorem get?_of_ok {response : Response} {after : Session σ}
    (h : execute host command session = .ok response after)
    (hset : ∀ value, command ≠ .setOption outlet.key value) (hreset : command ≠ .reset) :
    after.state.options.get? outlet.key = session.state.options.get? outlet.key := by
  rw [(execute_ok h).2.2, State.get?_commit_outlet outlet hset hreset, options_base]

/-! ## The channel -/

/-- What is done for a command that is not the setting of the option leaves the channel alone. -/
theorem keeps_prepare_channel (hset : ∀ value, command ≠ .setOption outlet.key value)
    (channel : Channel) :
    Keeps (fun session => session.channel outlet = channel) (prepare host command) := by
  have hkept : KeptByOutputs host fun session => session.channel outlet = channel :=
    ⟨fun _ _ h => h, fun _ _ _ h => h⟩
  unfold prepare
  split
  · exact (ensures_diagnose hkept _).keeps
  · next key value =>
    have hkey : key ≠ outlet.key := fun hkey => hset value (by rw [hkey])
    have hopen : ∀ name, Keeps (fun session => session.channel outlet = channel)
        (openChannel host name) := fun name =>
      ((ensures_openChannel hkept.openFile (fun _ _ _ h => h) name).mono (fun _ _ h => h.2)
        fun _ _ h => h).keeps
    -- if a channel is opened, it is the other one
    cases outlet with
    | regular =>
        have hregular : key ≠ .regularOutputChannel := hkey
        rw [if_neg hregular]
        exact .ite (.bind (hopen _) fun _ => .modify fun _ h => h) (.pure _)
    | diagnostic =>
        have hdiagnostic : key ≠ .diagnosticOutputChannel := hkey
        rw [if_neg hdiagnostic]
        exact .ite (.bind (hopen _) fun _ => .modify fun _ h => h) (.pure _)
  · exact .pure _

/-- An execution of any other command leaves the channel alone. -/
theorem channel_of_execute (hset : ∀ value, command ≠ .setOption outlet.key value) :
    (ended (execute host command session)).channel outlet = session.channel outlet := by
  have hkept : KeptByHost host fun after => after.channel outlet = session.channel outlet :=
    keptByHost_of_apart fun _ _ _ h => h
  exact keeps_execute_of_prepare hkept (keeps_prepare_channel hset _) session rfl

/-! ## Settings -/

/-- Nothing has been asked for, and the channel is the given one. -/
def Unsent (outlet : Outlet) (channel : Channel) (session : Session (σ × List Event)) : Prop :=
  session.channel outlet = channel ∧ session.world.2 = []

/-- Something has been asked for, and the channel is the given one. -/
def Sent (outlet : Outlet) (channel : Channel) (session : Session (σ × List Event)) : Prop :=
  session.channel outlet = channel ∧ session.world.2 ≠ []

theorem ensures_prepare_setting (host : Host σ) (outlet : Outlet) (channel : Channel)
    (name : String) :
    Ensures (Unsent outlet channel)
      (prepare host.logged (outlet.setting name))
      (fun _ => Unsent outlet (.ofName name)) (fun _ => Unsent outlet channel) := by
  have hkept : KeptByOutputs host.logged (Unsent outlet channel) :=
    ⟨fun _ _ h => h, fun _ _ _ h => h⟩
  have hopen : Ensures (Unsent outlet channel) (openChannel host.logged name)
      (fun opened session => opened = .ofName name ∧ Unsent outlet channel session)
      (fun _ => Unsent outlet channel) :=
    ensures_openChannel hkept.openFile (fun _ _ _ h => h) name
  cases outlet with
  | regular => exact .bind hopen fun channel session h => ⟨h.1, h.2.2⟩
  | diagnostic => exact .bind hopen fun channel session h => ⟨h.1, h.2.2⟩

theorem ensures_perform_setting (host : Host σ) (outlet : Outlet) (channel : Channel)
    (name : String) :
    Ensures (Unsent outlet channel) (perform host.logged (outlet.setting name) (.send .success))
      (fun _ => Sent outlet channel) (fun _ => Sent outlet channel) := by
  obtain ⟨text, htext⟩ := exists_translate_setOption .z3 outlet.key (.string name)
  have hperform : perform host.logged (outlet.setting name) (.send .success) =
      transmit host.logged text >>= fun reply => decode reply .success := by
    simp only [perform, deliver, htext]
  have htransmit : Ensures (Unsent outlet channel) (transmit host.logged text)
      (fun _ => Sent outlet channel) (fun _ => Sent outlet channel) := by
    intro session h
    refine Meets.bind_ok (onWorld_watched (.send text) Except.isOk (host.send text) session) ?_
    rcases host.send text session.world.1 with ⟨failure | reply, world⟩
    · exact ⟨h.1, by simp [seeing]⟩
    · exact ⟨h.1, by simp [seeing]⟩
  rw [hperform]
  exact .bind htransmit fun reply => (keeps_decode reply .success).ensures

/-- **A channel is opened before the setting is sent**, and it stays open whatever comes back. -/
theorem ensures_setting (host : Host σ) (outlet : Outlet) (channel : Channel) (name : String) :
    Ensures (Unsent outlet channel)
      (execute host.logged (outlet.setting name))
      (fun _ => Sent outlet (.ofName name))
      (fun _ session => Unsent outlet channel session ∨ Sent outlet (.ofName name) session) := by
  refine .get fun session h => ?_
  cases hterminated : session.state.terminated with
  | true => exact .inl h
  | false =>
      rw [State.plan_setting]
      have hprepare := ensures_prepare_setting host outlet channel name
      have hperform := ensures_perform_setting host outlet (.ofName name) name
      have hcommit : ∀ response, Ensures (σ := σ × List Event) (Sent outlet (.ofName name))
          (commit (outlet.setting name) response)
          (fun _ => Sent outlet (.ofName name)) (fun _ => Sent outlet (.ofName name)) :=
        fun response session h => h
      refine Ensures.bind (hprepare.mono (fun _ _ h => h) fun _ _ h => .inl h) (fun _ => ?_)
        session h
      refine .bind (hperform.mono (fun _ _ h => h) fun _ _ h => .inr h) fun response => ?_
      refine .bind ((hcommit response).mono (fun _ _ h => h) fun _ _ h => .inr h) fun _ => ?_
      exact .pure fun _ h => h

/-- Once the setting is sent the channel has moved, answered or not. -/
theorem channel_of_setting (name : String) :
    Meets (fun _ after => after.channel outlet = .ofName name)
      (fun _ after => after.channel outlet =
        if session.events host (.execute (outlet.setting name)) = [] then
          session.channel outlet
        else .ofName name)
      (execute host (outlet.setting name) session) := by
  have hsetting := ensures_setting host outlet (session.channel outlet) name session.logging
    ⟨rfl, rfl⟩
  have hevents : session.events host (.execute (outlet.setting name)) =
      (ended (execute host.logged (outlet.setting name) session.logging)).world.2 := rfl
  rw [execute_eq_viewed]
  cases hrun : execute host.logged (outlet.setting name) session.logging with
  | ok response logged =>
      rw [hrun] at hsetting
      exact hsetting.1
  | error error logged =>
      rw [hrun] at hsetting hevents
      have hchannel : logged.channel outlet =
          if session.events host (.execute (outlet.setting name)) = [] then
            session.channel outlet
          else .ofName name := by
        rcases hsetting with ⟨hunmoved, hsilent⟩ | ⟨hmoved, hsent⟩
        · rw [if_pos (hevents.trans hsilent), hunmoved]
        · rw [if_neg (hevents ▸ hsent), hmoved]
      exact hchannel

/-! ## Agreement -/

/-- The requests that part a channel from its option: a setting to somewhere else that is sent and
not answered, and a reset that is answered while the channel is not the one of the start. -/
inductive Parts (host : Host σ) (outlet : Outlet) (session : Session σ) : Request → Prop
  | unanswered {name : String} {error : SessionError} {after : Session σ}
      (hsent : session.events host (.execute (outlet.setting name)) ≠ [])
      (hfailed : execute host (outlet.setting name) session = .error error after)
      (hother : .ofName name ≠ session.channel outlet) :
      Parts host outlet session (.execute (outlet.setting name))
  | reset {response : Response} {after : Session σ}
      (hanswered : execute host .reset session = .ok response after)
      (hother : session.channel outlet ≠ .ofName outlet.standard) :
      Parts host outlet session (.execute .reset)

/-- As long as the option stays, what is reported is right as long as the channel stays. -/
theorem agrees_iff_of_get? {after : Session σ} (h : session.Agrees outlet)
    (hoption : after.state.options.get? outlet.key = session.state.options.get? outlet.key) :
    after.Agrees outlet ↔ after.channel outlet = session.channel outlet := by
  obtain ⟨name, hreports, hchannel⟩ := h
  rw [reports_iff] at hreports
  constructor
  · rintro ⟨name', hreports', hchannel'⟩
    rw [reports_iff, hoption, hreports] at hreports'
    cases hreports'
    rw [hchannel, hchannel']
  · intro hsame
    exact ⟨name, reports_iff.mpr (hoption.trans hreports), hsame.trans hchannel⟩

/-- An execution that fails leaves the option alone. -/
theorem agrees_iff_of_error {after : Session σ} {error : SessionError} (h : session.Agrees outlet)
    (hrun : execute host command session = .error error after) :
    after.Agrees outlet ↔ after.channel outlet = session.channel outlet :=
  agrees_iff_of_get? h (by rw [(moves_of_error hrun).options_eq])

/-- The setting of a channel keeps the agreement, unless it is sent and not answered. -/
theorem agrees_setting (h : session.Agrees outlet) (name : String) :
    (session.following host (.execute (outlet.setting name))).Agrees outlet ↔
      ¬ Parts host outlet session (.execute (outlet.setting name)) := by
  have hmeets : Meets _ _ (execute host (outlet.setting name) session) := channel_of_setting name
  rw [following]
  cases hrun : execute host (outlet.setting name) session with
  | ok response after =>
      rw [hrun] at hmeets
      have hoption : after.state.options.get? outlet.key = some (.string name) := by
        obtain ⟨-, -, -, -, hunsupported, -⟩ := outlet.key_ne
        rw [(execute_ok hrun).2.2, State.commit, if_neg hunsupported]
        exact Options.get?_set_outlet outlet
      refine iff_of_true ⟨name, reports_iff.mpr hoption, hmeets⟩ fun hparts => ?_
      cases hparts with
      | unanswered hsent hfailed hother => simp [hrun] at hfailed
  | error error after =>
      rw [hrun] at hmeets
      have hchannel : after.channel outlet = if session.events host _ = [] then _ else _ := hmeets
      refine (agrees_iff_of_error h hrun).trans ?_
      constructor
      · intro hsame hparts
        cases hparts with
        | unanswered hsent hfailed hother =>
            rw [if_neg hsent] at hchannel
            exact hother (hchannel.symm.trans hsame)
      · intro hparts
        by_contra hother
        -- the channel has moved, so the setting was sent
        split at hchannel
        · exact hother hchannel
        · next hsent => exact hparts (.unanswered hsent hrun (hchannel ▸ hother))

/-- A reset keeps the agreement, unless it is answered while the channel is another one. -/
theorem agrees_reset (h : session.Agrees outlet) :
    (session.following host (.execute .reset)).Agrees outlet ↔
      ¬ Parts host outlet session (.execute .reset) := by
  have hchannel : (ended (execute host .reset session)).channel outlet = session.channel outlet :=
    channel_of_execute (by simp)
  rw [following]
  cases hrun : execute host .reset session with
  | ok response after =>
      rw [hrun] at hchannel
      have hoption : after.state.options.get? outlet.key = some (.string outlet.standard) := by
        rw [(execute_ok hrun).2.2]
        exact Options.get?_initial_outlet outlet _
      have hagrees : after.Agrees outlet ↔ session.channel outlet = .ofName outlet.standard := by
        constructor
        · rintro ⟨name, hreports, hname⟩
          rw [reports_iff, hoption] at hreports
          cases hreports
          exact hchannel.symm.trans hname
        · intro hstandard
          exact ⟨_, reports_iff.mpr hoption, hchannel.trans hstandard⟩
      refine hagrees.trans ⟨?_, ?_⟩
      · intro hstandard hparts
        cases hparts with
        | reset hanswered hother => exact hother hstandard
      · intro hparts
        by_contra hother
        exact hparts (.reset hrun hother)
  | error error after =>
      rw [hrun] at hchannel
      refine iff_of_true ((agrees_iff_of_error h hrun).mpr hchannel) fun hparts => ?_
      cases hparts with
      | reset hanswered hother => simp [hrun] at hanswered

/-- Any other command keeps it. -/
theorem agrees_execute (h : session.Agrees outlet)
    (hset : ∀ value, command ≠ .setOption outlet.key value) (hreset : command ≠ .reset) :
    (session.following host (.execute command)).Agrees outlet := by
  have hchannel : (ended (execute host command session)).channel outlet = session.channel outlet :=
    channel_of_execute hset
  rw [following]
  cases hrun : execute host command session with
  | ok response after =>
      rw [hrun] at hchannel
      exact (agrees_iff_of_get? h (get?_of_ok hrun hset hreset)).mpr hchannel
  | error error after =>
      rw [hrun] at hchannel
      exact (agrees_iff_of_error h hrun).mpr hchannel

/-- A request that gives the channel no destination but a name. -/
def NamesChannel (outlet : Outlet) (request : Request) : Prop :=
  ∀ value, request = .execute (.setOption outlet.key value) → ∃ name, value = .string name

/-- Comments and responses change neither the option nor the channel. -/
theorem agrees_of_world {after : Session σ} (h : session.Agrees outlet)
    (hafter : ∃ world, after = { session with world }) : after.Agrees outlet := by
  obtain ⟨world, rfl⟩ := hafter
  exact h

/-- **A request keeps the agreement, unless it parts the channel from its option.** -/
theorem agrees_following (h : session.Agrees outlet) {request : Request}
    (hnames : NamesChannel outlet request) :
    (session.following host request).Agrees outlet ↔ ¬ Parts host outlet session request := by
  cases request with
  | comment text =>
      exact iff_of_true (agrees_of_world h (exists_ended_comment host session text)) nofun
  | print response =>
      exact iff_of_true (agrees_of_world h (exists_ended_print host session response)) nofun
  | execute command =>
      by_cases hset : ∃ value, command = .setOption outlet.key value
      · obtain ⟨value, rfl⟩ := hset
        obtain ⟨name, rfl⟩ := hnames value rfl
        exact agrees_setting h name
      · have hset : ∀ value, command ≠ .setOption outlet.key value := by simpa using hset
        by_cases hreset : command = .reset
        · subst hreset
          exact agrees_reset h
        · refine iff_of_true (agrees_execute h hset hreset) fun hparts => ?_
          cases hparts with
          | unanswered => exact hset _ rfl
          | reset => exact hreset rfl

/-! ## Conversations -/

theorem agrees_of_start {config : Config} {world world' : σ} {opened : Session σ}
    (hstart : start host config world = .ok opened world') :
    opened.Reports outlet outlet.standard ∧
      opened.channel outlet = .ofName outlet.standard := by
  obtain ⟨world, rfl⟩ := exists_of_start hstart
  refine ⟨reports_iff.mpr ?_, ?_⟩
  · have hverbosity : outlet.key ≠ .verbosity := outlet.key_ne.2.2.2.2.2
    show (Options.configured config).get? outlet.key = _
    rw [Options.configured, Options.get?_set_of_ne_outlet outlet hverbosity,
      Options.get?_initial_outlet]
  · cases outlet <;> rfl

/-- The channel goes where the session reports in all states of a conversation, if it does at the
beginning and no request parts them. -/
theorem agrees_throughout (h : session.Agrees outlet) {requests : List Request}
    (hnames : ∀ request ∈ requests, NamesChannel outlet request) :
    (∀ earlier, earlier <+: requests → (session.through host earlier).Agrees outlet) ↔
      ∀ earlier request, earlier ++ [request] <+: requests →
        ¬ Parts host outlet (session.through host earlier) request := by
  constructor
  · intro hagrees earlier request hreached
    have hbefore : (session.through host earlier).Agrees outlet :=
      hagrees earlier ((List.prefix_append _ _).trans hreached)
    have hafter : ((session.through host earlier).following host request).Agrees outlet := by
      have hthrough := hagrees _ hreached
      rwa [through_append] at hthrough
    have hmem : request ∈ requests := hreached.subset (by simp)
    exact (agrees_following hbefore (hnames request hmem)).mp hafter
  · intro hparts earlier
    -- the latest request is the last of the list
    induction earlier using List.reverseRecOn with
    | nil => exact fun _ => h
    | append_singleton earlier request ih =>
        intro hreached
        have hbefore : (session.through host earlier).Agrees outlet :=
          ih ((List.prefix_append _ _).trans hreached)
        have hmem : request ∈ requests := hreached.subset (by simp)
        rw [through_append]
        exact (agrees_following hbefore (hnames request hmem)).mpr (hparts earlier request hreached)

/-- **The output goes where the session reports, until a request parts them.**  They agree at the
start, and they agree in every state that is reached exactly if no setting that moves the channel is
sent and not answered, and no reset is answered while the channel is not the one of the start.  What
a session reports is its answer to `get-option`, as long as it runs. -/
theorem channels_through {config : Config} {world world' : σ} {opened : Session σ}
    (hstart : start host config world = .ok opened world') {requests : List Request}
    (hnames : ∀ request ∈ requests, NamesChannel outlet request) :
    opened.Reports outlet outlet.standard ∧
      opened.channel outlet = .ofName outlet.standard ∧
      (∀ earlier, earlier <+: requests →
        (opened.through host earlier).state.terminated = false → ∀ name,
          ((opened.through host earlier).Reports outlet name ↔
            execute host (.getOption outlet.key) (opened.through host earlier) =
              .ok (.value (.string name)) (opened.through host earlier))) ∧
      ((∀ earlier, earlier <+: requests → (opened.through host earlier).Agrees outlet) ↔
        ∀ earlier request, earlier ++ [request] <+: requests →
          ¬ Parts host outlet (opened.through host earlier) request) := by
  have hopened : opened.Reports outlet outlet.standard ∧
      opened.channel outlet = .ofName outlet.standard := agrees_of_start hstart
  exact ⟨hopened.1, hopened.2, fun _ _ hrunning _ => reports_iff_execute hrunning,
    agrees_throughout ⟨_, hopened⟩ hnames⟩

/-- A setting that is answered moves the output, and the session reports it. -/
theorem channels_through_moved : ∃ (opened : Session Script) (requests : List Request),
    (opened.through .scripted requests).regular = .stderr ∧
      (opened.through .scripted requests).Agrees .regular := by
  have hrun : ∃ (opened : Session Script) (world' : Script),
      start .scripted {} {} = .ok opened world' ∧
        (opened.turn .scripted (Outlet.regular.setting "stderr")).answer.isSome = true ∧
        (opened.through .scripted [.execute (Outlet.regular.setting "stderr")]).regular =
          .stderr :=
    ⟨_, _, rfl, by decide +kernel, by decide +kernel⟩
  obtain ⟨opened, world', hstart, hanswered, hregular⟩ := hrun
  refine ⟨opened, _, hregular, ?_⟩
  refine (channels_through hstart ?_).2.2.2.mpr ?_ _ (List.prefix_refl _)
  · intro request hrequest value hset
    rw [List.mem_singleton.mp hrequest] at hset
    cases hset
    exact ⟨"stderr", rfl⟩
  · intro earlier request hreached hparts
    obtain rfl : earlier = [] := by
      have hlength := hreached.length_le
      simpa using hlength
    obtain rfl := List.mem_singleton.mp (hreached.subset (List.mem_singleton_self request))
    cases hparts with
    | unanswered hsent hfailed hother =>
        rw [through_nil] at hfailed
        simp [turn, hfailed] at hanswered

/-- After a reset, what is printed still goes where it went before, and the session reports
something else. -/
theorem channels_through_reset : ∃ (opened : Session Script) (world' : Script)
    (requests : List Request), start .scripted {} {} = .ok opened world' ∧
      (∀ request ∈ requests, NamesChannel .regular request) ∧
      (opened.through .scripted requests).Reports .regular "stdout" ∧
      (opened.through .scripted requests).regular = .stderr := by
  refine ⟨_, _, [.execute (Outlet.regular.setting "stderr"), .execute .reset], rfl, ?_,
    reports_iff.mpr (by decide +kernel), by decide +kernel⟩
  intro request hrequest value hset
  rcases List.mem_pair.mp hrequest with rfl | rfl
  · cases hset
    exact ⟨"stderr", rfl⟩
  · simp at hset

end Session

end SmtSession
