import SmtSession.Proofs.Session.Keeping

/-!
# Two hosts for one session

What a session does depends on its world only through its host.  So if two hosts
do the same in worlds that are alike (`Host.Tracks`), then a session does the
same with either of them (`Session.Tracks`, `Session.tracks_execute`).

The hosts need not go on in the same way for ever.  The world of the first one
may get lost, as one that has used up what both worlds have in common; from then
on nothing is said of the second one.

One host may also know more than the other and still do the same, as a host does
that keeps a record beside what it does.  Here nothing is ever lost, and the
worlds are alike if the second one is what is seen of the first one
(`Host.Extends`, `Session.Matches`).

## Strategy

`Session.Tracks` is preserved by everything that actions are built with, so the
proof for an action of a session follows its definition.
-/

namespace SmtSession

variable {τ σ α β : Type} {lost : τ → Prop} {alike : τ → σ → Prop} {view : τ → σ}

/-! ## Hosts -/

/-- In worlds that are alike, the two actions do the same and leave worlds that are alike, unless
the first world gets lost.  What is lost stays lost. -/
structure Tracked (lost : τ → Prop) (alike : τ → σ → Prop) (wide : StateM τ α)
    (narrow : StateM σ α) : Prop where
  stays : ∀ world, lost world → lost (wide world).2
  follows : ∀ world world', alike world world' →
    lost (wide world).2 ∨
      (wide world).1 = (narrow world').1 ∧ alike (wide world).2 (narrow world').2

/-- In worlds that are alike, the two hosts do the same, unless the first one gets lost. -/
structure Host.Tracks (lost : τ → Prop) (alike : τ → σ → Prop) (wide : Host τ)
    (narrow : Host σ) : Prop where
  send : ∀ text, Tracked lost alike (wide.send text) (narrow.send text)
  sendNoWait : ∀ text, Tracked lost alike (wide.sendNoWait text) (narrow.sendNoWait text)
  isAlive : ∀ wait, Tracked lost alike (wide.isAlive wait) (narrow.isAlive wait)
  terminate : Tracked lost alike wide.terminate narrow.terminate
  openFile : ∀ path, Tracked lost alike (wide.openFile path) (narrow.openFile path)
  write : ∀ channel text, Tracked lost alike (wide.write channel text) (narrow.write channel text)

/-- In what is seen of the world, the first action does what the second one does. -/
def Seen (view : τ → σ) (wide : StateM τ α) (narrow : StateM σ α) : Prop :=
  ∀ world, ((wide world).1, view (wide world).2) = narrow (view world)

/-- In what is seen of the world, the first host does what the second one does. -/
structure Host.Extends (view : τ → σ) (wide : Host τ) (narrow : Host σ) : Prop where
  send : ∀ text, Seen view (wide.send text) (narrow.send text)
  sendNoWait : ∀ text, Seen view (wide.sendNoWait text) (narrow.sendNoWait text)
  isAlive : ∀ wait, Seen view (wide.isAlive wait) (narrow.isAlive wait)
  terminate : Seen view wide.terminate narrow.terminate
  openFile : ∀ path, Seen view (wide.openFile path) (narrow.openFile path)
  write : ∀ channel text, Seen view (wide.write channel text) (narrow.write channel text)

theorem Seen.tracked {wide : StateM τ α} {narrow : StateM σ α} (h : Seen view wide narrow) :
    Tracked (fun _ => False) (fun world world' => view world = world') wide narrow where
  stays _ hlost := hlost
  follows world world' halike := by
    subst halike
    obtain ⟨hresult, hworld⟩ := Prod.ext_iff.mp (h world)
    exact .inr ⟨hresult, hworld⟩

theorem Host.Extends.tracks {wide : Host τ} {narrow : Host σ} (h : wide.Extends view narrow) :
    wide.Tracks (fun _ => False) (fun world world' => view world = world') narrow where
  send text := (h.send text).tracked
  sendNoWait text := (h.sendNoWait text).tracked
  isAlive wait := (h.isAlive wait).tracked
  terminate := h.terminate.tracked
  openFile path := (h.openFile path).tracked
  write channel text := (h.write channel text).tracked

namespace Session

/-- The session in another world. -/
def inWorld (session : Session τ) (world : σ) : Session σ :=
  { session with world }

section InWorld

variable (session : Session τ) (world : σ)

@[simp] theorem config_inWorld : (session.inWorld world).config = session.config := rfl
@[simp] theorem state_inWorld : (session.inWorld world).state = session.state := rfl
@[simp] theorem decoder_inWorld : (session.inWorld world).decoder = session.decoder := rfl

end InWorld

/-- A result in another world. -/
def resultIn (world : σ) : EStateM.Result SessionError (Session τ) α →
    EStateM.Result SessionError (Session σ) α
  | .ok value session => .ok value (session.inWorld world)
  | .error error session => .error error (session.inWorld world)

/-- In worlds that are alike, the two actions do the same, unless the first one gets lost. -/
structure Tracks (lost : τ → Prop) (alike : τ → σ → Prop) (wide : SessionM τ α)
    (narrow : SessionM σ α) : Prop where
  stays : Keeps (fun session => lost session.world) wide
  follows : ∀ session world, alike session.world world →
    lost (ended (wide session)).world ∨
      ∃ after, alike (ended (wide session)).world after ∧
        narrow (session.inWorld world) = resultIn after (wide session)

namespace Tracks

theorem pure (value : α) : Tracks lost alike (Pure.pure value) (Pure.pure value) :=
  ⟨.pure value, fun _ world halike => .inr ⟨world, halike, rfl⟩⟩

theorem throw (error : SessionError) :
    Tracks (α := α) lost alike (MonadExcept.throw error) (MonadExcept.throw error) :=
  ⟨.throw error, fun _ world halike => .inr ⟨world, halike, rfl⟩⟩

theorem bind {first : SessionM τ α} {first' : SessionM σ α} {next : α → SessionM τ β}
    {next' : α → SessionM σ β} (hfirst : Tracks lost alike first first')
    (hnext : ∀ value, Tracks lost alike (next value) (next' value)) :
    Tracks lost alike (first >>= next) (first' >>= next') := by
  refine ⟨hfirst.stays.bind fun value => (hnext value).stays, fun session world halike => ?_⟩
  have hsession := hfirst.follows session world halike
  rw [bind_apply, bind_apply]
  cases hrun : first session with
  | ok value after =>
      rw [hrun] at hsession
      rcases hsession with hlost | ⟨after', halike', hfirst'⟩
      · exact .inl ((hnext value).stays after hlost)
      · rw [hfirst']
        exact (hnext value).follows after after' halike'
  | error error after =>
      rw [hrun] at hsession
      refine hsession.imp_right ?_
      rintro ⟨after', halike', hfirst'⟩
      exact ⟨after', halike', by rw [hfirst']; rfl⟩

/-- What would follow an error does not matter. -/
theorem throw_bind (error : SessionError) (next : β → SessionM τ α) (next' : β → SessionM σ α) :
    Tracks lost alike (MonadExcept.throw error >>= next) (MonadExcept.throw error >>= next') :=
  ⟨.throw_bind error next, fun _ world halike => .inr ⟨world, halike, rfl⟩⟩

theorem ite {p : Prop} [Decidable p] {yes no : SessionM τ α} {yes' no' : SessionM σ α}
    (hyes : Tracks lost alike yes yes') (hno : Tracks lost alike no no') :
    Tracks lost alike (if p then yes else no) (if p then yes' else no') := by
  split
  · exact hyes
  · exact hno

/-- An action that looks at the session sees the same session but for the world. -/
theorem get [Nonempty σ] {next : Session τ → SessionM τ α} {next' : Session σ → SessionM σ α}
    (hnext : ∀ session world, Tracks lost alike (next session) (next' (session.inWorld world))) :
    Tracks lost alike (MonadState.get >>= next) (MonadState.get >>= next') where
  stays session := (hnext session Classical.ofNonempty).stays session
  follows session world := (hnext session world).follows session world

/-- What is changed has nothing to do with the world. -/
theorem modify {f : Session τ → Session τ} {f' : Session σ → Session σ}
    (hworld : ∀ session, (f session).world = session.world)
    (h : ∀ session world, f' (session.inWorld world) = (f session).inWorld world) :
    Tracks lost alike (modify f : SessionM τ Unit) (modify f' : SessionM σ Unit) where
  stays := .modify fun session hlost => (hworld session).symm ▸ hlost
  follows session world halike :=
    .inr ⟨world, (hworld session).symm ▸ halike, congrArg (EStateM.Result.ok ()) (h session world)⟩

theorem modifyState (f : State → State) :
    Tracks lost alike (Session.modifyState f) (Session.modifyState f) :=
  .modify (fun _ => rfl) fun _ _ => rfl

theorem onWorld {wide : StateM τ α} {narrow : StateM σ α} (h : Tracked lost alike wide narrow) :
    Tracks lost alike (Session.onWorld wide) (Session.onWorld narrow) where
  stays session := h.stays session.world
  follows session world halike := by
    refine (h.follows session.world world halike).imp_right ?_
    rintro ⟨hresult, hworld⟩
    refine ⟨(narrow world).2, hworld, ?_⟩
    show EStateM.Result.ok (narrow world).1 _ = .ok (wide session.world).1 _
    rw [hresult]
    rfl

end Tracks

/-! ## The actions of a session -/

section Tracks

variable {wide : Host τ} {narrow : Host σ} (h : wide.Tracks lost alike narrow) (command : Command)

theorem tracks_decode [Nonempty σ] (reply : String) (shape : ReplyShape) :
    Tracks lost alike (decode reply shape) (decode reply shape) := by
  refine .get fun session world => ?_
  rw [decoder_inWorld]
  cases session.decoder.decode reply shape with
  | ok response => exact .pure _
  | error error => exact .throw _

include h

theorem tracks_transmit (text : String) :
    Tracks lost alike (transmit wide text) (transmit narrow text) := by
  refine .bind (.onWorld (h.send text)) fun result => ?_
  cases result with
  | ok reply => exact .pure _
  | error failure => exact .bind (.modifyState _) fun _ => .throw _

theorem tracks_openChannel (name : String) :
    Tracks lost alike (openChannel wide name) (openChannel narrow name) := by
  unfold openChannel
  cases Channel.ofName name with
  | stdout => exact .pure _
  | stderr => exact .pure _
  | file path =>
      refine .bind (.onWorld (h.openFile path)) fun result => ?_
      cases result with
      | ok opened => exact .pure _
      | error failure => exact .throw _

variable [Nonempty σ]

theorem tracks_diagnose (line : String) :
    Tracks lost alike (diagnose wide line) (diagnose narrow line) := by
  refine .get fun session world => ?_
  exact .ite (.bind (.onWorld (h.write _ _)) fun _ => .pure _) (.pure _)

theorem tracks_leave (text : String) :
    Tracks lost alike (leave wide text) (leave narrow text) := by
  refine .bind (.onWorld (h.send text)) fun answered => .get fun session world => ?_
  refine .bind (.onWorld h.terminate) fun _ => .bind (.modifyState _) fun _ => ?_
  refine .bind (tracks_diagnose h _) fun _ => ?_
  cases answered with
  | ok reply =>
      simp only [decoder_inWorld]
      cases session.decoder.decode reply .success with
      | ok response => exact .pure _
      | error error => exact .throw _
  | error failure => exact .ite (.pure _) (.throw _)

theorem tracks_deliver (shape : ReplyShape) :
    Tracks lost alike (deliver wide command shape) (deliver narrow command shape) := by
  unfold deliver
  cases translate .z3 (.command command) with
  | error refused => exact .throw _
  | ok text =>
      dsimp only
      -- an exit, a check, a push, and everything else
      split
      · exact tracks_leave h text
      · refine .bind (tracks_transmit h text) fun reply => ?_
        refine .bind (.onWorld (h.isAlive false)) fun alive => ?_
        exact .ite (tracks_decode reply shape) (.bind (.modifyState _) fun _ => .throw _)
      · refine .bind (tracks_transmit h text) fun reply => .get fun session world => ?_
        simp only [decoder_inWorld]
        cases session.decoder.decode reply shape with
        | ok response => exact .pure _
        | error error =>
            cases error with
            | solver message => exact .pure _
            | unexpected shape reply => exact .throw _
            | badSyntax error => exact .throw _
            | badTerm error => exact .throw _
      · exact .bind (tracks_transmit h text) fun reply => tracks_decode reply shape

theorem tracks_prepare : Tracks lost alike (prepare wide command) (prepare narrow command) := by
  unfold prepare
  split
  · exact tracks_diagnose h _
  · refine .ite ?_ (.ite ?_ (.pure _))
    · exact .bind (tracks_openChannel h _) fun channel => .modify (fun _ => rfl) fun _ _ => rfl
    · exact .bind (tracks_openChannel h _) fun channel => .modify (fun _ => rfl) fun _ _ => rfl
  · exact .pure _

theorem tracks_perform (plan : Plan) :
    Tracks lost alike (perform wide command plan) (perform narrow command plan) := by
  cases plan with
  | answer response => exact .pure _
  | send shape => exact tracks_deliver h command shape
  | reopen levels =>
      refine .bind (tracks_deliver h _ _) fun popped => ?_
      exact .bind (.modifyState _) fun _ => tracks_deliver h _ _

/-- **A session does the same with hosts that do the same.** -/
theorem tracks_execute : Tracks lost alike (execute wide command) (execute narrow command) := by
  refine .get fun session world => ?_
  simp only [state_inWorld, config_inWorld]
  refine .ite (.throw_bind _ _ _) ?_
  cases session.state.plan session.config.relax command with
  | error broken => exact .throw _
  | ok plan =>
      refine .bind (tracks_prepare h command) fun _ => ?_
      refine .bind (tracks_perform h command plan) fun response => ?_
      exact .bind (.modifyState _) fun _ => .pure _

theorem tracks_comment (text : String) :
    Tracks lost alike (comment wide text) (comment narrow text) := by
  refine .get fun session world => ?_
  simp only [state_inWorld]
  exact .ite (.bind (.onWorld (h.sendNoWait _)) fun _ => .pure _) (.pure _)

theorem tracks_print (response : Response) :
    Tracks lost alike (print wide response) (print narrow response) := by
  refine .get fun session world => .bind (.onWorld (h.write _ _)) fun result => ?_
  cases result with
  | ok written => exact .pure _
  | error failure => exact .throw _

end Tracks

/-! ## Hosts that know more -/

/-- The session in what is seen of its world. -/
def viewed (view : τ → σ) (session : Session τ) : Session σ :=
  { session with world := view session.world }

@[simp] theorem viewed_state (session : Session τ) :
    (session.viewed view).state = session.state := rfl

/-- A result in what is seen of the world. -/
def viewedResult (view : τ → σ) : EStateM.Result SessionError (Session τ) α →
    EStateM.Result SessionError (Session σ) α
  | .ok value session => .ok value (session.viewed view)
  | .error error session => .error error (session.viewed view)

/-- In what is seen of the world, the first action does what the second one does. -/
def Matches (view : τ → σ) (wide : SessionM τ α) (narrow : SessionM σ α) : Prop :=
  ∀ session, viewedResult view (wide session) = narrow (session.viewed view)

theorem Matches.of_tracks {wide : SessionM τ α} {narrow : SessionM σ α}
    (h : Nonempty σ →
      Tracks (fun _ => False) (fun world world' => view world = world') wide narrow) :
    Matches view wide narrow := by
  intro session
  obtain hlost | ⟨after, hafter, hnarrow⟩ :=
    (h ⟨view session.world⟩).follows session (view session.world) rfl
  · exact hlost.elim
  · subst hafter
    refine Eq.trans ?_ hnarrow.symm
    cases wide session <;> rfl

theorem Matches.bind {first : SessionM τ α} {first' : SessionM σ α} {next : α → SessionM τ β}
    {next' : α → SessionM σ β} (hfirst : Matches view first first')
    (hnext : ∀ value, Matches view (next value) (next' value)) :
    Matches view (first >>= next) (first' >>= next') := by
  intro session
  rw [bind_apply, bind_apply, ← hfirst session]
  cases first session with
  | ok value after => exact hnext value after
  | error error after => rfl

variable {wide : Host τ} {narrow : Host σ} (h : wide.Extends view narrow) (command : Command)

include h

theorem matches_diagnose (line : String) :
    Matches view (diagnose wide line) (diagnose narrow line) :=
  .of_tracks fun _ => tracks_diagnose h.tracks line

theorem matches_deliver (shape : ReplyShape) :
    Matches view (deliver wide command shape) (deliver narrow command shape) :=
  .of_tracks fun _ => tracks_deliver h.tracks command shape

theorem matches_prepare : Matches view (prepare wide command) (prepare narrow command) :=
  .of_tracks fun _ => tracks_prepare h.tracks command

/-- **What is not seen of the world makes no difference to an execution.** -/
theorem matches_execute : Matches view (execute wide command) (execute narrow command) :=
  .of_tracks fun _ => tracks_execute h.tracks command

theorem matches_comment (text : String) :
    Matches view (comment wide text) (comment narrow text) :=
  .of_tracks fun _ => tracks_comment h.tracks text

theorem matches_print (response : Response) :
    Matches view (print wide response) (print narrow response) :=
  .of_tracks fun _ => tracks_print h.tracks response

end Session

end SmtSession
