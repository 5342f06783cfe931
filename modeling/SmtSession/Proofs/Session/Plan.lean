import SmtSession.Session.State

/-!
# What is let pass

A plan that is no refusal says something about the state: the rules that the
command is subject to hold in it.  Every rule is a step of the plan that ends it
or goes on, so each has one lemma about going on, and the plans of single
commands are read off with these.
-/

namespace SmtSession

/-- The names of the commands that are refused until the logic is set. -/
def Command.logicNames : List String :=
  ["assert", "check-sat", "declare-const", "declare-datatypes", "declare-fun", "declare-sort",
    "define-fun", "define-sort", "get-assertions", "pop", "push"]

/-- Whether a command is refused until the logic is set. -/
def Command.needsLogic (command : Command) : Bool :=
  logicNames.contains command.name

namespace State

variable {state : State} {relax : Bool} {plan : Plan} {command : Command}

/-! ## Rules -/

theorem requireLogic_bind {next : Unit → Except Violation Plan}
    (h : (state.requireLogic command >>= next) = .ok plan) :
    state.logicSet ∧ next () = .ok plan := by
  unfold requireLogic at h
  split at h
  · next hlogic => exact ⟨hlogic, h⟩
  · simp [bind, Except.bind] at h

theorem requireOption_bind {key : Keyword} {next : Unit → Except Violation Plan}
    (h : (state.requireOption command key >>= next) = .ok plan) :
    state.options.enabled key ∧ next () = .ok plan := by
  unfold requireOption at h
  split at h
  · next henabled => exact ⟨henabled, h⟩
  · simp [bind, Except.bind] at h

theorem requireVerdict_bind {accepted : List Verdict} {next : Unit → Except Violation Plan}
    (h : (state.requireVerdict command accepted >>= next) = .ok plan) :
    (∃ verdict ∈ accepted, state.verdict = some verdict) ∧ next () = .ok plan := by
  unfold requireVerdict at h
  split at h
  · next haccepted =>
      obtain ⟨verdict, hmem, hverdict⟩ := List.any_eq_true.mp haccepted
      exact ⟨⟨verdict, hmem, (of_decide_eq_true hverdict).symm⟩, h⟩
  · simp [bind, Except.bind] at h

/-! ## Commands -/

theorem logicSet_of_plan (h : state.plan relax command = .ok plan) (hneeds : command.needsLogic) :
    state.logicSet := by
  cases command with
  | assert term => exact (requireLogic_bind h).1
  | checkSat => exact (requireLogic_bind h).1
  | declareConst name sort => exact (requireLogic_bind h).1
  | declareDatatypes sorts datatypes => exact (requireLogic_bind h).1
  | declareFun name params result => exact (requireLogic_bind h).1
  | declareSort name arity => exact (requireLogic_bind h).1
  | defineFun name params result body => exact (requireLogic_bind h).1
  | defineSort name params sort => exact (requireLogic_bind h).1
  | getAssertions => exact (requireLogic_bind h).1
  | pop levels => exact (requireLogic_bind h).1
  | push levels => exact (requireLogic_bind h).1
  | _ => simp [Command.needsLogic, Command.logicNames, Command.name] at hneeds

theorem depth_pos_of_plan_assert {term : Term} (h : state.plan relax (.assert term) = .ok plan) :
    0 < state.depth := by
  have hnext := (requireLogic_bind h).2
  split at hnext
  · simp at hnext
  · omega

theorem le_depth_of_plan_pop {levels : Nat} (h : state.plan relax (.pop levels) = .ok plan) :
    levels ≤ state.depth := by
  have hnext := (requireLogic_bind h).2
  split at hnext
  · simp at hnext
  · omega

/-- Levels are popped on the way only when the logic is set again, and then it is all of them, if
there are any. -/
theorem reopen_of_plan {levels : Nat} (h : state.plan relax command = .ok (.reopen levels)) :
    (∃ logic, command = .setLogic logic) ∧ state.logicSet ∧ levels = state.depth ∧
      0 < state.depth := by
  cases command with
  | setLogic logic =>
      simp only [State.plan] at h
      split at h
      · simp at h
      · next hset =>
          split at h
          · simp at h
          · split at h
            · next hdepth =>
                cases h
                exact ⟨⟨logic, rfl⟩, by simpa using hset, rfl, hdepth⟩
            · simp at h
  | _ =>
      simp only [State.plan, planOption, requireLogic, requireOption, requireVerdict, bind,
        Except.bind, pure, Except.pure] at h
      repeat' split at h
      all_goals simp at h

end State

end SmtSession
