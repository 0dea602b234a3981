import LedgerConformance.Command.Tool

/-!
What a tool may come to. An attempt may give a value, or fail, when it does so with
some files; an attempt made of steps gives what its steps give and fails where one of
them does. So every outcome of a tool is one of three: the program was not found, it
overran its bound, or it ended and was read.
-/

namespace LedgerConformance

/-- With some files the step comes to a value. -/
def Attempt.MayGive {ε α : Type} (a : Attempt ε α) (x : α) : Prop :=
  ∃ files : FileSystem, (a.run.run files).1 = .ok x

/-- With some files the step fails for a reason. -/
def Attempt.MayFail {ε α : Type} (a : Attempt ε α) (e : ε) : Prop :=
  ∃ files : FileSystem, (a.run.run files).1 = .error e

namespace Attempt

variable {ε α β : Type}

theorem not_mayGive_throw (e : ε) (x : α) : ¬ (throw e : Attempt ε α).MayGive x := by
  rintro ⟨files, h⟩
  cases h

theorem MayGive.of_bind {a : Attempt ε α} {f : α → Attempt ε β} {y : β}
    (h : (a >>= f).MayGive y) : ∃ x, a.MayGive x ∧ (f x).MayGive y := by
  obtain ⟨files, h⟩ := h
  change ((ExceptT.bindCont f ((a.run.run files).1)).run (a.run.run files).2).1 = .ok y at h
  cases hfirst : (a.run.run files).1 with
  | ok x =>
    rw [hfirst] at h
    exact ⟨x, ⟨files, hfirst⟩, ⟨_, h⟩⟩
  | error e =>
    rw [hfirst] at h
    cases h

/-- A step comes to a value exactly when it does with another sort of failure. -/
theorem run_mapError_eq_ok {δ : Type} {a : Attempt ε α} {f : ε → δ} {before after : FileSystem}
    {x : α} (h : (a.mapError f).run.run before = (.ok x, after)) :
    a.run.run before = (.ok x, after) := by
  unfold Attempt.mapError at h
  dsimp only [ExceptT.mk, ExceptT.run, StateT.run, bind, StateT.bind] at h ⊢
  cases hfirst : a before with
  | mk result middle =>
    rw [hfirst] at h
    cases result with
    | ok y =>
      cases h
      rfl
    | error e => cases h

/-- The scratch file changes what a step finds, not what it may come to. -/
theorem MayGive.of_provide {source : InputSource} {step : Attempt ε α} {x : α}
    (h : (source.provide step).MayGive x) : step.MayGive x := by
  cases source with
  | file path => exact h
  | inline text =>
    obtain ⟨files, h⟩ := h
    exact ⟨_, h⟩

theorem MayFail.of_throw {e e' : ε} (h : (throw e : Attempt ε α).MayFail e') : e = e' := by
  obtain ⟨files, h⟩ := h
  cases h
  rfl

theorem MayFail.of_ofExcept {r : Except ε α} {e : ε} (h : (ofExcept r).MayFail e) :
    r = .error e := by
  obtain ⟨files, h⟩ := h
  exact h

theorem not_mayFail_pure (x : α) (e : ε) : ¬ (pure x : Attempt ε α).MayFail e := by
  rintro ⟨files, h⟩
  cases h

theorem not_mayFail_get (e : ε) : ¬ (get : Attempt ε FileSystem).MayFail e := by
  rintro ⟨files, h⟩
  cases h

theorem not_mayFail_set (files : FileSystem) (e : ε) :
    ¬ (set files : Attempt ε PUnit).MayFail e := by
  rintro ⟨before, h⟩
  cases h

theorem MayFail.of_bind {a : Attempt ε α} {f : α → Attempt ε β} {e : ε}
    (h : (a >>= f).MayFail e) : a.MayFail e ∨ ∃ x, a.MayGive x ∧ (f x).MayFail e := by
  obtain ⟨files, h⟩ := h
  change ((ExceptT.bindCont f ((a.run.run files).1)).run (a.run.run files).2).1 = .error e at h
  cases hfirst : (a.run.run files).1 with
  | ok x =>
    rw [hfirst] at h
    exact Or.inr ⟨x, ⟨files, hfirst⟩, _, h⟩
  | error e' =>
    rw [hfirst] at h
    cases h
    exact Or.inl ⟨files, hfirst⟩

theorem MayFail.of_mapError {δ : Type} {a : Attempt ε α} {f : ε → δ} {d : δ}
    (h : (a.mapError f).MayFail d) : ∃ e, a.MayFail e ∧ f e = d := by
  obtain ⟨files, h⟩ := h
  unfold mapError at h
  dsimp only [ExceptT.mk, ExceptT.run, StateT.run, bind, StateT.bind] at h
  cases hfirst : a files with
  | mk result after =>
    rw [hfirst] at h
    cases result with
    | ok x => cases h
    | error e =>
      cases h
      exact ⟨e, ⟨files, congrArg Prod.fst hfirst⟩, rfl⟩

theorem MayFail.of_mapM {f : α → Attempt ε β} {as : List α} {e : ε} (h : (as.mapM f).MayFail e) :
    ∃ a ∈ as, (f a).MayFail e := by
  induction as with
  | nil => exact absurd h (not_mayFail_pure _ e)
  | cons a as ih =>
    rw [List.mapM_cons] at h
    rcases h.of_bind with hfirst | ⟨b, -, h⟩
    · exact ⟨a, List.mem_cons_self, hfirst⟩
    · rcases h.of_bind with hrest | ⟨bs, -, h⟩
      · obtain ⟨a', ha', he⟩ := ih hrest
        exact ⟨a', List.mem_cons_of_mem a ha', he⟩
      · exact absurd h (not_mayFail_pure _ e)

theorem MayFail.of_provide {source : InputSource} {step : Attempt ε α} {e : ε}
    (h : (source.provide step).MayFail e) : step.MayFail e := by
  cases source with
  | file path => exact h
  | inline text =>
    obtain ⟨files, h⟩ := h
    exact ⟨_, h⟩

end Attempt

namespace Command

theorem readDocument_timedOut (name : String) (exitedOk : Bool) (doc : Json) :
    (readDocument name exitedOk doc).timedOut = false := rfl

theorem readStatus_timedOut (name : String) (kind : Kind) (exitedOk : Bool) (stderr : String) :
    (readStatus name kind exitedOk stderr).timedOut = false := rfl

theorem withPhases_timedOut (kind : Kind) (o : Outcome) :
    (withPhases kind o).timedOut = o.timedOut := by
  unfold withPhases
  split <;> rfl

/-- A program that ended by itself did not overrun its bound. -/
theorem interpret_timedOut (name : String) (kind : Kind) (run : Ended) :
    (interpret name kind run).timedOut = false := by
  simp only [interpret, withPhases_timedOut]
  split
  · exact readDocument_timedOut ..
  · exact readStatus_timedOut ..

namespace Tool

/-- The outcomes that a tool has for a kind of case. -/
inductive HasOutcome (t : Tool) (kind : Kind) : Outcome → Prop
  | notFound (program : String) : HasOutcome t kind (t.notFoundOutcome program)
  | overran (run : Ended) : run.timedOut = true → HasOutcome t kind (t.timeoutOutcome run)
  | ended (run : Ended) :
    run.timedOut = false → HasOutcome t kind (interpret t.name kind run)

theorem hasOutcome_of_outcomeOf {t : Tool} {kind : Kind} {program : String}
    {started : Except LaunchError Ended} {o : Outcome}
    (h : t.outcomeOf kind program started = .ok o) : HasOutcome t kind o := by
  cases started with
  | error reason =>
    unfold outcomeOf at h
    split at h
    · cases h
      exact .notFound program
    · cases h
    · contradiction
  | ok run =>
    simp only [outcomeOf, Except.ok.injEq] at h
    subst h
    by_cases htime : run.timedOut = true
    · rw [if_pos htime]
      exact .overran run htime
    · rw [if_neg htime]
      exact .ended run (by simpa using htime)

/-- A program that could not be started is the only fault. -/
theorem launch_of_outcomeOf {t : Tool} {kind : Kind} {program : String}
    {started : Except LaunchError Ended} {fault : Fault}
    (h : t.outcomeOf kind program started = .error fault) :
    ∃ reason, started = .error reason ∧ fault = .launch program reason := by
  cases started with
  | error reason =>
    unfold outcomeOf at h
    split at h
    · cases h
    · rename_i hreason
      cases hreason
      cases h
      exact ⟨reason, rfl, rfl⟩
    · contradiction
  | ok run => cases h

/-- A tool starts the command that it has for the kind, filled in. -/
theorem launch_of_run {t : Tool} {launch : Launch} {kind : Kind} {path program : String}
    {query : Option String} {reason : LaunchError}
    (h : (t.run launch kind path query).MayFail (.launch program reason)) :
    ∃ template, t.commands.forKind kind = some template ∧
      (launch (template.render path query) t.timeout).MayFail reason := by
  unfold run at h
  split at h
  · cases h.of_throw
  · rename_i template htemplate
    obtain ⟨files, h⟩ := h
    obtain ⟨reason', hstarted, hfault⟩ := launch_of_outcomeOf h
    cases hfault
    exact ⟨template, htemplate, files, hstarted⟩

theorem hasOutcome_of_run {t : Tool} {launch : Launch} {kind : Kind} {path : String}
    {query : Option String} {o : Outcome} (h : (t.run launch kind path query).MayGive o) :
    HasOutcome t kind o := by
  unfold run at h
  split at h
  · exact absurd h (Attempt.not_mayGive_throw _ o)
  · obtain ⟨files, h⟩ := h
    exact hasOutcome_of_outcomeOf h

theorem hasOutcome_of_observe {t : Tool} {launch : Launch} {c : Case} {o : Outcome}
    (h : (t.observe launch c).MayGive o) : HasOutcome t c.kind o := by
  unfold observe at h
  split at h
  · obtain ⟨_, hthrow, _⟩ := h.of_bind
    exact absurd hthrow (Attempt.not_mayGive_throw _ _)
  · obtain ⟨files, _, h⟩ := h.of_bind
    obtain ⟨input, _, h⟩ := h.of_bind
    exact hasOutcome_of_run h.of_provide

end Tool

end Command

end LedgerConformance
