import LedgerConformance.Execution.Run
import LedgerConformance.Proofs.Execution.Schedules

/-!
Runs by workers and runs one case after the other, with any executor. When the
result of a case depends on the case alone, apart from its duration, the two differ
at most in how many cases they leave out after a failure.
-/

namespace LedgerConformance

/-- A result without its duration. -/
def Result.untimed (r : Result) : Result := { r with duration := 0 }

@[simp]
theorem Result.passed_untimed (r : Result) : r.untimed.passed = r.passed := rfl

theorem Summary.ofResults_map_untimed (results : List Result) :
    Summary.ofResults (results.map Result.untimed) = Summary.ofResults results := by
  simp only [Summary.ofResults, List.length_map, List.countP_map]
  rfl

namespace Run

variable {σ : Type} {execute : Case → StateM σ Result} {ready : σ → Prop}
  {outcome : Case → Result} {cases : List Case}

/-- In the states in which cases are executed a case has one result, apart from its
duration, and it leaves such a state. -/
structure Settled (execute : Case → StateM σ Result) (ready : σ → Prop)
    (outcome : Case → Result) (cases : List Case) : Prop where
  result : ∀ c ∈ cases, ∀ s, ready s → ((execute c).run s).1.untimed = outcome c
  keeps : ∀ c ∈ cases, ∀ s, ready s → ready ((execute c).run s).2

/-- A case may come to a result, in some state in which cases are executed and with any
duration. -/
def Yields (execute : Case → StateM σ Result) (ready : σ → Prop) (c : Case) (r : Result) : Prop :=
  ∃ s, ready s ∧ r.untimed = ((execute c).run s).1.untimed

theorem takeThrough_eq_self {α : Type} {p : α → Bool} {xs : List α}
    (h : ∀ x ∈ xs, p x = false) : takeThrough p xs = xs := by
  induction xs with
  | nil => rfl
  | cons x rest ih =>
    have hx : p x = false := h x List.mem_cons_self
    have hrest := ih fun y hy => h y (List.mem_cons_of_mem x hy)
    rw [takeThrough, hx, hrest]
    simp

theorem run_results_cons (execute : Case → StateM σ Result) (failFast : Bool) (c : Case)
    (rest : List Case) (s : σ) :
    (results execute failFast (c :: rest)).run s =
      let first := (execute c).run s
      if failFast && !first.1.passed then ([first.1], first.2)
      else
        let others := (results execute failFast rest).run first.2
        (first.1 :: others.1, others.2) := by
  simp only [results, StateT.run_bind]
  by_cases hfail : (failFast && !((execute c).run s).1.passed) = true
  · rw [if_pos hfail]
    simp only [Bind.bind, hfail, if_true]
    rfl
  · rw [if_neg hfail]
    simp only [Bind.bind, hfail]
    rfl

variable (ready) in
/-- Cases in order come to their results up to the first failure that ends the run; a view
of results may leave out what does not depend on the case alone. -/
theorem map_results {view : Result → Result} (hview : ∀ r, (view r).passed = r.passed)
    (failFast : Bool)
    (hresult : ∀ c ∈ cases, ∀ s, ready s → view ((execute c).run s).1 = outcome c)
    (hkeeps : ∀ c ∈ cases, ∀ s, ready s → ready ((execute c).run s).2) (s : σ) (hs : ready s) :
    ((results execute failFast cases).run s).1.map view =
      takeThrough (fun r => failFast && !r.passed) (cases.map outcome) := by
  induction cases generalizing s with
  | nil => rfl
  | cons c rest ih =>
    have hc := hresult c List.mem_cons_self s hs
    have hnext := hkeeps c List.mem_cons_self s hs
    have hrest := ih (fun d hd => hresult d (List.mem_cons_of_mem c hd))
      (fun d hd => hkeeps d (List.mem_cons_of_mem c hd)) _ hnext
    have hpassed : (outcome c).passed = ((execute c).run s).1.passed := by
      rw [← hc, hview]
    rw [run_results_cons, List.map_cons, takeThrough, hpassed]
    dsimp only
    split
    · rw [List.map_singleton, hc]
    · rw [List.map_cons, hc, hrest]

/-- Results that cases may come to are those the cases have. -/
theorem map_untimed_of_yields {found : List Result}
    (h : List.Forall₂ (Yields execute ready) cases found)
    (hresult : ∀ c ∈ cases, ∀ s, ready s → ((execute c).run s).1.untimed = outcome c) :
    found.map Result.untimed = cases.map outcome := by
  induction h with
  | nil => rfl
  | @cons c r cases found hyield _ ih =>
    obtain ⟨s, hs, hr⟩ := hyield
    have hc := hresult c List.mem_cons_self s hs
    have hrest := ih fun d hd => hresult d (List.mem_cons_of_mem c hd)
    rw [List.map_cons, List.map_cons, hr, hc, hrest]

/-- Results of all cases are those of the cases in order, when no failure ends a run. -/
theorem Settled.map_untimed_eq_results (h : Settled execute ready outcome cases)
    {failFast : Bool} {found : List Result} (hfound : found.map Result.untimed = cases.map outcome)
    (hgoOn : failFast = false ∨ ∀ r ∈ found, r.passed = true) (s : σ) (hs : ready s) :
    found.map Result.untimed =
      ((results execute failFast cases).run s).1.map Result.untimed := by
  rw [map_results ready Result.passed_untimed failFast h.result h.keeps s hs, ← hfound,
    takeThrough_eq_self]
  intro r hr
  obtain ⟨r', hr', rfl⟩ := List.mem_map.mp hr
  rcases hgoOn with hslow | hpassed
  · rw [hslow, Bool.false_and]
  · rw [Result.passed_untimed, hpassed r' hr', Bool.not_true, Bool.and_false]

/-- The reference implementation changes no files, so with some files given the result of
every case is settled, whatever the files that the cases name. -/
theorem settled_reference (launch : Command.Launch) (files : FileSystem) (cases : List Case) :
    Settled (Run.execute (Implementation.reference.observe launch)) (· = files)
      (fun c => ((Run.execute (Implementation.reference.observe launch) c).run files).1.untimed)
      cases where
  result := by
    rintro c - _ rfl
    rfl
  keeps := by
    rintro c - _ rfl
    unfold Run.execute
    split <;> rfl

end Run

/-- What a report tells beside the results does not depend on their durations. -/
theorem RunReport.of_congr_untimed (implementation : String) (cases : List Case)
    {xs ys : List Result} (h : xs.map Result.untimed = ys.map Result.untimed) :
    (RunReport.of implementation cases xs).summary =
        (RunReport.of implementation cases ys).summary ∧
      (RunReport.of implementation cases xs).notRun =
        (RunReport.of implementation cases ys).notRun := by
  constructor
  · have hsummary := congrArg Summary.ofResults h
    rw [Summary.ofResults_map_untimed, Summary.ofResults_map_untimed] at hsummary
    exact hsummary
  · have hlength := congrArg List.length h
    rw [List.length_map, List.length_map] at hlength
    simp only [RunReport.of, hlength]

open Workers in
/-- Whatever executes the cases, and however the steps of the workers follow each other, the
results are those of a first part of the cases in order, each executed once. With a worker
at all, that part is the whole unless a failure ends the run, and the report is then that
of the cases in order; and a run that leaves out cases has a failure. -/
theorem RunReport.of_finished {σ : Type} (name : String) (execute : Case → StateM σ Result)
    (ready : σ → Prop) (outcome : Case → Result) (failFast : Bool) (jobs : Nat)
    (cases : List Case) (hsettled : Run.Settled execute ready outcome cases) (p : Pool Result)
    (hreach : Reaches (Run.Yields execute ready) Result.passed failFast cases
      (Pool.start (count jobs cases.length)) p)
    (hfinished : p.Finished) :
    ∃ k ≤ cases.length,
      p.results.map Result.untimed = (cases.take k).map outcome ∧
      p.executed.Perm (List.range k) ∧
      (0 < jobs →
        ((failFast = false ∨ ∀ r ∈ p.results, r.passed = true) →
          k = cases.length ∧
          ∀ s, ready s →
            let sequential := RunReport.of name cases ((Run.results execute failFast cases).run s).1
            p.results.map Result.untimed = sequential.results.map Result.untimed ∧
            (RunReport.of name cases p.results).summary = sequential.summary ∧
            (RunReport.of name cases p.results).notRun = sequential.notRun) ∧
        (failFast = true → 0 < (RunReport.of name cases p.results).notRun →
          ∃ r ∈ p.results, r.passed = false)) := by
  have hsound := (Sound.start _).reaches hreach
  have hresults : p.results.map Result.untimed =
      (cases.take (p.begun cases)).map outcome := by
    apply Run.map_untimed_of_yields (hsound.results_forall₂ hfinished)
    intro c hc
    exact hsettled.result c (List.mem_of_mem_take hc)
  have hlength := hsound.length_results hfinished
  have hsplit : 0 < jobs → p.begun cases = cases.length ∨
      failFast = true ∧ ∃ r ∈ p.results, r.passed = false := by
    intro hjobs
    rcases Nat.eq_zero_or_pos cases.length with hzero | hpos
    · have hle : p.begun cases ≤ cases.length := Nat.min_le_right _ _
      exact Or.inl (by omega)
    · apply hsound.begun_eq_or_failed hfinished
      rw [← List.length_pos_iff, hreach.length_places, Pool.start, List.length_replicate, count]
      omega
  refine ⟨p.begun cases, Nat.min_le_right _ _, hresults, hsound.executed_perm hfinished, ?_⟩
  intro hjobs
  refine ⟨?_, ?_⟩
  · intro hgoOn
    have hbegun : p.begun cases = cases.length := by
      rcases hsplit hjobs with hall | ⟨hfast, r, hr, hfailed⟩
      · exact hall
      · rcases hgoOn with hslow | hpassed
        · simp [hslow] at hfast
        · simp [hpassed r hr] at hfailed
    rw [hbegun, List.take_length] at hresults
    refine ⟨hbegun, ?_⟩
    intro s hs
    have hall := hsettled.map_untimed_eq_results hresults hgoOn s hs
    exact ⟨hall, RunReport.of_congr_untimed name cases hall⟩
  · intro _ hnotRun
    rcases hsplit hjobs with hall | ⟨_, hfailed⟩
    · simp only [RunReport.of] at hnotRun
      omega
    · exact hfailed

def spoiltBooks : FileSystem where
  root := .directory [("work", .directory [("a.ledger", .file "2024-13-01 open\n".toUTF8)])]

def skippedCase (id : String) : Case := { id, skip := true }

/-- A case about a ledger in a file. -/
def spoiltCase : Case :=
  { id := "second", input := { file := some "a.ledger" }, expected := { parse := some .success } }

/-- A failure between two cases that are left out. -/
def failureBetweenSkips : List Case := [skippedCase "first", spoiltCase, skippedCase "third"]

def nothingLaunched : Command.Launch := fun _ _ => throw .emptyCommand

/-- What the reference implementation makes of a case with these files. -/
def spoiltResult (c : Case) : Result :=
  ((Run.execute (Implementation.reference.observe nothingLaunched) c).run spoiltBooks).1

theorem passed_spoiltResult : (spoiltResult spoiltCase).passed = false := by decide +kernel

open Workers in
/-- The failure is stored before the result of the case that comes first. -/
def overtakenPool : Pool Result :=
  { next := 2
    stop := !(spoiltResult spoiltCase).passed
    stored := [(1, spoiltResult spoiltCase), (0, spoiltResult (skippedCase "first"))]
    executed := [1, 0]
    places := [.ended, .ended] }

open Workers in
theorem reaches_overtakenPool :
    Reaches (Run.Yields (Run.execute (Implementation.reference.observe nothingLaunched))
      (· = spoiltBooks)) Result.passed true failureBetweenSkips
      (Pool.start (count 2 failureBetweenSkips.length)) overtakenPool := by
  have hyields : ∀ c, Run.Yields
      (Run.execute (Implementation.reference.observe nothingLaunched)) (· = spoiltBooks) c
      (spoiltResult c) := fun c => ⟨spoiltBooks, rfl, rfl⟩
  have hstop : (!(spoiltResult spoiltCase).passed) = true := by rw [passed_spoiltResult]; rfl
  have hstart : Reaches (Run.Yields
      (Run.execute (Implementation.reference.observe nothingLaunched)) (· = spoiltBooks))
      Result.passed true failureBetweenSkips (Pool.start (count 2 failureBetweenSkips.length))
      (Pool.start (count 2 failureBetweenSkips.length)) := .refl _
  have htaken := hstart
    |>.tail (.goOn 0 rfl rfl)
    |>.tail (.goOn 1 rfl rfl)
    |>.tail (.take 0 rfl (by decide))
    |>.tail (.take 1 rfl (by decide))
  have hstored := htaken
    |>.tail (.execute 1 rfl rfl (hyields spoiltCase))
    |>.tail (.mark 1 rfl)
    |>.tail (.store 1 rfl)
    |>.tail (.leave 1 rfl hstop)
  exact hstored
    |>.tail (.execute 0 rfl rfl (hyields (skippedCase "first")))
    |>.tail (.mark 0 rfl)
    |>.tail (.store 0 rfl)
    |>.tail (.leave 0 rfl hstop)

theorem RunReport.of_finished_overtakenPool :
    ∃ k ≤ 3, overtakenPool.results.map Result.untimed =
        (failureBetweenSkips.take k).map (fun c => (spoiltResult c).untimed) ∧
      ∃ r ∈ overtakenPool.results, r.passed = false := by
  obtain ⟨k, hk, hresults, -, hworkers⟩ := RunReport.of_finished Reference.name
    (Run.execute (Implementation.reference.observe nothingLaunched)) (· = spoiltBooks)
    (fun c => (spoiltResult c).untimed) true 2 failureBetweenSkips
    (Run.settled_reference nothingLaunched spoiltBooks failureBetweenSkips) overtakenPool
    reaches_overtakenPool (by simp [Workers.Pool.Finished, overtakenPool])
  have hnotRun : 0 < (RunReport.of Reference.name failureBetweenSkips
      overtakenPool.results).notRun := by
    simp [RunReport.of, Workers.Pool.results, overtakenPool, failureBetweenSkips]
  exact ⟨k, hk, hresults, (hworkers (by decide)).2 rfl hnotRun⟩

end LedgerConformance
