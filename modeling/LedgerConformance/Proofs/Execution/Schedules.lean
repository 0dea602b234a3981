import LedgerConformance.Execution.Workers
import Mathlib.Data.List.Sort
import Mathlib.Data.List.Range

/-!
Every schedule of workers. The indices that workers have taken and those that
are stored are together the first ones, each once, whatever the order of the
steps; so when every worker has ended, the stored results are those of a
first part of the cases.
-/

namespace LedgerConformance.Workers

variable {α β : Type} {yields : α → β → Prop} {passed : β → Bool} {failFast : Bool}
  {cases : List α}

namespace Place

/-- The index that a worker has taken and not stored. -/
def taken : Place β → List Nat
  | executing index | marking index _ | storing index _ => [index]
  | _ => []

/-- The result that a worker has and did not store. -/
def held : Place β → List (Nat × β)
  | marking index b | storing index b => [(index, b)]
  | _ => []

/-- The result that a worker has looked at for a failure. -/
def marked : Place β → List β
  | storing _ b => [b]
  | _ => []

end Place

namespace Pool

/-- The indices that were taken, whether or not their results are stored. -/
def taken (p : Pool β) : List Nat := p.places.flatMap Place.taken ++ p.stored.map Prod.fst

/-- The results that there are, stored or not. -/
def held (p : Pool β) : List (Nat × β) := p.places.flatMap Place.held ++ p.stored

/-- The results that were looked at for a failure. -/
def marked (p : Pool β) : List β := p.places.flatMap Place.marked ++ p.stored.map Prod.snd

/-- How many cases were taken. -/
def begun (p : Pool β) (cases : List α) : Nat := min p.next cases.length

end Pool

/-- What holds between the steps of the workers. -/
structure Sound (yields : α → β → Prop) (passed : β → Bool) (failFast : Bool) (cases : List α)
    (p : Pool β) : Prop where
  taken : p.taken.Perm (List.range (p.begun cases))
  executed : p.executed.Perm (p.held.map Prod.fst)
  yields : ∀ e ∈ p.held, ∃ a, cases[e.1]? = some a ∧ yields a e.2
  stopped : p.stop = true → failFast = true ∧ ∃ b ∈ p.marked, passed b = false
  ended : .ended ∈ p.places → p.stop = true ∨ cases.length ≤ p.next

theorem Sound.start (workers : Nat) :
    Sound yields passed failFast cases (Pool.start workers) where
  taken := by
    simp [Pool.taken, Pool.start, List.flatMap_replicate, Place.taken, Pool.begun]
  executed := by simp [Pool.held, Pool.start, List.flatMap_replicate, Place.held]
  yields := by simp [Pool.held, Pool.start, List.flatMap_replicate, Place.held]
  stopped := by simp [Pool.start]
  ended := by simp [Pool.start]

section Put

variable {p : Pool β} {worker : Nat} {old : Place β}

/-- What the workers have changes by what the one worker has. -/
theorem Pool.flatMap_put {γ : Type} (f : Place β → List γ)
    (hplace : p.places[worker]? = some old) (new : Place β) :
    (f old ++ (p.put worker new).places.flatMap f).Perm (f new ++ p.places.flatMap f) := by
  obtain ⟨hlt, rfl⟩ := List.getElem?_eq_some_iff.mp hplace
  have hold : p.places =
      p.places.take worker ++ p.places[worker] :: p.places.drop (worker + 1) := by
    rw [List.getElem_cons_drop, List.take_append_drop]
  have hnew : (p.put worker new).places =
      p.places.take worker ++ new :: p.places.drop (worker + 1) :=
    List.set_eq_take_cons_drop new hlt
  have hmiddle : ∀ place : Place β,
      ((p.places.take worker ++ place :: p.places.drop (worker + 1)).flatMap f).Perm
        (f place ++ ((p.places.take worker).flatMap f ++
          (p.places.drop (worker + 1)).flatMap f)) := by
    intro place
    rw [List.flatMap_append, List.flatMap_cons]
    exact List.perm_append_comm_assoc _ _ _
  rw [hnew]
  refine ((hmiddle new).append_left _).trans ?_
  refine (List.perm_append_comm_assoc _ _ _).trans (List.Perm.append_left _ ?_)
  have hback := hmiddle p.places[worker]
  rw [← hold] at hback
  exact hback.symm

theorem Pool.flatMap_put_same {γ : Type} (f : Place β → List γ)
    (hplace : p.places[worker]? = some old) (new : Place β) (hsame : f new = f old) :
    ((p.put worker new).places.flatMap f).Perm (p.places.flatMap f) := by
  have hput := Pool.flatMap_put f hplace new
  rw [hsame] at hput
  exact (List.perm_append_left_iff _).mp hput

theorem Pool.ended_mem_put {new : Place β} (h : .ended ∈ (p.put worker new).places) :
    .ended ∈ p.places ∨ new = .ended := by
  rcases List.mem_or_eq_of_mem_set h with hmem | heq
  · exact Or.inl hmem
  · exact Or.inr heq.symm

end Put

namespace Sound

variable {p q : Pool β} {worker : Nat}

/-- A pool stays sound when nothing is taken, executed or marked. -/
theorem of_perm (h : Sound yields passed failFast cases p) (htaken : q.taken.Perm p.taken)
    (hheld : q.held.Perm p.held) (hmarked : q.marked.Perm p.marked)
    (hbegun : q.begun cases = p.begun cases) (hexecuted : q.executed = p.executed)
    (hstop : q.stop = p.stop)
    (hended : .ended ∈ q.places → q.stop = true ∨ cases.length ≤ q.next) :
    Sound yields passed failFast cases q := by
  refine ⟨?_, ?_, ?_, ?_, hended⟩
  · rw [hbegun]
    exact htaken.trans h.taken
  · rw [hexecuted]
    exact h.executed.trans (hheld.symm.map Prod.fst)
  · intro e he
    exact h.yields e (hheld.mem_iff.mp he)
  · intro hstopped
    obtain ⟨hfast, b, hb, hfailed⟩ := h.stopped (hstop ▸ hstopped)
    exact ⟨hfast, b, hmarked.mem_iff.mpr hb, hfailed⟩

/-- A worker that holds nothing may go to another such place; it may end when
it is told to stop or nothing is left. -/
theorem put_idle {old new : Place β} (h : Sound yields passed failFast cases p)
    (hplace : p.places[worker]? = some old) (hold : old = .looking ∨ old = .taking)
    (hnew : new = .taking ∨ new = .ended ∧ (p.stop = true ∨ cases.length ≤ p.next)) :
    Sound yields passed failFast cases (p.put worker new) := by
  have hsame : new.taken = old.taken ∧ new.held = old.held ∧ new.marked = old.marked := by
    rcases hold with rfl | rfl <;> rcases hnew with rfl | ⟨rfl, -⟩ <;> exact ⟨rfl, rfl, rfl⟩
  have htaken := Pool.flatMap_put_same Place.taken hplace new hsame.1
  have hheld := Pool.flatMap_put_same Place.held hplace new hsame.2.1
  have hmarked := Pool.flatMap_put_same Place.marked hplace new hsame.2.2
  refine h.of_perm (htaken.append_right _) (hheld.append_right _) (hmarked.append_right _) rfl rfl
    rfl ?_
  intro hended
  rcases hnew with rfl | ⟨rfl, hend⟩
  · exact h.ended ((Pool.ended_mem_put hended).resolve_right (by simp))
  · exact hend

theorem runOut (h : Sound yields passed failFast cases p) (hle : cases.length ≤ p.next) :
    Sound yields passed failFast cases { p with next := p.next + 1 } := by
  have hbegun : Pool.begun { p with next := p.next + 1 } cases = p.begun cases := by
    show min (p.next + 1) cases.length = min p.next cases.length
    omega
  exact h.of_perm (List.Perm.refl _) (List.Perm.refl _) (List.Perm.refl _) hbegun rfl rfl
    fun _ => Or.inr (Nat.le_succ_of_le hle)

theorem take (h : Sound yields passed failFast cases p)
    (hplace : p.places[worker]? = some .taking) (hlt : p.next < cases.length) :
    Sound yields passed failFast cases
      { p.put worker (.executing p.next) with next := p.next + 1 } := by
  have htaken := Pool.flatMap_put Place.taken hplace (.executing p.next)
  have hheld : (p.put worker (.executing p.next)).held.Perm p.held :=
    (Pool.flatMap_put_same Place.held hplace (.executing p.next) rfl).append_right _
  have hmarked : (p.put worker (.executing p.next)).marked.Perm p.marked :=
    (Pool.flatMap_put_same Place.marked hplace (.executing p.next) rfl).append_right _
  refine ⟨?_, h.executed.trans (hheld.symm.map _), ?_, ?_, ?_⟩
  · have hrange : List.range (min (p.next + 1) cases.length) =
        List.range (p.begun cases) ++ [p.next] := by
      rw [Pool.begun, Nat.min_eq_left hlt, Nat.min_eq_left hlt.le, List.range_succ]
    show (_ : List Nat).Perm (List.range (min (p.next + 1) cases.length))
    rw [hrange]
    refine (htaken.append_right _).trans ?_
    exact (h.taken.cons p.next).trans (List.perm_append_singleton p.next _).symm
  · intro e he
    exact h.yields e (hheld.mem_iff.mp he)
  · intro hstop
    obtain ⟨hfast, b, hb, hfailed⟩ := h.stopped hstop
    exact ⟨hfast, b, hmarked.mem_iff.mpr hb, hfailed⟩
  · intro hended
    rcases h.ended ((Pool.ended_mem_put hended).resolve_right (by simp)) with hstop | hle
    · exact Or.inl hstop
    · omega

theorem execute {index : Nat} {a : α} {b : β} (h : Sound yields passed failFast cases p)
    (hplace : p.places[worker]? = some (.executing index)) (hcase : cases[index]? = some a)
    (hyield : yields a b) :
    Sound yields passed failFast cases
      { p.put worker (.marking index b) with executed := p.executed ++ [index] } := by
  have htaken : (p.put worker (.marking index b)).taken.Perm p.taken :=
    (Pool.flatMap_put_same Place.taken hplace (.marking index b) rfl).append_right _
  have hheld : (p.put worker (.marking index b)).held.Perm ((index, b) :: p.held) :=
    (Pool.flatMap_put Place.held hplace (.marking index b)).append_right _
  have hmarked : (p.put worker (.marking index b)).marked.Perm p.marked :=
    (Pool.flatMap_put_same Place.marked hplace (.marking index b) rfl).append_right _
  refine ⟨htaken.trans h.taken, ?_, ?_, ?_, ?_⟩
  · refine (List.perm_append_singleton index p.executed).trans ?_
    exact (h.executed.cons index).trans (hheld.symm.map Prod.fst)
  · intro e he
    rcases List.mem_cons.mp (hheld.mem_iff.mp he) with rfl | hmem
    · exact ⟨a, hcase, hyield⟩
    · exact h.yields e hmem
  · intro hstop
    obtain ⟨hfast, c, hc, hfailed⟩ := h.stopped hstop
    exact ⟨hfast, c, hmarked.mem_iff.mpr hc, hfailed⟩
  · intro hended
    exact h.ended ((Pool.ended_mem_put hended).resolve_right (by simp))

theorem mark {index : Nat} {b : β} (h : Sound yields passed failFast cases p)
    (hplace : p.places[worker]? = some (.marking index b)) :
    Sound yields passed failFast cases
      { p.put worker (.storing index b) with stop := p.stop || (failFast && !passed b) } := by
  have htaken : (p.put worker (.storing index b)).taken.Perm p.taken :=
    (Pool.flatMap_put_same Place.taken hplace (.storing index b) rfl).append_right _
  have hheld : (p.put worker (.storing index b)).held.Perm p.held :=
    (Pool.flatMap_put_same Place.held hplace (.storing index b) rfl).append_right _
  have hmarked : (p.put worker (.storing index b)).marked.Perm (b :: p.marked) :=
    (Pool.flatMap_put Place.marked hplace (.storing index b)).append_right _
  refine ⟨htaken.trans h.taken, h.executed.trans (hheld.symm.map _), ?_, ?_, ?_⟩
  · intro e he
    exact h.yields e (hheld.mem_iff.mp he)
  · intro hstop
    simp only [Bool.or_eq_true, Bool.and_eq_true, Bool.not_eq_true'] at hstop
    rcases hstop with hbefore | ⟨hfast, hfailed⟩
    · obtain ⟨hfast, c, hc, hfailed⟩ := h.stopped hbefore
      exact ⟨hfast, c, hmarked.mem_iff.mpr (List.mem_cons_of_mem _ hc), hfailed⟩
    · exact ⟨hfast, b, hmarked.mem_iff.mpr List.mem_cons_self, hfailed⟩
  · intro hended
    rcases h.ended ((Pool.ended_mem_put hended).resolve_right (by simp)) with hstop | hle
    · exact Or.inl (by simp [hstop])
    · exact Or.inr hle

/-- What a worker gives up goes to the end of what is stored. -/
theorem perm_of_stored {γ : Type} {x : γ} {xs ys stored : List γ} (h : (x :: xs).Perm ys) :
    (xs ++ (stored ++ [x])).Perm (ys ++ stored) := by
  refine List.Perm.trans ?_ (h.append_right stored)
  rw [← List.append_assoc]
  exact List.perm_append_comm

theorem store {index : Nat} {b : β} (h : Sound yields passed failFast cases p)
    (hplace : p.places[worker]? = some (.storing index b)) :
    Sound yields passed failFast cases
      { p.put worker .looking with stored := p.stored ++ [(index, b)] } := by
  refine h.of_perm ?_ ?_ ?_ rfl rfl rfl ?_
  · rw [Pool.taken, List.map_append]
    exact perm_of_stored (Pool.flatMap_put Place.taken hplace .looking)
  · exact perm_of_stored (Pool.flatMap_put Place.held hplace .looking)
  · rw [Pool.marked, List.map_append]
    exact perm_of_stored (Pool.flatMap_put Place.marked hplace .looking)
  · intro hended
    exact h.ended ((Pool.ended_mem_put hended).resolve_right (by simp))

/-- A step of any worker keeps the pool sound. -/
theorem step (h : Sound yields passed failFast cases p)
    (hstep : Step yields passed failFast cases p q) : Sound yields passed failFast cases q := by
  cases hstep with
  | leave worker hplace hstop =>
    exact h.put_idle hplace (Or.inl rfl) (Or.inr ⟨rfl, Or.inl hstop⟩)
  | goOn worker hplace _ => exact h.put_idle hplace (Or.inl rfl) (Or.inl rfl)
  | take worker hplace hlt => exact h.take hplace hlt
  | runOut worker hplace hle =>
    exact (h.put_idle hplace (Or.inr rfl) (Or.inr ⟨rfl, Or.inr hle⟩)).runOut hle
  | execute worker hplace hcase hyield => exact h.execute hplace hcase hyield
  | mark worker hplace => exact h.mark hplace
  | store worker hplace => exact h.store hplace

/-- Every schedule keeps the pool sound. -/
theorem reaches (h : Sound yields passed failFast cases p)
    (hreach : Reaches yields passed failFast cases p q) :
    Sound yields passed failFast cases q := by
  induction hreach with
  | refl => exact h
  | tail _ hstep ih => exact ih.step hstep

end Sound

section Finished

variable {p : Pool β}

theorem Pool.Finished.flatMap_eq_nil {γ : Type} (hfinished : p.Finished)
    {f : Place β → List γ} (hf : f .ended = []) : p.places.flatMap f = [] := by
  rw [List.flatMap_eq_nil_iff]
  intro place hplace
  rw [hfinished place hplace, hf]

namespace Sound

theorem stored_perm (h : Sound yields passed failFast cases p) (hfinished : p.Finished) :
    (p.stored.map Prod.fst).Perm (List.range (p.begun cases)) := by
  have htaken := h.taken
  rw [Pool.taken, hfinished.flatMap_eq_nil rfl, List.nil_append] at htaken
  exact htaken

/-- Each case that was taken has been executed once. -/
theorem executed_perm (h : Sound yields passed failFast cases p) (hfinished : p.Finished) :
    p.executed.Perm (List.range (p.begun cases)) := by
  have hexecuted := h.executed
  rw [Pool.held, hfinished.flatMap_eq_nil rfl, List.nil_append] at hexecuted
  exact hexecuted.trans (h.stored_perm hfinished)

theorem map_fst_sorted (h : Sound yields passed failFast cases p) (hfinished : p.Finished) :
    (p.stored.mergeSort fun a b => a.1 ≤ b.1).map Prod.fst = List.range (p.begun cases) := by
  have hsorted : (p.stored.mergeSort fun a b => a.1 ≤ b.1).Pairwise
      fun a b => decide (a.1 ≤ b.1) = true := by
    apply List.pairwise_mergeSort
    · intro a b c hab hbc
      simp only [decide_eq_true_eq] at hab hbc ⊢
      omega
    · intro a b
      simp only [Bool.or_eq_true, decide_eq_true_eq]
      omega
  have hpairwise : ((p.stored.mergeSort fun a b => a.1 ≤ b.1).map Prod.fst).Pairwise
      (· ≤ ·) := by
    rw [List.pairwise_map]
    exact hsorted.imp fun hab => by simpa using hab
  have hperm := ((List.mergeSort_perm p.stored fun a b => a.1 ≤ b.1).map Prod.fst).trans
    (h.stored_perm hfinished)
  exact hperm.eq_of_pairwise' hpairwise List.pairwise_le_range

theorem length_results (h : Sound yields passed failFast cases p) (hfinished : p.Finished) :
    p.results.length = p.begun cases := by
  have hlength := congrArg List.length (h.map_fst_sorted hfinished)
  rw [List.length_map, List.length_range] at hlength
  rw [Pool.results, List.length_map, hlength]

theorem results_getElem? (h : Sound yields passed failFast cases p) (hfinished : p.Finished)
    {index : Nat} {b : β} (hb : p.results[index]? = some b) :
    ∃ a, cases[index]? = some a ∧ yields a b := by
  rw [Pool.results, List.getElem?_map, Option.map_eq_some_iff] at hb
  obtain ⟨e, he, rfl⟩ := hb
  have hfirst : (List.range (p.begun cases))[index]? = some e.1 := by
    rw [← h.map_fst_sorted hfinished, List.getElem?_map, he]
    rfl
  have hindex : e.1 = index := by
    obtain ⟨_, heq⟩ := List.getElem?_eq_some_iff.mp hfirst
    rw [List.getElem_range] at heq
    exact heq.symm
  have hstored : e ∈ p.stored := List.mem_mergeSort.mp (List.mem_of_getElem? he)
  rw [← hindex]
  exact h.yields e (List.mem_append_right _ hstored)

/-- The results belong to the cases that were taken, in their order. -/
theorem results_forall₂ (h : Sound yields passed failFast cases p) (hfinished : p.Finished) :
    List.Forall₂ yields (cases.take (p.begun cases)) p.results := by
  have hlength := h.length_results hfinished
  rw [List.forall₂_iff_get]
  refine ⟨?_, ?_⟩
  · rw [List.length_take, hlength, Pool.begun]
    omega
  · intro index htaken hresult
    obtain ⟨a, ha, hyield⟩ :=
      h.results_getElem? hfinished (List.getElem?_eq_getElem hresult)
    obtain ⟨hcase, rfl⟩ := List.getElem?_eq_some_iff.mp ha
    simpa only [List.get_eq_getElem, List.getElem_take] using hyield

/-- Cases are left out only after a failure in a run that is to end with one. -/
theorem begun_eq_or_failed (h : Sound yields passed failFast cases p) (hfinished : p.Finished)
    (hworkers : p.places ≠ []) :
    p.begun cases = cases.length ∨
      failFast = true ∧ ∃ b ∈ p.results, passed b = false := by
  obtain ⟨place, hplace⟩ := List.exists_mem_of_ne_nil _ hworkers
  have hended := hfinished place hplace ▸ hplace
  rcases h.ended hended with hstop | hle
  · obtain ⟨hfast, b, hb, hfailed⟩ := h.stopped hstop
    rw [Pool.marked, hfinished.flatMap_eq_nil rfl, List.nil_append] at hb
    have hresult : b ∈ p.results :=
      ((List.mergeSort_perm p.stored _).map Prod.snd).mem_iff.mpr hb
    exact Or.inr ⟨hfast, b, hresult, hfailed⟩
  · exact Or.inl (Nat.min_eq_right hle)

end Sound

theorem Step.length_places {q : Pool β} (h : Step yields passed failFast cases p q) :
    q.places.length = p.places.length := by
  cases h <;> exact List.length_set

theorem Reaches.length_places {q : Pool β} (h : Reaches yields passed failFast cases p q) :
    q.places.length = p.places.length := by
  induction h with
  | refl => rfl
  | tail _ hstep ih => rw [hstep.length_places, ih]

end Finished

end LedgerConformance.Workers
