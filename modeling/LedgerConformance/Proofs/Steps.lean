import Mathlib.Data.List.Forall2

/-!
Steps that may fail. A chain of steps comes to a value exactly when each of them
does, the later ones with what the earlier ones came to; otherwise it fails as the
first of them that does.
-/

namespace LedgerConformance

variable {ε α β : Type}

theorem bind_eq_ok_iff {x : Except ε α} {f : α → Except ε β} {b : β} :
    (x >>= f) = .ok b ↔ ∃ a, x = .ok a ∧ f a = .ok b := by
  cases x with
  | error e =>
    constructor
    · intro h
      cases h
    · rintro ⟨a, ha, -⟩
      cases ha
  | ok a =>
    constructor
    · intro h
      exact ⟨a, rfl, h⟩
    · rintro ⟨a', ha, h⟩
      cases ha
      exact h

/-- A chain of steps fails exactly when its first step does, or the others do with what
the first one came to. -/
theorem bind_eq_error_iff {x : Except ε α} {f : α → Except ε β} {e : ε} :
    (x >>= f) = .error e ↔ x = .error e ∨ ∃ a, x = .ok a ∧ f a = .error e := by
  cases x with
  | error e' =>
    constructor
    · intro h
      cases h
      exact Or.inl rfl
    · rintro (h | ⟨a, ha, -⟩)
      · cases h
        rfl
      · cases ha
  | ok a =>
    constructor
    · intro h
      exact Or.inr ⟨a, rfl, h⟩
    · rintro (h | ⟨a', ha, h⟩)
      · cases h
      · cases ha
        exact h

/-- A step that comes to a value has done so by a first value. -/
theorem exists_of_bind_eq_ok {x : Except ε α} {f : α → Except ε β} {b : β}
    (h : (x >>= f) = .ok b) : ∃ a, x = .ok a ∧ f a = .ok b := bind_eq_ok_iff.mp h

/-- A step for each item of a list comes to values exactly when each of the steps does. -/
theorem mapM_eq_ok_iff {f : α → Except ε β} {as : List α} {bs : List β} :
    as.mapM f = .ok bs ↔ List.Forall₂ (fun a b => f a = .ok b) as bs := by
  induction as generalizing bs with
  | nil =>
    constructor
    · intro h
      cases h
      exact .nil
    · intro h
      cases h
      rfl
  | cons a as ih =>
    rw [List.mapM_cons, bind_eq_ok_iff]
    constructor
    · rintro ⟨b, hb, h⟩
      obtain ⟨bs', hbs, h⟩ := bind_eq_ok_iff.mp h
      cases h
      exact .cons hb (ih.mp hbs)
    · intro h
      cases h with
      | cons hb hbs => exact ⟨_, hb, bind_eq_ok_iff.mpr ⟨_, ih.mpr hbs, rfl⟩⟩

/-- Where a step for each item fails, the step for one of them does. -/
theorem exists_of_mapM_eq_error {f : α → Except ε β} {as : List α} {e : ε}
    (h : as.mapM f = .error e) : ∃ a ∈ as, f a = .error e := by
  induction as with
  | nil => cases h
  | cons a as ih =>
    rw [List.mapM_cons] at h
    rcases bind_eq_error_iff.mp h with hfirst | ⟨b, -, h⟩
    · exact ⟨a, List.mem_cons_self, hfirst⟩
    · rcases bind_eq_error_iff.mp h with hrest | ⟨bs, -, h⟩
      · obtain ⟨a', ha', he⟩ := ih hrest
        exact ⟨a', List.mem_cons_of_mem a ha', he⟩
      · cases h

theorem eq_ok_of_toOption_eq_some {x : Except ε α} {a : α} (h : x.toOption = some a) :
    x = .ok a := by
  cases x with
  | error e => cases h
  | ok b =>
    cases h
    rfl

/-- A chain of steps whose results are known comes to its last one. -/
theorem bind_eq_some_of {α β : Type} {a : Option α} {f : α → Option β} {x : α} {b : β}
    (ha : a = some x) (hf : f x = some b) : (a >>= f) = some b := by
  rw [ha]
  exact hf

/-- Behind a step that comes to a value the others go on with it, on what it leaves. -/
theorem run_bind_of_run_eq_ok {σ : Type} {a : ExceptT ε (StateM σ) α}
    {f : α → ExceptT ε (StateM σ) β} {before middle : σ} {x : α}
    (h : a.run.run before = (.ok x, middle)) :
    (a >>= f).run.run before = (f x).run.run middle := by
  change (ExceptT.bindCont f ((a.run.run before).1)).run (a.run.run before).2 = _
  rw [h]
  rfl

/-- Two steps on a state come to a value exactly when the first one does, and the second
one with the state that the first one leaves. -/
theorem run_bind_eq_ok_iff {σ : Type} {a : ExceptT ε (StateM σ) α}
    {f : α → ExceptT ε (StateM σ) β} {before after : σ} {y : β} :
    (a >>= f).run.run before = (.ok y, after) ↔
      ∃ x middle, a.run.run before = (.ok x, middle) ∧ (f x).run.run middle = (.ok y, after) := by
  change (ExceptT.bindCont f ((a.run.run before).1)).run (a.run.run before).2 = (.ok y, after) ↔ _
  cases hfirst : a.run.run before with
  | mk result middle =>
    cases result with
    | ok x =>
      constructor
      · intro h
        exact ⟨x, middle, rfl, h⟩
      · rintro ⟨x', middle', heq, h⟩
        cases heq
        exact h
    | error e =>
      constructor
      · intro h
        cases h
      · rintro ⟨x', middle', heq, -⟩
        cases heq

end LedgerConformance
