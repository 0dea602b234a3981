import LedgerConformance.Ledger.Lifecycle

/-!
The rules of accounts without a pass over the ledger. Which breaches a
directive has is said by the directives of the whole ledger: by the openings
and closings of its accounts, their dates, and the order of date and line.
Beside the rules stands the order in which directives are taken.
-/

namespace LedgerConformance.Ledger

namespace Directive

/-- The account that a directive opens. -/
def opened? (d : Directive) : Option String :=
  match d.content with
  | .opening account _ => some account
  | _ => none

/-- The account that a directive closes. -/
def closed? (d : Directive) : Option String :=
  match d.content with
  | .closing account => some account
  | _ => none

/-- A directive that neither opens nor closes an account. -/
def IsUse (d : Directive) : Prop := d.opened? = none ∧ d.closed? = none

theorem opening_or_closing_or_use (d : Directive) :
    (∃ account currencies, d.content = .opening account currencies) ∨
      (∃ account, d.content = .closing account) ∨ d.IsUse := by
  cases hcontent : d.content <;> simp [IsUse, opened?, closed?, hcontent]

/-- What is told by openings and closings is the third case for any other
directive. -/
theorem IsUse.match_content {α : Type} {d : Directive} (h : d.IsUse)
    (onOpening : String → List String → α) (onClosing : String → α) (onUse : α) :
    (match d.content with
      | .opening account currencies => onOpening account currencies
      | .closing account => onClosing account
      | _ => onUse) = onUse := by
  obtain ⟨hopened, hclosed⟩ := h
  unfold opened? at hopened
  unfold closed? at hclosed
  cases hcontent : d.content <;> simp_all

theorem opened?_eq {d : Directive} {account : String} {currencies : List String}
    (h : d.content = .opening account currencies) : d.opened? = some account := by
  simp [opened?, h]

theorem closed?_eq {d : Directive} {account : String} (h : d.content = .closing account) :
    d.closed? = some account := by
  simp [closed?, h]

/-- Earlier by date, and by line on the same day. -/
def Precedes (a b : Directive) : Prop :=
  a.date < b.date ∨ (a.date = b.date ∧ a.line < b.line)

instance (a b : Directive) : Decidable (a.Precedes b) := inferInstanceAs (Decidable (_ ∨ _))

end Directive

/-- Some opening of the account is dated on or before the day. -/
def OpenBy (ds : List Directive) (account : String) (day : Date) : Prop :=
  ∃ o ∈ ds, o.opened? = some account ∧ o.date ≤ day

instance (ds : List Directive) (account : String) (day : Date) :
    Decidable (OpenBy ds account day) :=
  inferInstanceAs (Decidable (∃ o ∈ ds, _))

/-- A closing of the account takes effect when it is dated on or after an opening. -/
def ClosesOpen (ds : List Directive) (account : String) (c : Directive) : Prop :=
  c.closed? = some account ∧ OpenBy ds account c.date

instance (ds : List Directive) (account : String) (c : Directive) :
    Decidable (ClosesOpen ds account c) := inferInstanceAs (Decidable (_ ∧ _))

/-- A closing of the account took effect before the day. -/
def ClosedBefore (ds : List Directive) (account : String) (day : Date) : Prop :=
  ∃ c ∈ ds, ClosesOpen ds account c ∧ c.date < day

instance (ds : List Directive) (account : String) (day : Date) :
    Decidable (ClosedBefore ds account day) :=
  inferInstanceAs (Decidable (∃ c ∈ ds, _))

/-- The breach of using an account on a day. -/
def useBreach? (ds : List Directive) (day : Date) (account : String) : Option Violation :=
  if ¬ OpenBy ds account day then some (.unknownAccount account)
  else if ClosedBefore ds account day then some (.inactiveAccount account)
  else none

/-- The breaches of a directive by the rules. -/
def breaches (ds : List Directive) (d : Directive) : List Violation :=
  match d.content with
  | .opening account _ =>
    if ∃ o ∈ ds, o.opened? = some account ∧ o.Precedes d then [.duplicateOpen account] else []
  | .closing account =>
    if ¬ OpenBy ds account d.date then [.unknownAccount account]
    else if ∃ c ∈ ds, ClosesOpen ds account c ∧ c.Precedes d then [.alreadyClosed account]
    else []
  | _ => d.accounts.filterMap (useBreach? ds d.date)

/-- The messages that the rules ask for. -/
def expectedMessages (ds : List Directive) : List String :=
  ds.flatMap fun d => (breaches ds d).map Violation.message

/-- By date, then openings before uses before closings, then by line. -/
theorem noLater_iff {a b : Directive} : noLater a b = true ↔
    a.date < b.date ∨ (a.date = b.date ∧ (dayRank a.content < dayRank b.content ∨
      (dayRank a.content = dayRank b.content ∧ a.line ≤ b.line))) := by
  unfold noLater Date.compare
  rcases Date.lt_or_eq_or_gt a.date b.date with hlt | heq | hgt
  · simp [hlt]
  · simp [heq, Date.lt_irrefl]
  · have hlt : ¬ a.date < b.date := Date.le_of_lt hgt
    have hne : a.date ≠ b.date := fun heq => Date.lt_irrefl b.date (heq ▸ hgt)
    simp [hlt, hgt, hne]

theorem noLater_trans (a b c : Directive) (hab : noLater a b = true) (hbc : noLater b c = true) :
    noLater a c = true := by
  rw [noLater_iff] at *
  rcases hab with hab | ⟨hab, hrank⟩
  · rcases hbc with hbc | ⟨hbc, _⟩
    · exact Or.inl (Date.lt_trans hab hbc)
    · exact Or.inl (hbc ▸ hab)
  · rcases hbc with hbc | ⟨hbc, hrank'⟩
    · exact Or.inl (hab ▸ hbc)
    · exact Or.inr ⟨hab.trans hbc, by omega⟩

theorem noLater_total (a b : Directive) : (noLater a b || noLater b a) = true := by
  rw [Bool.or_eq_true, noLater_iff, noLater_iff]
  rcases Date.lt_or_eq_or_gt a.date b.date with hlt | heq | hgt
  · exact Or.inl (Or.inl hlt)
  · rw [heq]
    simp only [true_and, Date.lt_irrefl, false_or]
    omega
  · exact Or.inr (Or.inl hgt)

theorem date_le_of_noLater {a b : Directive} (h : noLater a b = true) : a.date ≤ b.date := by
  rcases noLater_iff.mp h with hlt | ⟨heq, _⟩
  · exact Date.le_of_lt hlt
  · exact heq ▸ Date.le_refl _

theorem dayRank_of_isUse {d : Directive} (h : d.IsUse) : dayRank d.content = 1 :=
  h.match_content (fun _ _ => 0) (fun _ => 2) 1

theorem dayRank_of_opened? {d : Directive} {account : String} (h : d.opened? = some account) :
    dayRank d.content = 0 := by
  unfold Directive.opened? at h
  split at h
  · simp_all [dayRank]
  · contradiction

theorem dayRank_of_closed? {d : Directive} {account : String} (h : d.closed? = some account) :
    dayRank d.content = 2 := by
  unfold Directive.closed? at h
  split at h
  · simp_all [dayRank]
  · contradiction

/-- A directive does not open and close an account at once. -/
theorem opened?_ne_of_closed? {d : Directive} {account name : String}
    (h : d.closed? = some account) : d.opened? ≠ some name := by
  intro hopened
  have hrank := dayRank_of_opened? hopened
  rw [dayRank_of_closed? h] at hrank
  omega

/-- A directive that comes no later than an opening, and opens nothing, is of an
earlier day. -/
theorem date_lt_of_noLater_opening {a o : Directive} {account : String}
    (h : noLater a o = true) (ho : o.opened? = some account) (ha : 0 < dayRank a.content) :
    a.date < o.date := by
  rcases noLater_iff.mp h with hlt | ⟨_, hrank⟩
  · exact hlt
  · rw [dayRank_of_opened? ho] at hrank
    omega

/-- A closing that comes no later than a directive that closes nothing is of an
earlier day. -/
theorem date_lt_of_closing_noLater {c d : Directive} {account : String}
    (h : noLater c d = true) (hc : c.closed? = some account) (hd : dayRank d.content < 2) :
    c.date < d.date := by
  rcases noLater_iff.mp h with hlt | ⟨_, hrank⟩
  · exact hlt
  · rw [dayRank_of_closed? hc] at hrank
    omega

end LedgerConformance.Ledger
