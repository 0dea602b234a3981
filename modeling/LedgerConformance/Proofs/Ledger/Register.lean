import LedgerConformance.Proofs.Ledger.AccountRules
import Mathlib.Data.List.Basic
import Mathlib.Tactic.ByContra

/-!
What the register knows. It tracks the directives that were taken: for each
account it holds the day of its first opening and of the first closing that
took effect. So the findings of a step over sorted directives are the breaches
of its directive, and no account is looked up before the day of its opening.
-/

namespace LedgerConformance.Ledger

namespace Register

/-- The register after the given directives. -/
def after (r : Register) (history : List Directive) : Register :=
  history.foldl (fun r d => (r.step d).1) r

@[simp] theorem after_nil (r : Register) : r.after [] = r := rfl

theorem after_concat (r : Register) (history : List Directive) (d : Directive) :
    r.after (history ++ [d]) = ((r.after history).step d).1 := by
  simp [after]

theorem find?_cons (r : Register) (account name : String) (span : Lifespan) :
    Register.find? ((account, span) :: r) name =
      if name = account then some span else r.find? name := by
  by_cases hname : name = account
  · simp [find?, hname]
  · have hbeq : (name == account) = false := by simp [hname]
    simp [find?, List.lookup_cons, hname, hbeq]

theorem find?_close (r : Register) (account name : String) (day : Date) :
    (r.close account day).find? name =
      if name = account then (r.find? name).map fun span => { span with closed := some day }
      else r.find? name := by
  induction r with
  | nil => simp [close, find?]
  | cons entry r ih =>
    obtain ⟨key, span⟩ := entry
    have hclose : Register.close ((key, span) :: r) account day =
        (key, if key = account then { span with closed := some day } else span) ::
          Register.close r account day := by
      by_cases hkey : key = account <;> simp [close, hkey]
    rw [hclose, find?_cons, find?_cons, ih]
    by_cases hname : name = key
    · subst hname
      by_cases hkey : name = account <;> simp [hkey]
    · simp [hname]

end Register

/-- What the register holds of an account, by the directives that were taken:
nothing, the day of an opening, or also the day of the first closing that took
effect. -/
inductive Holds (history : List Directive) (account : String) : Option Lifespan → Prop
  | unknown : (∀ o ∈ history, o.opened? ≠ some account) → Holds history account none
  | active {o : Directive} : o ∈ history → o.opened? = some account →
    (∀ c ∈ history, ¬ ClosesOpen history account c) → Holds history account (some ⟨o.date, none⟩)
  | ended {o c : Directive} : o ∈ history → o.opened? = some account →
    c ∈ history → ClosesOpen history account c →
    (∀ e ∈ history, ClosesOpen history account e → c.date ≤ e.date) →
    Holds history account (some ⟨o.date, some c.date⟩)

namespace Holds

variable {history : List Directive} {account : String} {entry : Option Lifespan}

/-- An account is held exactly when it was opened. -/
theorem opened_iff (h : Holds history account entry) :
    (∃ o ∈ history, o.opened? = some account) ↔ entry.isSome = true := by
  cases h with
  | unknown hnone => simpa using hnone
  | active ho hopen _ => exact iff_of_true ⟨_, ho, hopen⟩ rfl
  | ended ho hopen _ _ _ => exact iff_of_true ⟨_, ho, hopen⟩ rfl

/-- An account is held as closed exactly when a closing took effect. -/
theorem closed_iff (h : Holds history account entry) :
    (∃ c ∈ history, ClosesOpen history account c) ↔
      ∃ day, entry.bind Lifespan.closed = some day := by
  cases h with
  | unknown hnone =>
    refine iff_of_false ?_ (by simp)
    rintro ⟨c, _, _, o, ho, hopened, _⟩
    exact hnone o ho hopened
  | active _ _ hnone =>
    refine iff_of_false ?_ (by simp)
    rintro ⟨c, hc, heffect⟩
    exact hnone c hc heffect
  | ended _ _ hc heffect _ => exact iff_of_true ⟨_, hc, heffect⟩ ⟨_, rfl⟩

/-- The day of the closing that is held is the first one. -/
theorem closed_before_iff (h : Holds history account entry) (day : Date) :
    (∃ c ∈ history, ClosesOpen history account c ∧ c.date < day) ↔
      ∃ closing, entry.bind Lifespan.closed = some closing ∧ closing < day := by
  constructor
  · rintro ⟨c, hc, heffect, hdate⟩
    cases h with
    | unknown hnone =>
      obtain ⟨_, o, ho, hopened, _⟩ := heffect
      exact absurd hopened (hnone o ho)
    | active _ _ hnone => exact absurd heffect (hnone c hc)
    | ended _ _ _ _ hleast =>
      exact ⟨_, rfl, Date.lt_of_le_of_lt (hleast c hc heffect) hdate⟩
  · rintro ⟨closing, hclosing, hdate⟩
    cases h with
    | unknown => cases hclosing
    | active => cases hclosing
    | ended _ _ hc heffect _ =>
      cases hclosing
      exact ⟨_, hc, heffect, hdate⟩

end Holds

/-- The register holds what the directives that were taken say of each account. -/
def Tracks (r : Register) (history : List Directive) : Prop :=
  ∀ account, Holds history account (r.find? account)

theorem tracks_nil : Tracks [] [] := fun _ => .unknown (by simp)

section Concat

variable {history : List Directive} {d : Directive} {account : String}

/-- Taking a directive makes no earlier closing take effect, for an opening comes
before the closings of its day. -/
theorem closesOpen_concat {c : Directive} (hbefore : ∀ e ∈ history, noLater e d = true)
    (hc : c ∈ history) :
    ClosesOpen (history ++ [d]) account c ↔ ClosesOpen history account c := by
  constructor
  · rintro ⟨hclosed, o, ho, hopened, hdate⟩
    refine ⟨hclosed, o, ?_, hopened, hdate⟩
    rcases List.mem_append.mp ho with ho | ho
    · exact ho
    · obtain rfl := List.mem_singleton.mp ho
      have hlt := date_lt_of_closing_noLater (hbefore c hc) hclosed
        (by rw [dayRank_of_opened? hopened]; omega)
      exact absurd hlt hdate
  · rintro ⟨hclosed, o, ho, hopened, hdate⟩
    exact ⟨hclosed, o, List.mem_append_left _ ho, hopened, hdate⟩

/-- The closings that take effect with one directive more: those before, and the
new one if it closes an account that was opened. -/
theorem closesOpen_of_mem_concat {c : Directive} (hbefore : ∀ e ∈ history, noLater e d = true)
    (hc : c ∈ history ++ [d]) (heffect : ClosesOpen (history ++ [d]) account c) :
    (c ∈ history ∧ ClosesOpen history account c) ∨
      (c = d ∧ d.closed? = some account ∧ ∃ o ∈ history, o.opened? = some account) := by
  rcases List.mem_append.mp hc with hc | hc
  · exact Or.inl ⟨hc, (closesOpen_concat hbefore hc).mp heffect⟩
  · obtain rfl := List.mem_singleton.mp hc
    obtain ⟨hclosed, o, ho, hopened, _⟩ := heffect
    refine Or.inr ⟨rfl, hclosed, o, ?_, hopened⟩
    rcases List.mem_append.mp ho with ho | ho
    · exact ho
    · rw [List.mem_singleton.mp ho] at hopened
      exact absurd hopened (opened?_ne_of_closed? hclosed)

theorem closesOpen_self {o : Directive} (hbefore : ∀ e ∈ history, noLater e d = true)
    (hd : d.closed? = some account) (ho : o ∈ history) (hopened : o.opened? = some account) :
    ClosesOpen (history ++ [d]) account d :=
  ⟨hd, o, List.mem_append_left _ ho, hopened, date_le_of_noLater (hbefore o ho)⟩

namespace Holds

variable {entry : Option Lifespan}

/-- An account that was never opened stays unknown until it is. -/
theorem concat_unknown (hnone : ∀ o ∈ history, o.opened? ≠ some account)
    (hd : d.opened? ≠ some account) : Holds (history ++ [d]) account none :=
  .unknown (List.forall_mem_append.mpr ⟨hnone, List.forall_mem_singleton.mpr hd⟩)

/-- A directive that does not close the account, nor open it for the first time,
leaves what is held. -/
theorem concat (h : Holds history account entry)
    (hbefore : ∀ e ∈ history, noLater e d = true)
    (hopened : d.opened? = some account → entry.isSome = true)
    (hclosed : d.closed? ≠ some account) : Holds (history ++ [d]) account entry := by
  cases h with
  | unknown hnone =>
    refine concat_unknown hnone ?_
    intro heq
    exact absurd (hopened heq) (by simp)
  | active ho hopen hnone =>
    refine .active (List.mem_append_left _ ho) hopen ?_
    intro c hc heffect
    rcases closesOpen_of_mem_concat hbefore hc heffect with ⟨hc, heffect⟩ | ⟨_, heq, _⟩
    · exact hnone c hc heffect
    · exact hclosed heq
  | ended ho hopen hc heffect hleast =>
    refine .ended (List.mem_append_left _ ho) hopen (List.mem_append_left _ hc)
      ((closesOpen_concat hbefore hc).mpr heffect) ?_
    intro e he heffect'
    rcases closesOpen_of_mem_concat hbefore he heffect' with ⟨he, heffect'⟩ | ⟨_, heq, _⟩
    · exact hleast e he heffect'
    · exact absurd heq hclosed

/-- The first opening of an account. -/
theorem concat_opening (h : Holds history account none)
    (hbefore : ∀ e ∈ history, noLater e d = true) (hd : d.opened? = some account) :
    Holds (history ++ [d]) account (some ⟨d.date, none⟩) := by
  cases h with
  | unknown hnone =>
    refine .active (by simp) hd ?_
    intro c hc heffect
    rcases closesOpen_of_mem_concat hbefore hc heffect with ⟨_, _, o, ho, heq, _⟩ | ⟨_, _, o, ho, heq⟩
    · exact hnone o ho heq
    · exact hnone o ho heq

/-- A closing ends an account that is active, and leaves the others. -/
theorem concat_closing (h : Holds history account entry)
    (hbefore : ∀ e ∈ history, noLater e d = true) (hd : d.closed? = some account) :
    Holds (history ++ [d]) account
      (entry.map fun span => { span with closed := some (span.closed.getD d.date) }) := by
  cases h with
  | unknown hnone => exact concat_unknown hnone (opened?_ne_of_closed? hd)
  | active ho hopen hnone =>
    refine .ended (List.mem_append_left _ ho) hopen (by simp)
      (closesOpen_self hbefore hd ho hopen) ?_
    intro e he heffect
    rcases closesOpen_of_mem_concat hbefore he heffect with ⟨he, heffect⟩ | ⟨rfl, _⟩
    · exact absurd heffect (hnone e he)
    · exact Date.le_refl _
  | ended ho hopen hc heffect hleast =>
    refine .ended (List.mem_append_left _ ho) hopen (List.mem_append_left _ hc)
      ((closesOpen_concat hbefore hc).mpr heffect) ?_
    intro e he heffect'
    rcases closesOpen_of_mem_concat hbefore he heffect' with ⟨he, heffect'⟩ | ⟨rfl, _⟩
    · exact hleast e he heffect'
    · exact date_le_of_noLater (hbefore _ hc)

end Holds

end Concat

namespace Register

variable {r : Register} {d : Directive} {name : String}

theorem step_of_isUse (h : d.IsUse) :
    r.step d = (r, d.accounts.filterMap fun account =>
      (r.use? account d.date).map fun v => ⟨referenceLine d account, v⟩) :=
  h.match_content _ _ _

/-- An opening is held unless its account is. -/
theorem find?_step_opening {currencies : List String} (h : d.content = .opening name currencies)
    (account : String) :
    (r.step d).1.find? account =
      if account = name then some ((r.find? account).getD ⟨d.date, none⟩) else r.find? account := by
  simp only [step, h]
  by_cases haccount : account = name
  · subst haccount
    cases hfind : r.find? account with
    | none => simp [find?_cons]
    | some span => simp [hfind]
  · cases hfind : r.find? name with
    | none => simp [find?_cons, haccount]
    | some span => simp [haccount]

/-- A closing is held of an account that is held without one. -/
theorem find?_step_closing (h : d.content = .closing name) (account : String) :
    (r.step d).1.find? account =
      if account = name then
        (r.find? account).map fun span => { span with closed := some (span.closed.getD d.date) }
      else r.find? account := by
  simp only [step, h]
  by_cases haccount : account = name
  · subst haccount
    cases hfind : r.find? account with
    | none => simp [hfind]
    | some span =>
      obtain ⟨opened, closed⟩ := span
      cases closed with
      | none => simp [find?_close, hfind]
      | some closing => simp [hfind]
  · cases hfind : r.find? name with
    | none => simp [haccount]
    | some span =>
      obtain ⟨opened, closed⟩ := span
      cases closed with
      | none => simp [find?_close, haccount]
      | some closing => simp [haccount]

end Register

/-- A step keeps the register in line with the directives that were taken. -/
theorem Tracks.step {r : Register} {history : List Directive} {d : Directive}
    (h : Tracks r history) (hbefore : ∀ e ∈ history, noLater e d = true) :
    Tracks (r.step d).1 (history ++ [d]) := by
  intro account
  -- Whatever the directive does, it leaves the accounts that it does not name.
  have hother : d.opened? ≠ some account → d.closed? ≠ some account →
      Holds (history ++ [d]) account (r.find? account) := fun hopened hclosed =>
    (h account).concat hbefore (fun heq => absurd heq hopened) hclosed
  rcases d.opening_or_closing_or_use with ⟨name, currencies, hcontent⟩ | ⟨name, hcontent⟩ | huse
  · have hopened : d.opened? = some name := Directive.opened?_eq hcontent
    have hclosed : d.closed? ≠ some account := fun heq => opened?_ne_of_closed? heq hopened
    rw [Register.find?_step_opening hcontent]
    by_cases heq : account = name
    · subst heq
      rw [if_pos rfl]
      cases hfind : r.find? account with
      | none => exact (hfind ▸ h account).concat_opening hbefore hopened
      | some span => exact (hfind ▸ h account).concat hbefore (fun _ => rfl) hclosed
    · rw [if_neg heq]
      exact hother (by simp [hopened, Ne.symm heq]) hclosed
  · have hclosed : d.closed? = some name := Directive.closed?_eq hcontent
    rw [Register.find?_step_closing hcontent]
    by_cases heq : account = name
    · subst heq
      rw [if_pos rfl]
      exact (h account).concat_closing hbefore hclosed
    · rw [if_neg heq]
      exact hother (opened?_ne_of_closed? hclosed) (by simp [hclosed, Ne.symm heq])
  · rw [Register.step_of_isUse huse]
    exact hother (by simp [huse.1]) (by simp [huse.2])

/-- A moment of the pass over `ds`: `history` was taken before `d`, and the rest
comes no earlier than `d`. -/
structure Moment (ds history : List Directive) (d : Directive) : Prop where
  known : ∀ e ∈ history, e ∈ ds
  before : ∀ e ∈ history, noLater e d = true
  later : ∀ e ∈ ds, e ∉ history → noLater d e = true

theorem Moment.of_sorted {history rest : List Directive} {d : Directive}
    (h : (history ++ d :: rest).Pairwise fun a b => noLater a b = true) :
    Moment (history ++ d :: rest) history d := by
  rw [List.pairwise_append, List.pairwise_cons] at h
  obtain ⟨_, ⟨hrest, _⟩, hcross⟩ := h
  refine ⟨fun e he => List.mem_append_left _ he, fun e he => hcross e he d List.mem_cons_self, ?_⟩
  intro e he hnot
  rcases List.mem_append.mp he with he | he
  · exact absurd he hnot
  · rcases List.mem_cons.mp he with rfl | he
    · exact noLater_iff.mpr (Or.inr ⟨rfl, by omega⟩)
    · exact hrest e he

namespace Moment

variable {ds history : List Directive} {d : Directive} {account : String}

/-- The openings up to the day of a use or a closing were taken before it. -/
theorem openBy_iff (m : Moment ds history d) (hrank : 0 < dayRank d.content) :
    OpenBy ds account d.date ↔ ∃ o ∈ history, o.opened? = some account := by
  constructor
  · rintro ⟨o, ho, hopened, hdate⟩
    refine ⟨o, ?_, hopened⟩
    by_contra hnot
    exact hdate (date_lt_of_noLater_opening (m.later o ho hnot) hopened hrank)
  · rintro ⟨o, ho, hopened⟩
    exact ⟨o, m.known o ho, hopened, date_le_of_noLater (m.before o ho)⟩

/-- What later directives say does not change whether a closing took effect. -/
theorem closesOpen_iff (m : Moment ds history d) {c : Directive} (hc : c ∈ history) :
    ClosesOpen history account c ↔ ClosesOpen ds account c := by
  constructor
  · rintro ⟨hclosed, o, ho, hrest⟩
    exact ⟨hclosed, o, m.known o ho, hrest⟩
  · rintro ⟨hclosed, o, ho, hopened, hdate⟩
    refine ⟨hclosed, o, ?_, hopened, hdate⟩
    by_contra hnot
    have hlater := noLater_trans c d o (m.before c hc) (m.later o ho hnot)
    exact hdate (date_lt_of_noLater_opening hlater hopened
      (by rw [dayRank_of_closed? hclosed]; omega))

theorem exists_closesOpen_iff (m : Moment ds history d) :
    (∃ c ∈ history, ClosesOpen ds account c) ↔ ∃ c ∈ history, ClosesOpen history account c :=
  exists_congr fun _ => and_congr_right fun hc => (m.closesOpen_iff hc).symm

theorem mem_of_date_lt (m : Moment ds history d) {e : Directive} (he : e ∈ ds)
    (hdate : e.date < d.date) : e ∈ history := by
  by_contra hnot
  exact date_le_of_noLater (m.later e he hnot) hdate

/-- The closings before the day of a directive were taken before it. -/
theorem closedBefore_iff (m : Moment ds history d) :
    ClosedBefore ds account d.date ↔
      ∃ c ∈ history, ClosesOpen history account c ∧ c.date < d.date := by
  constructor
  · rintro ⟨c, hc, heffect, hdate⟩
    have hmem := m.mem_of_date_lt hc hdate
    exact ⟨c, hmem, (m.closesOpen_iff hmem).mpr heffect, hdate⟩
  · rintro ⟨c, hc, heffect, hdate⟩
    exact ⟨c, m.known c hc, (m.closesOpen_iff hc).mp heffect, hdate⟩

end Moment

/-- No account of the register was opened after the day of the directive that is
taken. -/
theorem Tracks.opened_le {r : Register} {history : List Directive} {d : Directive}
    (h : Tracks r history) (hbefore : ∀ e ∈ history, noLater e d = true) {account : String}
    {span : Lifespan} (hfind : r.find? account = some span) : span.opened ≤ d.date := by
  have hholds := h account
  rw [hfind] at hholds
  cases hholds with
  | active ho _ _ => exact date_le_of_noLater (hbefore _ ho)
  | ended ho _ _ _ _ => exact date_le_of_noLater (hbefore _ ho)

/-- Using an account is a breach exactly by the rules. -/
theorem Tracks.use?_eq {r : Register} {ds history : List Directive} {d : Directive}
    (h : Tracks r history) (m : Moment ds history d) (hrank : 0 < dayRank d.content)
    (account : String) : r.use? account d.date = useBreach? ds d.date account := by
  unfold Register.use? useBreach?
  simp only [m.openBy_iff hrank, m.closedBefore_iff, (h account).opened_iff,
    (h account).closed_before_iff]
  cases hfind : r.find? account with
  | none => rfl
  | some span =>
    have hday : ¬ d.date < span.opened := h.opened_le m.before hfind
    obtain ⟨opened, closed⟩ := span
    cases closed with
    | none => simp [hday]
    | some closing => simp [hday]

/-- The breaches of a directive by what was taken before it. -/
def breachesAt (ds history : List Directive) (d : Directive) : List Violation :=
  match d.content with
  | .opening account _ =>
    if ∃ o ∈ history, o.opened? = some account then [.duplicateOpen account] else []
  | .closing account =>
    if ¬ OpenBy ds account d.date then [.unknownAccount account]
    else if ∃ c ∈ history, ClosesOpen ds account c then [.alreadyClosed account]
    else []
  | _ => d.accounts.filterMap (useBreach? ds d.date)

theorem breachesAt_of_isUse {ds history : List Directive} {d : Directive} (h : d.IsUse) :
    breachesAt ds history d = d.accounts.filterMap (useBreach? ds d.date) :=
  h.match_content _ _ _

/-- The findings of a step are the breaches of its directive. -/
theorem Tracks.findings {r : Register} {ds history : List Directive} {d : Directive}
    (h : Tracks r history) (m : Moment ds history d) :
    (r.step d).2.map Located.what = breachesAt ds history d := by
  rcases d.opening_or_closing_or_use with ⟨name, currencies, hcontent⟩ | ⟨name, hcontent⟩ | huse
  · simp only [Register.step, breachesAt, hcontent, (h name).opened_iff]
    cases r.find? name with
    | none => rfl
    | some span => rfl
  · have hrank : 0 < dayRank d.content := by simp [hcontent, dayRank]
    have hclosed := m.exists_closesOpen_iff.trans (h name).closed_iff
    simp only [Register.step, breachesAt, hcontent, m.openBy_iff hrank, (h name).opened_iff]
    cases hfind : r.find? name with
    | none => rfl
    | some span =>
      rw [hfind] at hclosed
      obtain ⟨opened, closed⟩ := span
      cases closed with
      | none => simp [hclosed]
      | some closing => simp [hclosed]
  · have hrank : 0 < dayRank d.content := by
      rw [dayRank_of_isUse huse]
      omega
    rw [Register.step_of_isUse huse, breachesAt_of_isUse huse, List.map_filterMap]
    apply List.filterMap_congr
    intro account _
    rw [h.use?_eq m hrank, Option.map_map]
    exact congrFun Option.map_id _

end LedgerConformance.Ledger
