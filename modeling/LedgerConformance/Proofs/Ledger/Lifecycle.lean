import LedgerConformance.Ledger.Printer
import LedgerConformance.Proofs.Ledger.Register
import Mathlib.Data.List.Induction

/-!
The pass over the sorted directives finds what the rules ask for. With lines
that differ, the directives taken before one are told by date, rank and line;
and apart from which of several openings or closings is the first, a breach
does not depend on the order and the line numbers of the directives.
-/

namespace LedgerConformance.Ledger

/-- The breaches of directives that are taken in order after `history`. -/
def breachesOf (ds : List Directive) : List Directive → List Directive → List Violation
  | _, [] => []
  | history, d :: rest => breachesAt ds history d ++ breachesOf ds (history ++ [d]) rest

/-- A run over sorted directives finds their breaches, the newest first. -/
theorem Register.run_what {ds : List Directive}
    (hsorted : ds.Pairwise fun a b => noLater a b = true) (history rest : List Directive)
    (hds : ds = history ++ rest) {r : Register} (h : Tracks r history)
    (found : List (Located Violation)) :
    (r.run found rest).map Located.what =
      (breachesOf ds history rest).reverse ++ found.map Located.what := by
  induction rest generalizing history r found with
  | nil => simp [Register.run, breachesOf]
  | cons d rest ih =>
    have m : Moment ds history d := hds ▸ Moment.of_sorted (hds ▸ hsorted)
    rw [Register.run, ih (history ++ [d]) (by simp [hds]) (h.step m.before), breachesOf,
      List.map_append, List.map_reverse, h.findings m]
    simp

theorem Tracks.after {ds : List Directive} (hsorted : ds.Pairwise fun a b => noLater a b = true)
    (history rest : List Directive) (hds : ds = history ++ rest) :
    Tracks (Register.after [] history) history := by
  induction history using List.reverseRecOn generalizing rest with
  | nil => exact tracks_nil
  | append_singleton history d ih =>
    have hds' : ds = history ++ d :: rest := by simp [hds]
    have m : Moment ds history d := hds' ▸ Moment.of_sorted (hds' ▸ hsorted)
    rw [Register.after_concat]
    exact (ih (d :: rest) hds').step m.before

theorem sorted_mergeSort (ds : List Directive) :
    (ds.mergeSort noLater).Pairwise fun a b => noLater a b = true :=
  List.pairwise_mergeSort noLater_trans noLater_total ds

/-- What is found is, up to order, the breaches of the sorted directives. -/
theorem violations_what_perm (ds : List Directive) :
    ((violations ds).map Located.what).Perm
      (breachesOf (ds.mergeSort noLater) [] (ds.mergeSort noLater)) := by
  have hrun := Register.run_what (sorted_mergeSort ds) [] _ rfl tracks_nil []
  have hfound : ((Register.run [] [] (ds.mergeSort noLater)).reverse.map Located.what) =
      breachesOf (ds.mergeSort noLater) [] (ds.mergeSort noLater) := by
    rw [List.map_reverse, hrun]
    simp
  rw [← hfound]
  exact (List.mergeSort_perm _ _).map _

/-- Of directives of one rank, those taken before are those that precede. -/
theorem Moment.mem_history_iff {ds history : List Directive} {d e : Directive}
    (m : Moment ds history d) (hlines : ∀ e ∈ history, e.line ≠ d.line)
    (hrank : dayRank e.content = dayRank d.content) :
    e ∈ history ↔ e ∈ ds ∧ e.Precedes d := by
  constructor
  · intro he
    refine ⟨m.known e he, ?_⟩
    have hline := hlines e he
    rcases noLater_iff.mp (m.before e he) with hlt | ⟨heq, hle⟩
    · exact Or.inl hlt
    · exact Or.inr ⟨heq, by omega⟩
  · rintro ⟨he, hprecedes⟩
    by_contra hnot
    rcases noLater_iff.mp (m.later e he hnot) with hlt | ⟨heq, hle⟩
    · rcases hprecedes with hlt' | ⟨heq', _⟩
      · exact Date.lt_irrefl _ (Date.lt_trans hlt hlt')
      · exact Date.lt_irrefl _ (heq' ▸ hlt)
    · rcases hprecedes with hlt' | ⟨_, hline⟩
      · exact Date.lt_irrefl _ (heq ▸ hlt')
      · omega

theorem Moment.exists_mem_history_iff {ds history : List Directive} {d : Directive}
    {P : Directive → Prop} (m : Moment ds history d) (hlines : ∀ e ∈ history, e.line ≠ d.line)
    (hrank : ∀ e, P e → dayRank e.content = dayRank d.content) :
    (∃ e ∈ history, P e) ↔ ∃ e ∈ ds, P e ∧ e.Precedes d := by
  constructor
  · rintro ⟨e, he, hP⟩
    obtain ⟨hmem, hprecedes⟩ := (m.mem_history_iff hlines (hrank e hP)).mp he
    exact ⟨e, hmem, hP, hprecedes⟩
  · rintro ⟨e, he, hP, hprecedes⟩
    exact ⟨e, (m.mem_history_iff hlines (hrank e hP)).mpr ⟨he, hprecedes⟩, hP⟩

/-- With lines that differ, what was taken before is told by date and line. -/
theorem Moment.breachesAt_eq {ds history : List Directive} {d : Directive}
    (m : Moment ds history d) (hlines : ∀ e ∈ history, e.line ≠ d.line) :
    breachesAt ds history d = breaches ds d := by
  rcases d.opening_or_closing_or_use with ⟨name, currencies, hcontent⟩ | ⟨name, hcontent⟩ | huse
  · have hd : dayRank d.content = 0 := dayRank_of_opened? (Directive.opened?_eq hcontent)
    have hiff := m.exists_mem_history_iff (P := fun o => o.opened? = some name) hlines
      fun o hopened => (dayRank_of_opened? hopened).trans hd.symm
    simp only [breachesAt, breaches, hcontent, hiff]
  · have hd : dayRank d.content = 2 := dayRank_of_closed? (Directive.closed?_eq hcontent)
    have hiff := m.exists_mem_history_iff (P := ClosesOpen ds name) hlines
      fun c hcloses => (dayRank_of_closed? hcloses.1).trans hd.symm
    simp only [breachesAt, breaches, hcontent, hiff]
  · rw [breachesAt_of_isUse huse, breaches, huse.match_content]

theorem line_ne_of_nodup {history rest : List Directive} {d : Directive}
    (h : ((history ++ d :: rest).map Directive.line).Nodup) :
    ∀ e ∈ history, e.line ≠ d.line := by
  intro e he
  rw [List.map_append, List.nodup_append] at h
  exact h.2.2 e.line (List.mem_map_of_mem he) d.line (by simp)

theorem breachesOf_eq_flatMap {ds : List Directive}
    (hsorted : ds.Pairwise fun a b => noLater a b = true) (hlines : (ds.map Directive.line).Nodup)
    (history rest : List Directive) (hds : ds = history ++ rest) :
    breachesOf ds history rest = rest.flatMap (breaches ds) := by
  induction rest generalizing history with
  | nil => rfl
  | cons d rest ih =>
    have m : Moment ds history d := hds ▸ Moment.of_sorted (hds ▸ hsorted)
    have hnew : ∀ e ∈ history, e.line ≠ d.line := line_ne_of_nodup (hds ▸ hlines)
    rw [breachesOf, m.breachesAt_eq hnew, ih (history ++ [d]) (by simp [hds]), List.flatMap_cons]

section Invariance

/-- The names that were seen before. -/
def repeats (seen : List String) : List String → List String
  | [] => []
  | name :: rest => [name].filter (· ∈ seen) ++ repeats (seen ++ [name]) rest

theorem repeats_toList_append (seen : List String) (name? : Option String)
    (rest : List String) :
    repeats seen (name?.toList ++ rest) =
      name?.toList.filter (· ∈ seen) ++ repeats (seen ++ name?.toList) rest := by
  cases name? with
  | none => simp
  | some name => rfl

/-- All but the first of the same name are repeats. -/
theorem count_repeats (name : String) (seen names : List String) :
    (repeats seen names).count name =
      if name ∈ seen then names.count name else names.count name - 1 := by
  induction names generalizing seen with
  | nil => simp [repeats]
  | cons first rest ih =>
    rw [repeats, List.count_append, ih, List.count_cons]
    by_cases hfirst : first = name
    · subst hfirst
      by_cases hseen : first ∈ seen <;> simp [hseen, Nat.add_comm]
    · have hne : name ≠ first := Ne.symm hfirst
      by_cases hseen : first ∈ seen <;> simp [hseen, hfirst, hne]

theorem repeats_perm {names names' : List String} (h : names.Perm names') :
    (repeats [] names).Perm (repeats [] names') := by
  rw [List.perm_iff_count]
  intro name
  rw [count_repeats, count_repeats, h.count_eq]

/-- The account that a closing ends. -/
def ended? (ds : List Directive) (d : Directive) : Option String :=
  d.closed?.filter fun account => OpenBy ds account d.date

/-- The breaches that do not depend on what comes first. -/
def plainBreaches (ds : List Directive) (d : Directive) : List Violation :=
  match d.content with
  | .opening .. => []
  | .closing account => if ¬ OpenBy ds account d.date then [.unknownAccount account] else []
  | _ => d.accounts.filterMap (useBreach? ds d.date)

theorem plainBreaches_of_isUse {ds : List Directive} {d : Directive} (h : d.IsUse) :
    plainBreaches ds d = d.accounts.filterMap (useBreach? ds d.date) :=
  h.match_content _ _ _

theorem filter_toList_some (p : String → Prop) [DecidablePred p] (name : String) :
    (some name).toList.filter (fun x => p x) = if p name then [name] else [] := by
  by_cases hp : p name <;> simp [hp]

theorem mem_filterMap_opened? {history : List Directive} {account : String} :
    account ∈ history.filterMap Directive.opened? ↔ ∃ o ∈ history, o.opened? = some account :=
  List.mem_filterMap

theorem mem_filterMap_ended? {ds history : List Directive} {account : String} :
    account ∈ history.filterMap (ended? ds) ↔ ∃ c ∈ history, ClosesOpen ds account c := by
  simp only [List.mem_filterMap, ended?, Option.filter_eq_some_iff, decide_eq_true_eq]
  rfl

/-- A breach is a repeated opening, a repeated ending, or a plain one. -/
theorem breachesAt_split (ds history : List Directive) (d : Directive) :
    breachesAt ds history d =
      (d.opened?.toList.filter (· ∈ history.filterMap Directive.opened?)).map .duplicateOpen ++
        (((ended? ds d).toList.filter (· ∈ history.filterMap (ended? ds))).map .alreadyClosed ++
          plainBreaches ds d) := by
  simp only [mem_filterMap_opened?, mem_filterMap_ended?]
  rcases d.opening_or_closing_or_use with ⟨name, currencies, hcontent⟩ | ⟨name, hcontent⟩ | huse
  · have hopened : d.opened? = some name := Directive.opened?_eq hcontent
    have hended : ended? ds d = none := by simp [ended?, Directive.closed?, hcontent]
    simp only [breachesAt, plainBreaches, hcontent, hopened, hended, filter_toList_some]
    split <;> rfl
  · have hclosed : d.closed? = some name := Directive.closed?_eq hcontent
    have hopened : d.opened? = none := by simp [Directive.opened?, hcontent]
    by_cases hopen : OpenBy ds name d.date
    · have hended : ended? ds d = some name := by simp [ended?, hclosed, hopen]
      simp only [breachesAt, plainBreaches, hcontent, hopened, hended, hopen,
        filter_toList_some, not_true_eq_false, if_false]
      split <;> rfl
    · have hended : ended? ds d = none := by simp [ended?, hclosed, hopen]
      simp [breachesAt, plainBreaches, hcontent, hopened, hended, hopen]
  · have hended : ended? ds d = none := by simp [ended?, huse.2]
    rw [breachesAt_of_isUse huse, plainBreaches_of_isUse huse, huse.1, hended]
    rfl

/-- The breaches of directives, sorted by their kind. -/
def breachesByKind (ds : List Directive) : List Violation :=
  (repeats [] (ds.filterMap Directive.opened?)).map .duplicateOpen ++
    ((repeats [] (ds.filterMap (ended? ds))).map .alreadyClosed ++ ds.flatMap (plainBreaches ds))

theorem filterMap_cons_toList {f : Directive → Option String} (d : Directive)
    (rest : List Directive) : (d :: rest).filterMap f = (f d).toList ++ rest.filterMap f := by
  cases hd : f d <;> simp [hd]

theorem breachesOf_perm (ds history rest : List Directive) :
    (breachesOf ds history rest).Perm
      ((repeats (history.filterMap Directive.opened?)
          (rest.filterMap Directive.opened?)).map .duplicateOpen ++
        ((repeats (history.filterMap (ended? ds)) (rest.filterMap (ended? ds))).map
            .alreadyClosed ++ rest.flatMap (plainBreaches ds))) := by
  induction rest generalizing history with
  | nil => simp [breachesOf, repeats]
  | cons d rest ih =>
    have hopened := filterMap_cons_toList (f := Directive.opened?) d []
    have hended := filterMap_cons_toList (f := ended? ds) d []
    have hrest := ih (history ++ [d])
    rw [List.filterMap_append, List.filterMap_append, hopened, hended, List.filterMap_nil,
      List.filterMap_nil, List.append_nil, List.append_nil] at hrest
    rw [breachesOf, breachesAt_split, filterMap_cons_toList, filterMap_cons_toList,
      repeats_toList_append, repeats_toList_append, List.flatMap_cons]
    refine (hrest.append_left _).trans ?_
    rw [List.perm_iff_count]
    intro v
    simp only [List.map_append, List.count_append]
    omega

/-- Two ledgers that tell the same of the openings and closings of accounts. -/
structure SameLife (ds ds' : List Directive) : Prop where
  openBy : ∀ account day, OpenBy ds account day ↔ OpenBy ds' account day
  closedBefore : ∀ account day, ClosedBefore ds account day ↔ ClosedBefore ds' account day

namespace SameLife

variable {ds ds' : List Directive}

theorem of_perm (h : ds.Perm ds') : SameLife ds ds' := by
  have hopen : ∀ account day, OpenBy ds account day ↔ OpenBy ds' account day := by
    intro account day
    simp only [OpenBy, h.mem_iff]
  refine ⟨hopen, ?_⟩
  intro account day
  simp only [ClosedBefore, ClosesOpen, hopen, h.mem_iff]

theorem unnumbered (ds : List Directive) : SameLife (ds.map Directive.unnumbered) ds := by
  have hopen : ∀ account day,
      OpenBy (ds.map Directive.unnumbered) account day ↔ OpenBy ds account day := by
    intro account day
    simp only [OpenBy, List.mem_map, exists_exists_and_eq_and]
    rfl
  refine ⟨hopen, ?_⟩
  intro account day
  simp only [ClosedBefore, ClosesOpen, hopen, List.mem_map, exists_exists_and_eq_and]
  rfl

theorem ended?_eq (h : SameLife ds ds') : ended? ds = ended? ds' := by
  funext d
  simp only [ended?, h.openBy]

theorem useBreach?_eq (h : SameLife ds ds') (day : Date) :
    useBreach? ds day = useBreach? ds' day := by
  funext account
  simp only [useBreach?, h.openBy, h.closedBefore]

theorem plainBreaches_eq (h : SameLife ds ds') : plainBreaches ds = plainBreaches ds' := by
  funext d
  simp only [plainBreaches, h.openBy, h.useBreach?_eq]

end SameLife

theorem breachesByKind_perm {ds ds' : List Directive} (h : ds.Perm ds') :
    (breachesByKind ds).Perm (breachesByKind ds') := by
  unfold breachesByKind
  rw [(SameLife.of_perm h).ended?_eq, (SameLife.of_perm h).plainBreaches_eq]
  exact ((repeats_perm (h.filterMap _)).map _).append
    (((repeats_perm (h.filterMap _)).map _).append (h.flatMap_right _))

theorem accounts_unnumbered (d : Directive) : d.unnumbered.accounts = d.accounts := by
  simp [Directive.accounts, Directive.unnumbered, Function.comp_def]

theorem breachesByKind_unnumbered (ds : List Directive) :
    breachesByKind (ds.map Directive.unnumbered) = breachesByKind ds := by
  have hended : (ended? ds) ∘ Directive.unnumbered = ended? ds := rfl
  have hopened : Directive.opened? ∘ Directive.unnumbered = Directive.opened? := rfl
  have hplain : ∀ d : Directive, plainBreaches ds d.unnumbered = plainBreaches ds d := by
    intro d
    simp only [plainBreaches, accounts_unnumbered]
    rfl
  unfold breachesByKind
  rw [(SameLife.unnumbered ds).ended?_eq, (SameLife.unnumbered ds).plainBreaches_eq,
    List.filterMap_map, List.filterMap_map, List.flatMap_map, hended, hopened]
  simp only [hplain]

/-- What is found depends on the directives only, not on their order and their
line numbers. -/
theorem violations_perm_byKind (ds : List Directive) :
    ((violations ds).map Located.what).Perm (breachesByKind ds) :=
  (violations_what_perm ds).trans
    ((breachesOf_perm _ [] _).trans (breachesByKind_perm (List.mergeSort_perm ds noLater)))

theorem repeats_nil_eq_nil_iff (names : List String) : repeats [] names = [] ↔ names.Nodup := by
  rw [List.nodup_iff_count, List.eq_nil_iff_forall_not_mem]
  refine forall_congr' fun name => ?_
  rw [← List.count_eq_zero, count_repeats]
  simp only [List.not_mem_nil, if_false]
  omega

theorem violations_eq_nil_iff_byKind (ds : List Directive) :
    violations ds = [] ↔ breachesByKind ds = [] := by
  have hperm := violations_perm_byKind ds
  rw [← List.map_eq_nil_iff (f := Located.what)]
  exact ⟨fun h => (h ▸ hperm).nil_eq.symm, fun h => (h ▸ hperm).eq_nil⟩

/-- Line numbers do not matter for whether something is found. -/
theorem violations_eq_nil_congr {ds es : List Directive}
    (h : ds.map Directive.unnumbered = es.map Directive.unnumbered) :
    violations ds = [] ↔ violations es = [] := by
  rw [violations_eq_nil_iff_byKind, violations_eq_nil_iff_byKind, ← breachesByKind_unnumbered, h,
    breachesByKind_unnumbered]

/-- Where no account is closed, nothing is found exactly when no account is opened
twice and every account is open when it is used. -/
theorem violations_eq_nil_iff {ds : List Directive} (hclosed : ∀ d ∈ ds, d.closed? = none) :
    violations ds = [] ↔ (ds.filterMap Directive.opened?).Nodup ∧
      ∀ d ∈ ds, d.opened? = none → ∀ account ∈ d.accounts, OpenBy ds account d.date := by
  have hended : ds.filterMap (ended? ds) = [] := by
    rw [List.filterMap_eq_nil_iff]
    intro d hd
    simp [ended?, hclosed d hd]
  have hbefore : ∀ account day, ¬ ClosedBefore ds account day := by
    rintro account day ⟨c, hc, ⟨hcloses, _⟩, _⟩
    rw [hclosed c hc] at hcloses
    contradiction
  have hplain : ∀ d ∈ ds, plainBreaches ds d = [] ↔
      (d.opened? = none → ∀ account ∈ d.accounts, OpenBy ds account d.date) := by
    intro d hd
    rcases d.opening_or_closing_or_use with ⟨name, currencies, hcontent⟩ | ⟨name, hcontent⟩ | huse
    · simp [plainBreaches, hcontent, Directive.opened?_eq hcontent]
    · exact absurd (Directive.closed?_eq hcontent) (by simp [hclosed d hd])
    · rw [plainBreaches_of_isUse huse]
      simp [List.filterMap_eq_nil_iff, useBreach?, hbefore, huse.1]
  rw [violations_eq_nil_iff_byKind, breachesByKind, hended, List.append_eq_nil_iff,
    List.map_eq_nil_iff, repeats_nil_eq_nil_iff, List.append_eq_nil_iff, List.flatMap_eq_nil_iff]
  constructor
  · rintro ⟨hopened, _, hplains⟩
    exact ⟨hopened, fun d hd => (hplain d hd).mp (hplains d hd)⟩
  · rintro ⟨hopened, hopen⟩
    exact ⟨hopened, rfl, fun d hd => (hplain d hd).mpr (hopen d hd)⟩

end Invariance

theorem breaches_perm {ds ds' : List Directive} (h : ds.Perm ds') :
    breaches ds = breaches ds' := by
  have hlife := SameLife.of_perm h
  have hcloses : ∀ account c, ClosesOpen ds account c ↔ ClosesOpen ds' account c := by
    intro account c
    simp only [ClosesOpen, hlife.openBy]
  funext d
  simp only [breaches, hlife.openBy, hcloses, hlife.useBreach?_eq, h.mem_iff]

theorem violations_perm_breaches {ds : List Directive} (hlines : (ds.map Directive.line).Nodup) :
    ((violations ds).map Located.what).Perm (ds.flatMap (breaches ds)) := by
  have hsort := List.mergeSort_perm ds noLater
  have hlines' : ((ds.mergeSort noLater).map Directive.line).Nodup :=
    (hsort.map Directive.line).nodup_iff.mpr hlines
  refine (violations_what_perm ds).trans ?_
  rw [breachesOf_eq_flatMap (sorted_mergeSort ds) hlines' [] _ rfl, breaches_perm hsort]
  exact hsort.flatMap_right _

/-- The messages of what is found. -/
def foundMessages (ds : List Directive) : List String :=
  (violations ds).map fun v => v.what.message

/-- The messages are those that the rules ask for. An account is never looked up
on a day before its opening, and the messages stay the same when the directives
are put into another order and their lines are numbered in another way. -/
theorem foundMessages_perm_expectedMessages (ds : List Directive)
    (hlines : (ds.map Directive.line).Nodup) :
    (foundMessages ds).Perm (expectedMessages ds) ∧
      (∀ history d rest, ds.mergeSort noLater = history ++ d :: rest →
        ∀ account span, (Register.after [] history).find? account = some span →
          ¬ d.date < span.opened) ∧
      ∀ others, (others.map Directive.unnumbered).Perm (ds.map Directive.unnumbered) →
        (foundMessages others).Perm (foundMessages ds) := by
  have hmessages : ∀ ds, foundMessages ds =
      ((violations ds).map Located.what).map Violation.message := by
    intro ds
    rw [foundMessages, List.map_map]
    rfl
  refine ⟨?_, ?_, ?_⟩
  · rw [hmessages, expectedMessages, ← List.map_flatMap]
    exact (violations_perm_breaches hlines).map _
  · intro history d rest hsplit account span hfind
    have hsorted := sorted_mergeSort ds
    have m : Moment _ history d := Moment.of_sorted (hsplit ▸ hsorted)
    exact (Tracks.after hsorted history (d :: rest) hsplit).opened_le m.before hfind
  · intro others hothers
    rw [hmessages, hmessages]
    apply List.Perm.map
    calc (violations others).map Located.what
      _ |>.Perm (breachesByKind others) := violations_perm_byKind others
      _ |>.Perm (breachesByKind ds) := by
        rw [← breachesByKind_unnumbered others, ← breachesByKind_unnumbered ds]
        exact breachesByKind_perm hothers
      _ |>.Perm ((violations ds).map Located.what) := (violations_perm_byKind ds).symm

/-- One account that is used before its opening, opened and closed twice, and used
once more after that. -/
def twiceClosed : List Directive :=
  [{ line := 1, date := ⟨2020, 2, 1⟩, content := .closing "Assets:Cash" },
    { line := 2, date := ⟨2020, 2, 1⟩, content := .closing "Assets:Cash" },
    { line := 3, date := ⟨2020, 1, 1⟩, content := .opening "Assets:Cash" [] },
    { line := 4, date := ⟨2020, 1, 1⟩, content := .opening "Assets:Cash" ["USD"] },
    { line := 5, date := ⟨2019, 1, 1⟩, content := .pad "Assets:Cash" "Assets:Cash" },
    { line := 6, date := ⟨2020, 2, 1⟩, content := .note "Assets:Cash" "" },
    { line := 7, date := ⟨2020, 2, 2⟩, content := .note "Assets:Cash" "" }]

theorem foundMessages_twiceClosed :
    (twiceClosed.map Directive.line).Nodup ∧
      (foundMessages twiceClosed).Perm
        ["Account 'Assets:Cash' is already closed",
          "Duplicate open directive for account 'Assets:Cash'",
          "Invalid reference to unknown account 'Assets:Cash'",
          "Invalid reference to unknown account 'Assets:Cash'",
          "Invalid reference to inactive account 'Assets:Cash'"] ∧
      (foundMessages (twiceClosed.reverse.map Directive.unnumbered)).Perm
        (foundMessages twiceClosed) := by
  have hlines : (twiceClosed.map Directive.line).Nodup := by decide
  obtain ⟨hfound, _, hothers⟩ := foundMessages_perm_expectedMessages twiceClosed hlines
  refine ⟨hlines, hfound, hothers _ ?_⟩
  have htwice : (twiceClosed.reverse.map Directive.unnumbered).map Directive.unnumbered =
      twiceClosed.reverse.map Directive.unnumbered := by decide
  rw [htwice]
  exact (List.reverse_perm twiceClosed).map _

end LedgerConformance.Ledger
