import LedgerConformance.Proofs.Ledger.Lifecycle
import LedgerConformance.Proofs.Ledger.Representation
import Mathlib.Data.List.Nodup

/-!
The lines that findings are told on. A breach of a directive is told on the line of its
head, or of its first posting with the account; with these lines, all that is found in a
ledger is the breaches of its directives. So of the postings of a transaction that break
a rule, those that are the first with their account are told on their own lines, and the
others are told on the lines of these.
-/

namespace LedgerConformance.Ledger

/-- The account that a breach concerns. -/
def Violation.account : Violation → String
  | duplicateOpen account | unknownAccount account => account
  | alreadyClosed account | inactiveAccount account => account

namespace Directive

/-- A breach on the line that it is told on. -/
def locate (d : Directive) (v : Violation) : Located Violation :=
  ⟨Register.referenceLine d v.account, v⟩

/-- The breaches of the postings, each on the line of its posting. -/
def offences (ds : List Directive) (d : Directive) : List (Located Violation) :=
  d.postings.filterMap fun p => (useBreach? ds d.date p.account).map (⟨p.line, ·⟩)

/-- The accounts of the postings that break a rule, once for each such posting. -/
def offendingAccounts (ds : List Directive) (d : Directive) : List String :=
  (d.postings.filter fun p => (useBreach? ds d.date p.account).isSome).map Posting.account

/-- What is told on the lines of the directive. -/
def findings (ds : List Directive) (d : Directive) : List (Located Violation) :=
  (violations ds).filter (·.line ∈ d.lineNumbers)

/-- Only a directive that uses accounts has postings. -/
def Placed (d : Directive) : Prop := d.IsUse ∨ d.postings = []

theorem isUse_of_isTransaction {d : Directive} (h : d.content.isTransaction = true) :
    d.IsUse := by
  cases hcontent : d.content <;> simp_all [Content.isTransaction, IsUse, opened?, closed?]

theorem accounts_of_isTransaction {d : Directive} (h : d.content.isTransaction = true) :
    d.accounts = d.postings.map Posting.account := by
  cases hcontent : d.content <;> simp_all [Content.isTransaction, accounts]

theorem WellFormed.placed {d : Directive} (h : d.WellFormed) : d.Placed := by
  by_cases hpostings : d.postings = []
  · exact Or.inr hpostings
  · exact Or.inl (isUse_of_isTransaction (h.onTransaction hpostings))

theorem referenceLine_mem_lineNumbers (d : Directive) (account : String) :
    Register.referenceLine d account ∈ d.lineNumbers := by
  unfold Register.referenceLine
  split
  · rename_i p hfind
    exact List.mem_cons_of_mem _ (List.mem_map_of_mem (List.mem_of_find?_eq_some hfind))
  · exact List.mem_cons_self

/-- Of postings in the order of their lines, the first one with the account gives the line. -/
theorem referenceLine_eq_iff {d : Directive} (horder : d.postings.Pairwise fun p q => p.line < q.line)
    {p : Posting} (hp : p ∈ d.postings) :
    Register.referenceLine d p.account = p.line ↔
      ∀ q ∈ d.postings, q.account = p.account → p.line ≤ q.line := by
  unfold Register.referenceLine
  cases hfind : d.postings.find? (·.account == p.account) with
  | none => exact absurd (List.find?_eq_none.mp hfind p hp) (by simp)
  | some first =>
    obtain ⟨haccount, front, back, hpostings, hfront⟩ := List.find?_eq_some_iff_append.mp hfind
    have hleast : ∀ q ∈ d.postings, q.account = p.account → first.line ≤ q.line := by
      intro q hq heq
      rw [hpostings] at hq horder
      rcases List.mem_append.mp hq with hq | hq
      · exact absurd (hfront q hq) (by simp [heq])
      · rcases List.mem_cons.mp hq with rfl | hq
        · exact Nat.le_refl _
        · have hlater := (List.pairwise_cons.mp (List.pairwise_append.mp horder).2.1).1 q hq
          exact Nat.le_of_lt hlater
    constructor
    · rintro hline q hq heq
      exact hline ▸ hleast q hq heq
    · intro hfirst
      have hmem : first ∈ d.postings := List.mem_of_find?_eq_some hfind
      exact Nat.le_antisymm (hleast p hp rfl) (hfirst first hmem (by simpa using haccount))

end Directive

theorem account_of_useBreach? {ds : List Directive} {day : Date} {account : String} {v : Violation}
    (h : useBreach? ds day account = some v) : v.account = account := by
  unfold useBreach? at h
  split at h
  · cases h
    rfl
  · split at h
    · cases h
      rfl
    · contradiction

theorem Register.account_of_use? {r : Register} {day : Date} {account : String} {v : Violation}
    (h : r.use? account day = some v) : v.account = account := by
  unfold use? at h
  split at h
  · cases h
    rfl
  · split at h
    · split at h
      · cases h
        rfl
      · split at h
        · cases h
          rfl
        · contradiction
    · split at h
      · cases h
        rfl
      · contradiction

/-- A step tells each of its findings on the line of the breach. -/
theorem Register.step_located (r : Register) {d : Directive} (hplaced : d.Placed) :
    (r.step d).2 = ((r.step d).2.map Located.what).map d.locate := by
  have hhead : ¬ d.IsUse → ∀ v, d.locate v = ⟨d.line, v⟩ := by
    intro hnot v
    have hpostings := hplaced.resolve_left hnot
    simp [Directive.locate, referenceLine, hpostings]
  rcases d.opening_or_closing_or_use with ⟨name, currencies, hcontent⟩ | ⟨name, hcontent⟩ | huse
  · have hnot : ¬ d.IsUse := fun h => by simpa [Directive.opened?_eq hcontent] using h.1
    simp only [step, hcontent]
    cases r.find? name <;> simp [hhead hnot]
  · have hnot : ¬ d.IsUse := fun h => by simpa [Directive.closed?_eq hcontent] using h.2
    simp only [step, hcontent]
    cases r.find? name with
    | none => simp [hhead hnot]
    | some span => by_cases hclosed : span.closed.isSome = true <;> simp [hclosed, hhead hnot]
  · rw [step_of_isUse huse, List.map_map, List.map_filterMap]
    apply List.filterMap_congr
    intro account _
    rw [Option.map_map]
    cases hused : r.use? account d.date with
    | none => rfl
    | some v => simp [Directive.locate, account_of_use? hused]

/-- A run over sorted directives tells their breaches, the newest first. -/
theorem Register.run_eq {ds : List Directive}
    (hsorted : ds.Pairwise fun a b => noLater a b = true) (hlines : (ds.map Directive.line).Nodup)
    (hplaced : ∀ d ∈ ds, d.Placed) (history rest : List Directive) (hds : ds = history ++ rest)
    {r : Register} (h : Tracks r history) (found : List (Located Violation)) :
    r.run found rest = (rest.flatMap fun d => (breaches ds d).map d.locate).reverse ++ found := by
  induction rest generalizing history r found with
  | nil => rfl
  | cons d rest ih =>
    have m : Moment ds history d := hds ▸ Moment.of_sorted (hds ▸ hsorted)
    have hnew : ∀ e ∈ history, e.line ≠ d.line := line_ne_of_nodup (hds ▸ hlines)
    have hstep : (r.step d).2 = (breaches ds d).map d.locate := by
      rw [step_located r (hplaced d (by simp [hds])), h.findings m, m.breachesAt_eq hnew]
    rw [run, ih (history ++ [d]) (by simp [hds]) (h.step m.before), hstep, List.flatMap_cons,
      List.reverse_append, List.append_assoc]

/-- All that is found is the breaches of the directives, each on its line. -/
theorem violations_perm_located {ds : List Directive} (hlines : (ds.map Directive.line).Nodup)
    (hplaced : ∀ d ∈ ds, d.Placed) :
    (violations ds).Perm (ds.flatMap fun d => (breaches ds d).map d.locate) := by
  have hsort := List.mergeSort_perm ds noLater
  have hrun := Register.run_eq (sorted_mergeSort ds)
    ((hsort.map Directive.line).nodup_iff.mpr hlines)
    (fun d hd => hplaced d (hsort.mem_iff.mp hd)) [] _ rfl tracks_nil []
  rw [breaches_perm hsort, List.append_nil] at hrun
  refine (List.mergeSort_perm _ _).trans ?_
  rw [hrun, List.reverse_reverse]
  exact hsort.flatMap_right _

/-- Where no line belongs to two directives, and each is told of on its own lines, the part
of all that is on the lines of one directive is what is told of it. -/
theorem filter_flatMap_lineNumbers {ds : List Directive} {told : Directive → List (Located Violation)}
    (hown : ∀ e, ∀ f ∈ told e, f.line ∈ e.lineNumbers)
    (hlines : (ds.flatMap Directive.lineNumbers).Nodup) {d : Directive} (hd : d ∈ ds) :
    (ds.flatMap told).filter (·.line ∈ d.lineNumbers) = told d := by
  obtain ⟨front, back, rfl⟩ := List.append_of_mem hd
  obtain ⟨_, hdisjoint⟩ := List.nodup_flatMap.mp hlines
  rw [List.pairwise_append, List.pairwise_cons] at hdisjoint
  obtain ⟨_, ⟨hback, _⟩, hfront⟩ := hdisjoint
  have hothers : ∀ es : List Directive, (∀ e ∈ es, List.Disjoint e.lineNumbers d.lineNumbers) →
      es.flatMap (fun e => (told e).filter (·.line ∈ d.lineNumbers)) = [] := by
    intro es hes
    rw [List.flatMap_eq_nil_iff]
    intro e he
    rw [List.filter_eq_nil_iff]
    intro f hf
    simpa using fun hmem => hes e he (hown e f hf) hmem
  have hself : (told d).filter (·.line ∈ d.lineNumbers) = told d := by
    rw [List.filter_eq_self]
    intro f hf
    simpa using hown d f hf
  rw [List.filter_flatMap, List.flatMap_append, List.flatMap_cons, hself,
    hothers front fun e he => hfront e he d List.mem_cons_self,
    hothers back fun e he => List.disjoint_symm (hback e he), List.nil_append, List.append_nil]

/-- What is told on the lines of a directive is its breaches. -/
theorem Directive.findings_perm {ds : List Directive}
    (hlines : (ds.flatMap Directive.lineNumbers).Nodup) (hplaced : ∀ d ∈ ds, d.Placed)
    {d : Directive} (hd : d ∈ ds) : (d.findings ds).Perm ((breaches ds d).map d.locate) := by
  have hheads : (ds.map Directive.line).Nodup := by
    refine List.pairwise_map.mpr ((List.nodup_flatMap.mp hlines).2.imp ?_)
    intro e e' hapart heq
    exact hapart (List.mem_cons_self (a := e.line)) (heq ▸ List.mem_cons_self)
  have hown : ∀ e : Directive, ∀ f ∈ (breaches ds e).map e.locate, f.line ∈ e.lineNumbers := by
    intro e f hf
    obtain ⟨v, _, rfl⟩ := List.mem_map.mp hf
    exact e.referenceLine_mem_lineNumbers v.account
  rw [← filter_flatMap_lineNumbers hown hlines hd]
  exact (violations_perm_located hheads hplaced).filter _

section Transaction

variable {ds : List Directive} {d : Directive}

/-- The breaches of a transaction are those of its postings. -/
theorem Directive.map_locate_breaches (h : d.content.isTransaction = true) :
    (breaches ds d).map d.locate = d.postings.filterMap fun p =>
      (useBreach? ds d.date p.account).map (⟨Register.referenceLine d p.account, ·⟩) := by
  rw [breaches, (isUse_of_isTransaction h).match_content, accounts_of_isTransaction h,
    List.filterMap_map, List.map_filterMap]
  apply List.filterMap_congr
  intro p _
  simp only [Function.comp_apply]
  cases hbreach : useBreach? ds d.date p.account with
  | none => rfl
  | some v => simp [locate, account_of_useBreach? hbreach]

theorem Directive.mem_findings_iff {f : Located Violation} :
    f ∈ d.findings ds ↔ f ∈ violations ds ∧ f.line ∈ d.lineNumbers := by
  simp [findings]

/-- Findings are told in the order of their lines. -/
theorem Directive.pairwise_findings :
    (d.findings ds).Pairwise fun f g => f.line ≤ g.line := by
  have hsorted : (violations ds).Pairwise fun f g => decide (f.line ≤ g.line) = true :=
    List.pairwise_mergeSort (by simp; omega) (by simp; omega) _
  exact (hsorted.imp of_decide_eq_true).filter _

theorem Directive.pairwise_offences (horder : d.postings.Pairwise fun p q => p.line < q.line) :
    (d.offences ds).Pairwise fun f g => f.line < g.line := by
  refine horder.filterMap _ ?_
  intro p q hlt f hf g hg
  obtain ⟨v, _, rfl⟩ := Option.map_eq_some_iff.mp hf
  obtain ⟨w, _, rfl⟩ := Option.map_eq_some_iff.mp hg
  exact hlt

/-- Of what is told of postings, the lines are those of the postings with a breach. -/
theorem map_line_filterMap (breach? : Posting → Option Violation) (line : Posting → Nat)
    (postings : List Posting) :
    (postings.filterMap fun p => (breach? p).map (⟨line p, ·⟩)).map Located.line =
      (postings.filter fun p => (breach? p).isSome).map line := by
  induction postings with
  | nil => rfl
  | cons p rest ih => cases hbreach : breach? p <;> simp [hbreach, ih]

theorem Directive.nodup_line_offences (horder : d.postings.Pairwise fun p q => p.line < q.line) :
    ((d.offences ds).map Located.line).Nodup :=
  List.pairwise_map.mpr ((pairwise_offences horder).imp Nat.ne_of_lt)

/-- A posting that breaks a rule is the first one with its account, if each account is of one
such posting. -/
theorem Directive.referenceLine_of_nodup (horder : d.postings.Pairwise fun p q => p.line < q.line)
    (hnodup : (d.offendingAccounts ds).Nodup) {p : Posting} (hp : p ∈ d.postings)
    (hbreach : (useBreach? ds d.date p.account).isSome = true) :
    Register.referenceLine d p.account = p.line := by
  rw [referenceLine_eq_iff horder hp]
  intro q hq heq
  have hbreach' : (useBreach? ds d.date q.account).isSome = true := by rw [heq, hbreach]
  obtain rfl : q = p := List.inj_on_of_nodup_map hnodup (List.mem_filter.mpr ⟨hq, hbreach'⟩)
    (List.mem_filter.mpr ⟨hp, hbreach⟩) heq
  exact Nat.le_refl _

/-- Every breach is told on the line of its posting exactly when no two postings that break a
rule have the same account. -/
theorem Directive.findings_eq_offences_iff
    (horder : d.postings.Pairwise fun p q => p.line < q.line)
    (hfindings : (d.findings ds).Perm (d.postings.filterMap fun p =>
      (useBreach? ds d.date p.account).map (⟨Register.referenceLine d p.account, ·⟩))) :
    d.findings ds = d.offences ds ↔ (d.offendingAccounts ds).Nodup := by
  constructor
  · intro heq
    have hlines := hfindings.map Located.line
    rw [heq, map_line_filterMap] at hlines
    have hnodup := hlines.nodup_iff.mp (nodup_line_offences horder)
    refine List.Nodup.of_map (Register.referenceLine d) ?_
    rw [offendingAccounts, List.map_map]
    exact hnodup
  · intro hnodup
    have hsame : (d.postings.filterMap fun p => (useBreach? ds d.date p.account).map
        (⟨Register.referenceLine d p.account, ·⟩)) = d.offences ds := by
      apply List.filterMap_congr
      intro p hp
      cases hbreach : useBreach? ds d.date p.account with
      | none => rfl
      | some v => rw [referenceLine_of_nodup horder hnodup hp (by rw [hbreach]; rfl)]
    rw [hsame] at hfindings
    refine hfindings.eq_of_pairwise ?_ pairwise_findings
      ((pairwise_offences horder).imp Nat.le_of_lt)
    intro f g hf hg hfg hgf
    exact List.inj_on_of_nodup_map (nodup_line_offences horder) (hfindings.mem_iff.mp hf) hg
      (Nat.le_antisymm hfg hgf)

end Transaction

/-- In a ledger that was read, the findings on the lines of a transaction are the breaches of
its postings, each on the line of the first posting with its account. So a posting that breaks a
rule is told of on its own line exactly when it is the first one with its account, and each of
them is, once, exactly when they have different accounts. -/
theorem findings_of_transaction {source : String} {d : Directive}
    (hd : d ∈ (scan source).directives) (htransaction : d.content.isTransaction = true) :
    (d.findings (scan source).directives).Perm (d.postings.filterMap fun p =>
        (useBreach? (scan source).directives d.date p.account).map
          (⟨Register.referenceLine d p.account, ·⟩)) ∧
      (∀ p ∈ d.postings, ∀ v, useBreach? (scan source).directives d.date p.account = some v →
        ((⟨p.line, v⟩ : Located Violation) ∈ violations (scan source).directives ↔
          ∀ q ∈ d.postings, q.account = p.account → p.line ≤ q.line)) ∧
      (d.findings (scan source).directives = d.offences (scan source).directives ↔
        (d.offendingAccounts (scan source).directives).Nodup) := by
  have hfeed : ∀ raw ∈ sourceLines source.toList, '\n' ∉ raw := fun raw hraw =>
    feed_not_mem_of_mem_sourceLines hraw
  have hconsistent : (scan source).Consistent _ := consistent_scanLines hfeed
  have hsound : (scan source).Sound _ := hconsistent.sound
  have horder := hsound.postingsInOrder d hd
  have hlines : ((scan source).directives.flatMap Directive.lineNumbers).Nodup :=
    hconsistent.apart.inOrder.imp Nat.ne_of_lt
  have hfindings := Directive.findings_perm hlines (fun e he => (hsound.wellFormed e he).placed) hd
  rw [Directive.map_locate_breaches htransaction] at hfindings
  refine ⟨hfindings, ?_, Directive.findings_eq_offences_iff horder hfindings⟩
  intro p hp v hbreach
  have hown : p.line ∈ d.lineNumbers := List.mem_cons_of_mem _ (List.mem_map_of_mem hp)
  have htold : (⟨p.line, v⟩ : Located Violation) ∈ violations (scan source).directives ↔
      (⟨p.line, v⟩ : Located Violation) ∈ d.findings (scan source).directives := by
    simp [Directive.mem_findings_iff, hown]
  rw [htold, hfindings.mem_iff, ← Directive.referenceLine_eq_iff horder hp, List.mem_filterMap]
  constructor
  · rintro ⟨q, _, hq⟩
    obtain ⟨w, hw, heq⟩ := Option.map_eq_some_iff.mp hq
    obtain ⟨hline, rfl⟩ := Located.mk.injEq .. ▸ heq
    rw [← account_of_useBreach? hbreach, account_of_useBreach? hw]
    exact hline
  · intro hline
    exact ⟨p, hp, by rw [hbreach, Option.map_some, hline]⟩

/-- A meal of two courses, paid from an account that is open. -/
def twoCourses : String :=
  "2024-01-01 open Assets:Cash\n2024-01-02 * \"Lunch\"\n  Expenses:Food 5 USD\n" ++
    "  Expenses:Food 2 USD\n  Assets:Cash\n"

/-- What is read of the meal. -/
def meal : Directive where
  line := 2
  date := ⟨2024, 1, 2⟩
  content := .transaction '*' none (some "Lunch")
  postings := [⟨3, none, "Expenses:Food", some "5", some "USD"⟩,
    ⟨4, none, "Expenses:Food", some "2", some "USD"⟩, ⟨5, none, "Assets:Cash", none, none⟩]

theorem directives_twoCourses : (scan twoCourses).directives =
    [{ line := 1, date := ⟨2024, 1, 1⟩, content := .opening "Assets:Cash" [] }, meal] := by
  decide +kernel

theorem findings_of_transaction_meal :
    meal ∈ (scan twoCourses).directives ∧ meal.content.isTransaction = true ∧
      (meal.findings (scan twoCourses).directives).Perm
        [⟨3, .unknownAccount "Expenses:Food"⟩, ⟨3, .unknownAccount "Expenses:Food"⟩] ∧
      (⟨4, .unknownAccount "Expenses:Food"⟩ : Located Violation) ∉
        violations (scan twoCourses).directives ∧
      meal.findings (scan twoCourses).directives ≠ meal.offences (scan twoCourses).directives := by
  have hmeal : meal ∈ (scan twoCourses).directives := by
    rw [directives_twoCourses]
    decide
  obtain ⟨hfindings, hfirst, hall⟩ := findings_of_transaction hmeal rfl
  rw [directives_twoCourses] at hmeal hfindings hfirst hall ⊢
  have hcourse : ⟨4, none, "Expenses:Food", some "2", some "USD"⟩ ∈ meal.postings := by decide
  refine ⟨hmeal, rfl, hfindings, ?_, ?_⟩
  · intro htold
    have hleast := (hfirst _ hcourse (.unknownAccount "Expenses:Food") (by decide +kernel)).mp htold
    exact absurd (hleast ⟨3, none, "Expenses:Food", some "5", some "USD"⟩ (by decide) rfl) (by decide)
  · intro heq
    exact absurd (hall.mp heq) (by decide +kernel)

/-- Two postings of an account that was never opened. -/
def unopened : String := "2024-01-01 * \"Lunch\"\n  Assets:Cash 5 USD\n  Assets:Cash -5 USD\n"

/-- The second one breaks the rule and is not told of on its line: both are told of on the
line of the first one. -/
theorem violations_unopened :
    (scan unopened).problems = [] ∧
      violations (scan unopened).directives =
        [⟨2, .unknownAccount "Assets:Cash"⟩, ⟨2, .unknownAccount "Assets:Cash"⟩] ∧
      ∃ d ∈ (scan unopened).directives, d.content.isTransaction = true ∧
        d.offences (scan unopened).directives =
          [⟨2, .unknownAccount "Assets:Cash"⟩, ⟨3, .unknownAccount "Assets:Cash"⟩] ∧
        d.findings (scan unopened).directives ≠ d.offences (scan unopened).directives := by
  have hscan : scan unopened = ⟨[{
      line := 1
      date := ⟨2024, 1, 1⟩
      content := .transaction '*' none (some "Lunch")
      postings := [⟨2, none, "Assets:Cash", some "5", some "USD"⟩,
        ⟨3, none, "Assets:Cash", some "-5", some "USD"⟩] }], []⟩ := by decide +kernel
  have hviolations : violations (scan unopened).directives =
      [⟨2, .unknownAccount "Assets:Cash"⟩, ⟨2, .unknownAccount "Assets:Cash"⟩] := by
    unfold violations
    dsimp only
    rw [hscan, List.mergeSort_singleton, List.mergeSort_of_pairwise (by decide +kernel)]
    decide +kernel
  refine ⟨by rw [hscan], hviolations, ?_⟩
  simp only [Directive.findings, hviolations]
  rw [hscan]
  decide +kernel

end LedgerConformance.Ledger
