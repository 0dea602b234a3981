import LedgerConformance.Differential.Run
import LedgerConformance.Process.Launch
import LedgerConformance.Proofs.Command.Outcomes
import LedgerConformance.Proofs.Steps

/-!
Which implementations run together. The names of a run are resolved first: they have to
be configured, all different, and at least two, and the first of these that they are not
is reported. Names that are resolved are then made ready, which fails only for an unknown
comparison or an empty command; so no tool of a runner ever starts an empty command.
-/

namespace LedgerConformance.Differential

/-! ### Names that differ -/

/-- Names that differ from each other and from those before. -/
def Fresh (seen names : List String) : Prop := names.Nodup ∧ ∀ name ∈ names, name ∉ seen

theorem fresh_nil (seen : List String) : Fresh seen [] := ⟨List.nodup_nil, nofun⟩

theorem fresh_cons_iff {seen names : List String} {name : String} :
    Fresh seen (name :: names) ↔ name ∉ seen ∧ Fresh (name :: seen) names := by
  unfold Fresh
  rw [List.nodup_cons, List.forall_mem_cons]
  constructor
  · rintro ⟨⟨hname, hnodup⟩, hseen, hapart⟩
    refine ⟨hseen, hnodup, ?_⟩
    intro other hother hmem
    rcases List.mem_cons.mp hmem with rfl | hbefore
    · exact hname hother
    · exact hapart other hother hbefore
  · rintro ⟨hseen, hnodup, hapart⟩
    have hname : name ∉ names := fun hmem => hapart name hmem List.mem_cons_self
    exact ⟨⟨hname, hnodup⟩, hseen, fun other hother hmem =>
      hapart other hother (List.mem_cons_of_mem name hmem)⟩

theorem fresh_nil_iff {names : List String} : Fresh [] names ↔ names.Nodup := by
  simp [Fresh]

theorem firstRepeated?_eq_none_iff {seen names : List String} :
    firstRepeated? seen names = none ↔ Fresh seen names := by
  induction names generalizing seen with
  | nil => simp [firstRepeated?, fresh_nil]
  | cons name rest ih =>
    rw [firstRepeated?, fresh_cons_iff, ← ih]
    by_cases hseen : name ∈ seen <;> simp [hseen]

/-- The first repetition stands behind names that differ, and it is one of these or of
those before them. -/
theorem firstRepeated?_eq_some_iff {seen names : List String} {name : String} :
    firstRepeated? seen names = some name ↔
      ∃ before after, names = before ++ name :: after ∧ Fresh seen before ∧
        (name ∈ before ∨ name ∈ seen) := by
  induction names generalizing seen with
  | nil => simp [firstRepeated?]
  | cons first rest ih =>
    rw [firstRepeated?]
    by_cases hseen : first ∈ seen
    · rw [if_pos (by simpa using hseen), Option.some.injEq]
      constructor
      · rintro rfl
        exact ⟨[], rest, rfl, fresh_nil seen, Or.inr hseen⟩
      · rintro ⟨before, after, hnames, hfresh, -⟩
        cases before with
        | nil => exact (List.cons.inj hnames).1
        | cons other before =>
          obtain ⟨rfl, -⟩ := List.cons.inj hnames
          exact absurd hseen (fresh_cons_iff.mp hfresh).1
    · rw [if_neg (by simpa using hseen), ih]
      constructor
      · rintro ⟨before, after, rfl, hfresh, hname⟩
        refine ⟨first :: before, after, rfl, fresh_cons_iff.mpr ⟨hseen, hfresh⟩, ?_⟩
        simpa [or_assoc, or_comm, or_left_comm] using hname
      · rintro ⟨before, after, hnames, hfresh, hname⟩
        cases before with
        | nil =>
          obtain ⟨rfl, -⟩ := List.cons.inj hnames
          simp [hseen] at hname
        | cons other before =>
          obtain ⟨rfl, rfl⟩ := List.cons.inj hnames
          refine ⟨before, after, rfl, (fresh_cons_iff.mp hfresh).2, ?_⟩
          simpa [or_assoc, or_comm, or_left_comm] using hname

theorem checkNames_eq_ok_iff {names : List String} :
    checkNames names = .ok () ↔ names.Nodup ∧ 2 ≤ names.length := by
  unfold checkNames
  rw [← fresh_nil_iff, ← firstRepeated?_eq_none_iff]
  cases firstRepeated? [] names with
  | some name => simp
  | none =>
    by_cases hfew : names.length < 2
    · simp [hfew]
    · simp [hfew, Nat.not_lt.mp hfew]

/-- Names that may not run together, and why. -/
inductive Unfit : List String → ConfigError → Prop
  | duplicate {before after : List String} {name : String} (hbefore : before.Nodup)
      (hname : name ∈ before) :
    Unfit (before ++ name :: after) (.duplicateImplementation name)
  | tooFew {names : List String} (hnodup : names.Nodup) (hcount : names.length < 2) :
    Unfit names (.tooFewImplementations names.length)

theorem checkNames_eq_error_iff {names : List String} {e : ConfigError} :
    checkNames names = .error e ↔ Unfit names e := by
  constructor
  · intro h
    unfold checkNames at h
    split at h
    · rename_i name hrepeated
      cases h
      obtain ⟨before, after, rfl, hfresh, hname⟩ := firstRepeated?_eq_some_iff.mp hrepeated
      exact .duplicate (fresh_nil_iff.mp hfresh) (by simpa using hname)
    · rename_i hnone
      split at h
      · rename_i hcount
        cases h
        exact .tooFew (fresh_nil_iff.mp (firstRepeated?_eq_none_iff.mp hnone)) hcount
      · cases h
  · intro h
    unfold checkNames
    cases h with
    | @duplicate before after name hbefore hname =>
      have hrepeated : firstRepeated? [] (before ++ name :: after) = some name :=
        firstRepeated?_eq_some_iff.mpr
          ⟨before, after, rfl, fresh_nil_iff.mpr hbefore, Or.inl hname⟩
      rw [hrepeated]
    | tooFew hnodup hcount =>
      have hnone := firstRepeated?_eq_none_iff.mpr (fresh_nil_iff.mpr hnodup)
      rw [hnone]
      exact if_pos hcount

/-! ### Names that are resolved -/

namespace Config

/-- The implementation is configured. -/
def Configures (c : Config) (name : String) : Prop := name ∈ c.implementations.map Prod.fst

theorem isNone_lookup_iff {α : Type} {entries : List (String × α)} {name : String} :
    (entries.lookup name).isNone = true ↔ name ∉ entries.map Prod.fst := by
  rw [Option.isNone_iff_eq_none, List.lookup_eq_none_iff, List.mem_map]
  constructor
  · rintro h ⟨entry, hentry, rfl⟩
    simpa using h entry hentry
  · intro h entry hentry
    rw [bne_iff_ne]
    rintro rfl
    exact h ⟨entry, hentry, rfl⟩

/-- The names that are asked for. -/
inductive Selects (c : Config) : List String → Option String → List String → Prop
  | given {names : List String} (hnames : names ≠ []) (group : Option String) :
    Selects c names group names
  | group {name : String} {found : Group} (hfound : c.groups.lookup name = some found) :
    Selects c [] (some name) found.implementations
  | defaultGroup {found : Group} (hfound : c.groups.lookup defaultGroup = some found) :
    Selects c [] none found.implementations
  | nothing (hmissing : c.groups.lookup defaultGroup = none) : Selects c [] none []

/-- Names that are not resolved, and why: what comes first here is what is reported. -/
inductive Refused (c : Config) (names : List String) (group : Option String) :
    ConfigError → Prop
  | unknownGroup {name : String} (hnames : names = []) (hgroup : group = some name)
      (hmissing : c.groups.lookup name = none) : Refused c names group (.unknownGroup name)
  | unknownImplementation {before after : List String} {name : String}
      (hselected : c.Selects names group (before ++ name :: after))
      (hbefore : ∀ n ∈ before, c.Configures n) (hname : ¬ c.Configures name) :
    Refused c names group (.unknownImplementation name)
  | unfit {selected : List String} {e : ConfigError} (hselected : c.Selects names group selected)
      (hall : ∀ n ∈ selected, c.Configures n) (hunfit : Unfit selected e) :
    Refused c names group e

variable {c : Config} {names selected : List String} {group : Option String} {e : ConfigError}

theorem selectedNames_of_ne_nil (hnames : names ≠ []) (group : Option String) :
    c.selectedNames names group = .ok names := by
  unfold selectedNames
  exact if_pos (by simpa using hnames)

theorem selectedNames_eq_ok_iff :
    c.selectedNames names group = .ok selected ↔ c.Selects names group selected := by
  constructor
  · intro h
    by_cases hnames : names = []
    · subst hnames
      cases group with
      | none =>
        cases hfound : c.groups.lookup defaultGroup with
        | none =>
          simp only [selectedNames, Option.getD_none, hfound] at h
          cases h
          exact .nothing hfound
        | some found =>
          simp only [selectedNames, Option.getD_none, hfound] at h
          cases h
          exact .defaultGroup hfound
      | some name =>
        cases hfound : c.groups.lookup name with
        | none =>
          simp only [selectedNames, Option.getD_some, hfound] at h
          cases h
        | some found =>
          simp only [selectedNames, Option.getD_some, hfound] at h
          cases h
          exact .group hfound
    · rw [selectedNames_of_ne_nil hnames] at h
      cases h
      exact .given hnames group
  · intro h
    cases h with
    | given hnames => exact selectedNames_of_ne_nil hnames group
    | group hfound => simp [selectedNames, hfound]
    | defaultGroup hfound => simp [selectedNames, hfound]
    | nothing hmissing => simp [selectedNames, hmissing]

theorem selectedNames_eq_error_iff :
    c.selectedNames names group = .error e ↔
      ∃ name, names = [] ∧ group = some name ∧ c.groups.lookup name = none ∧
        e = .unknownGroup name := by
  constructor
  · intro h
    unfold selectedNames at h
    split at h
    · cases h
    · rename_i hnames
      split at h
      · cases h
      · rename_i name hmissing
        cases h
        exact ⟨name, by simpa using hnames, rfl, hmissing, rfl⟩
      · cases h
  · rintro ⟨name, rfl, rfl, hmissing, rfl⟩
    simp [selectedNames, hmissing]

/-- The first name that is not configured. -/
theorem find?_unknown_eq_none_iff :
    (selected.find? fun name => (c.implementations.lookup name).isNone) = none ↔
      ∀ n ∈ selected, c.Configures n := by
  simp only [List.find?_eq_none, isNone_lookup_iff, Decidable.not_not, Configures]

theorem find?_unknown_eq_some_iff {name : String} :
    (selected.find? fun name => (c.implementations.lookup name).isNone) = some name ↔
      ∃ before after, selected = before ++ name :: after ∧ (∀ n ∈ before, c.Configures n) ∧
        ¬ c.Configures name := by
  rw [List.find?_eq_some_iff_append, isNone_lookup_iff]
  have hconfigured : ∀ n, (!(c.implementations.lookup n).isNone) = true ↔ c.Configures n := by
    intro n
    rw [Bool.not_eq_true', ← Bool.not_eq_true, isNone_lookup_iff, Decidable.not_not, Configures]
  simp only [hconfigured, Configures]
  constructor
  · rintro ⟨hname, before, after, hselected, hbefore⟩
    exact ⟨before, after, hselected, hbefore, hname⟩
  · rintro ⟨before, after, hselected, hbefore, hname⟩
    exact ⟨hname, before, after, hselected, hbefore⟩

/-- Names are resolved exactly when all are configured, all differ, and there are two. -/
theorem resolve_eq_ok_iff :
    c.resolve names group = .ok selected ↔
      c.Selects names group selected ∧ (∀ n ∈ selected, c.Configures n) ∧ selected.Nodup ∧
        2 ≤ selected.length := by
  unfold resolve
  rw [bind_eq_ok_iff, ← checkNames_eq_ok_iff, ← find?_unknown_eq_none_iff,
    ← selectedNames_eq_ok_iff]
  constructor
  · rintro ⟨found, hfound, h⟩
    split at h
    · cases h
    · rename_i hnone
      obtain ⟨_, hcheck, h⟩ := bind_eq_ok_iff.mp h
      cases h
      exact ⟨hfound, hnone, hcheck⟩
  · rintro ⟨hfound, hnone, hcheck⟩
    refine ⟨selected, hfound, ?_⟩
    rw [hnone]
    exact bind_eq_ok_iff.mpr ⟨(), hcheck, rfl⟩

theorem resolve_eq_error_iff :
    c.resolve names group = .error e ↔ c.Refused names group e := by
  unfold resolve
  rw [bind_eq_error_iff, selectedNames_eq_error_iff]
  constructor
  · rintro (⟨name, hnames, hgroup, hmissing, rfl⟩ | ⟨selected, hselected, h⟩)
    · exact .unknownGroup hnames hgroup hmissing
    · have hselects := selectedNames_eq_ok_iff.mp hselected
      split at h
      · rename_i name hunknown
        cases h
        obtain ⟨before, after, rfl, hbefore, hname⟩ := find?_unknown_eq_some_iff.mp hunknown
        exact .unknownImplementation hselects hbefore hname
      · rename_i hnone
        have hall := find?_unknown_eq_none_iff.mp hnone
        rcases bind_eq_error_iff.mp h with hcheck | ⟨_, -, h⟩
        · exact .unfit hselects hall (checkNames_eq_error_iff.mp hcheck)
        · cases h
  · intro h
    cases h with
    | unknownGroup hnames hgroup hmissing => exact Or.inl ⟨_, hnames, hgroup, hmissing, rfl⟩
    | @unknownImplementation before after name hselected hbefore hname =>
      have hunknown := find?_unknown_eq_some_iff.mpr ⟨before, after, rfl, hbefore, hname⟩
      refine Or.inr ⟨_, selectedNames_eq_ok_iff.mpr hselected, ?_⟩
      rw [hunknown]
      rfl
    | unfit hselected hall hunfit =>
      have hcheck := checkNames_eq_error_iff.mpr hunfit
      refine Or.inr ⟨_, selectedNames_eq_ok_iff.mpr hselected, ?_⟩
      rw [find?_unknown_eq_none_iff.mpr hall]
      exact bind_eq_error_iff.mpr (Or.inl hcheck)

end Config

/-! ### Tools that are made ready -/

/-- No command that there is for a kind of input is empty. -/
def Startable (commands : Command.Set) : Prop :=
  ∀ kind template, commands.forKind kind = some template → template.arguments ≠ []

theorem isEmpty_iff {template : Command.Template} :
    template.isEmpty = true ↔ template.arguments = [] := List.isEmpty_iff

theorem find?_empty_eq_none_iff {commands : Command.Set} :
    (Kind.all.find? fun kind => (commands.forKind kind).any Command.Template.isEmpty) = none ↔
      Startable commands := by
  rw [List.find?_eq_none]
  constructor
  · intro h kind template htemplate hempty
    have hkind : kind ∈ Kind.all := by cases kind <;> decide
    exact h kind hkind ((Option.any_eq_true _ _).mpr ⟨template, htemplate, isEmpty_iff.mpr hempty⟩)
  · intro h kind _ hany
    obtain ⟨template, htemplate, hempty⟩ := (Option.any_eq_true _ _).mp hany
    exact h kind template htemplate (isEmpty_iff.mp hempty)

namespace Config

/-- Names that cannot be made ready for a comparison, and why. -/
inductive Unbuildable (c : Config) (names : List String) (comparisonName : String) :
    ConfigError → Prop
  | unknownComparison (hmissing : c.comparisons.lookup comparisonName = none)
      (hname : comparisonName ≠ defaultComparison) :
    Unbuildable c names comparisonName (.unknownComparison comparisonName)
  | emptyCommand {name : String} {i : Implementation} {kind : Kind} {template : Command.Template}
      (hname : name ∈ names) (hfound : c.implementations.lookup name = some i)
      (htemplate : i.commands.forKind kind = some template) (hempty : template.arguments = []) :
    Unbuildable c names comparisonName (.emptyCommand name kind)

variable {c : Config} {names : List String} {name comparisonName : String}
  {timeout : Command.Bound} {e : ConfigError}

theorem comparison_eq_error_iff :
    c.comparison name = .error e ↔ c.comparisons.lookup name = none ∧
      name ≠ defaultComparison ∧ e = .unknownComparison name := by
  unfold comparison
  cases c.comparisons.lookup name with
  | some found => simp
  | none =>
    dsimp only
    split
    · rename_i hname
      simp [beq_iff_eq.mp hname]
    · rename_i hname
      rw [Except.error.injEq]
      constructor
      · rintro rfl
        exact ⟨rfl, by simpa using hname, rfl⟩
      · rintro ⟨-, -, rfl⟩
        rfl

theorem exists_of_tool_eq_ok {t : Command.Tool} (h : c.tool timeout name = .ok t) :
    ∃ i, c.implementations.lookup name = some i ∧ Startable i.commands ∧ t.name = name ∧
      t.commands = i.commands := by
  unfold tool at h
  split at h
  · cases h
  · rename_i i hfound
    split at h
    · cases h
    · rename_i hnone
      cases h
      exact ⟨i, hfound, find?_empty_eq_none_iff.mp hnone, rfl, rfl⟩

/-- A configured implementation cannot be made ready only for an empty command. -/
theorem unbuildable_of_tool_eq_error (hname : name ∈ names) (hconfigured : c.Configures name)
    (h : c.tool timeout name = .error e) : c.Unbuildable names comparisonName e := by
  unfold tool at h
  split at h
  · rename_i hmissing
    exact absurd hconfigured (isNone_lookup_iff.mp (by rw [hmissing]; rfl))
  · rename_i i hfound
    split at h
    · rename_i kind hkind
      cases h
      have hany : (i.commands.forKind kind).any Command.Template.isEmpty = true := by
        simpa using List.find?_some hkind
      obtain ⟨template, htemplate, hempty⟩ := (Option.any_eq_true _ _).mp hany
      exact .emptyCommand hname hfound htemplate (isEmpty_iff.mp hempty)
    · cases h

theorem of_tools_eq_ok {tools : List Command.Tool} (h : c.tools names timeout = .ok tools) :
    tools.map (·.name) = names ∧ (∀ t ∈ tools, Startable t.commands) ∧
      ∀ name ∈ names, ∃ t, c.tool timeout name = .ok t := by
  have hready := mapM_eq_ok_iff.mp h
  clear h
  induction hready with
  | nil => simp
  | @cons name t names tools hfirst _ ih =>
    obtain ⟨hnames, hstartable, hothers⟩ := ih
    obtain ⟨i, -, hcommands, hname, hsame⟩ := exists_of_tool_eq_ok hfirst
    rw [List.map_cons, hname, hnames, List.forall_mem_cons, List.forall_mem_cons, hsame]
    exact ⟨rfl, ⟨hcommands, hstartable⟩, ⟨t, hfirst⟩, hothers⟩

end Config

/-! ### Commands that are started -/

/-- Programs are run in a way that tells a command to be empty only if it is. -/
def TellsEmpty (launch : Command.Launch) : Prop :=
  ∀ argv timeout, (launch argv timeout).MayFail .emptyCommand → argv = []

theorem tellsEmpty_launch : TellsEmpty Launch.launch := by
  intro argv timeout h
  cases argv with
  | nil => rfl
  | cons program arguments =>
    exfalso
    unfold Launch.launch at h
    dsimp only at h
    split at h
    · rcases h.of_bind with hzero | ⟨_, hzero, -⟩
      · cases hzero.of_throw
      · exact Attempt.not_mayGive_throw _ _ hzero
    · rcases h.of_bind with hget | ⟨files, -, h⟩
      · exact Attempt.not_mayFail_get _ hget
      · split at h
        · cases h.of_throw
        · rcases h.of_bind with hset | ⟨_, -, h⟩
          · exact Attempt.not_mayFail_set _ _ hset
          · exact Attempt.not_mayFail_pure _ _ h

theorem not_emptyCommand_of_run {launch : Command.Launch} (htells : TellsEmpty launch)
    {t : Command.Tool} (h : Startable t.commands) (kind : Kind) (path program : String)
    (query : Option String) :
    ¬ (t.run launch kind path query).MayFail (.launch program .emptyCommand) := by
  intro hfail
  obtain ⟨template, htemplate, hlaunch⟩ := Command.Tool.launch_of_run hfail
  have hnil := htells _ _ hlaunch
  rw [Command.Template.render, List.map_eq_nil_iff] at hnil
  exact h kind template htemplate hnil

/-! ### Runners that are built -/

namespace Runner

theorem unreadable_of_digest {files : FileSystem} {source : InputSource} {problem : InputProblem}
    (h : digest files source = .error problem) : ∃ path reason, problem = .unreadable path reason := by
  unfold digest at h
  split at h
  · cases h
  · split at h
    · cases h
    · cases h
      exact ⟨_, _, rfl⟩

/-- What fails when a tool is run on an input is the run of one of the tools. -/
theorem run_of_check {r : Runner} {launch : Command.Launch} {input : LedgerInput} {name : String}
    {fault : Fault} (h : (r.check launch input).MayFail (.execution name fault)) :
    ∃ t ∈ r.tools, t.name = name ∧
      (t.run launch input.kind input.source.path input.query).MayFail fault := by
  unfold check at h
  split at h
  · cases h.of_throw
  · rcases h.of_bind with hget | ⟨files, -, h⟩
    · exact absurd hget (Attempt.not_mayFail_get _)
    · rcases h.of_bind with hdigest | ⟨sha256, -, h⟩
      · obtain ⟨path, reason, hproblem⟩ := unreadable_of_digest hdigest.of_ofExcept
        cases hproblem
      · rcases h.of_bind with hprovide | ⟨outcomes, -, h⟩
        · obtain ⟨t, ht, houtcome⟩ := hprovide.of_provide.of_mapM
          obtain ⟨fault', hrun, hsame⟩ := houtcome.of_mapError
          cases hsame
          exact ⟨t, ht, rfl, hrun⟩
        · exact absurd h (Attempt.not_mayFail_pure _ _)

variable {c : Config} {names : List String} {comparisonName : String} {timeout : Command.Bound}

/-- A runner that is built has the tools of its names in order, none with an empty command. -/
theorem of_ofConfig_eq_ok {r : Runner} (h : ofConfig c names comparisonName timeout = .ok r) :
    r.names = names ∧ (∀ t ∈ r.tools, Startable t.commands) ∧
      ∀ e, ¬ c.Unbuildable names comparisonName e := by
  obtain ⟨comparison, hcomparison, h⟩ := exists_of_bind_eq_ok h
  obtain ⟨tools, htools, h⟩ := exists_of_bind_eq_ok h
  obtain ⟨runner, hrunner, h⟩ := exists_of_bind_eq_ok h
  obtain ⟨_, _, hof⟩ := exists_of_bind_eq_ok hrunner
  cases hof
  cases h
  obtain ⟨hnames, hstartable, hready⟩ := Config.of_tools_eq_ok htools
  refine ⟨hnames, hstartable, ?_⟩
  intro e hunbuildable
  cases hunbuildable with
  | unknownComparison hmissing hname =>
    have herror := Config.comparison_eq_error_iff.mpr ⟨hmissing, hname, rfl⟩
    rw [hcomparison] at herror
    cases herror
  | emptyCommand hname hfound htemplate hempty =>
    obtain ⟨t, ht⟩ := hready _ hname
    obtain ⟨i, hfound', hcommands, -⟩ := Config.exists_of_tool_eq_ok ht
    rw [hfound] at hfound'
    cases hfound'
    exact hcommands _ _ htemplate hempty

/-- Names that may run together are made ready but for the comparison and the commands. -/
theorem unbuildable_of_ofConfig_eq_error {e : ConfigError}
    (hconfigured : ∀ n ∈ names, c.Configures n) (hcheck : checkNames names = .ok ())
    (h : ofConfig c names comparisonName timeout = .error e) :
    c.Unbuildable names comparisonName e := by
  rcases bind_eq_error_iff.mp h with hcomparison | ⟨comparison, _, h⟩
  · obtain ⟨hmissing, hname, rfl⟩ := Config.comparison_eq_error_iff.mp hcomparison
    exact .unknownComparison hmissing hname
  · rcases bind_eq_error_iff.mp h with htools | ⟨tools, htools, h⟩
    · obtain ⟨name, hname, htool⟩ := exists_of_mapM_eq_error htools
      exact Config.unbuildable_of_tool_eq_error hname (hconfigured name hname) htool
    · obtain ⟨hnames, -⟩ := Config.of_tools_eq_ok htools
      rcases bind_eq_error_iff.mp h with hof | ⟨_, _, h⟩
      · rcases bind_eq_error_iff.mp hof with hfails | ⟨_, _, h⟩
        · rw [hnames, hcheck] at hfails
          cases hfails
        · cases h
      · cases h

end Runner

/-- Names are resolved exactly when they are those asked for and all configured, all
different and at least two, and what they are not is reported in this order. Resolved names
are then made ready but for an unknown comparison or an empty command. A runner that is
made ready has its tools in the order of the names, no command of theirs is empty, and
however programs are run, none is ever reported as empty when an input is checked. -/
theorem resolved_names_build (c : Config) (names : List String) (group : Option String) :
    (∀ selected, c.resolve names group = .ok selected ↔
      c.Selects names group selected ∧ (∀ n ∈ selected, c.Configures n) ∧ selected.Nodup ∧
        2 ≤ selected.length) ∧
    (∀ e, c.resolve names group = .error e ↔ c.Refused names group e) ∧
    (∀ selected, c.resolve names group = .ok selected → ∀ comparisonName timeout,
      ((∃ r, Runner.ofConfig c selected comparisonName timeout = .ok r) ↔
        ∀ e, ¬ c.Unbuildable selected comparisonName e) ∧
      ∀ e, Runner.ofConfig c selected comparisonName timeout = .error e →
        c.Unbuildable selected comparisonName e) ∧
    (∀ given comparisonName timeout r,
      Runner.ofConfig c given comparisonName timeout = .ok r →
      r.names = given ∧ (∀ t ∈ r.tools, Startable t.commands) ∧
      ∀ launch, TellsEmpty launch → ∀ input files name program,
        ((r.check launch input).run.run files).1 ≠
          .error (.execution name (.launch program .emptyCommand))) ∧
    TellsEmpty Launch.launch := by
  refine ⟨fun _ => Config.resolve_eq_ok_iff, fun _ => Config.resolve_eq_error_iff, ?_, ?_,
    tellsEmpty_launch⟩
  · intro selected hresolved comparisonName timeout
    obtain ⟨-, hconfigured, hfit⟩ := Config.resolve_eq_ok_iff.mp hresolved
    have hfails : ∀ e, Runner.ofConfig c selected comparisonName timeout = .error e →
        c.Unbuildable selected comparisonName e := fun _ =>
      Runner.unbuildable_of_ofConfig_eq_error hconfigured (checkNames_eq_ok_iff.mpr hfit)
    refine ⟨⟨?_, ?_⟩, hfails⟩
    · rintro ⟨r, hr⟩
      exact (Runner.of_ofConfig_eq_ok hr).2.2
    · intro hbuildable
      cases hbuilt : Runner.ofConfig c selected comparisonName timeout with
      | ok r => exact ⟨r, rfl⟩
      | error e => exact absurd (hfails e hbuilt) (hbuildable e)
  · intro given comparisonName timeout r hr
    obtain ⟨hnames, hstartable, -⟩ := Runner.of_ofConfig_eq_ok hr
    refine ⟨hnames, hstartable, ?_⟩
    intro launch htells input files name program hfail
    obtain ⟨t, ht, -, hrun⟩ := Runner.run_of_check ⟨files, hfail⟩
    exact not_emptyCommand_of_run htells (hstartable t ht) _ _ _ _ hrun

/-- A name that is not configured is reported before one that is repeated. -/
example : Config.resolve { implementations := [("a", {}), ("b", {})] } ["b", "b", "c"] none =
    .error (.unknownImplementation "c") := by decide

end LedgerConformance.Differential
