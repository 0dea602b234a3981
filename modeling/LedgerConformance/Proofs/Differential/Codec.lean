import LedgerConformance.Differential.Config
import LedgerConformance.Proofs.Case.Codec

/-!
The configuration of differential runs, written and read. Implementations, comparisons
and groups are maps, whose order comes from their keys and not from the document. Every
part is read as what it was written from, and with the parts the whole.
-/

namespace LedgerConformance

open Json

namespace Command

namespace Template

theorem toJson_ne_null (t : Template) : t.toJson ≠ .null := by
  cases t with
  | argv list => exact Json.noConfusion
  | line text => exact Json.noConfusion

theorem reads_toJson (t : Template) : Reads decode t.toJson t := by
  intro doc hsaid
  cases t with
  | argv list =>
    have hlist := reads_strings list doc hsaid
    change doc.Says (.array (list.map .string)) at hsaid
    cases hsaid with
    | array hitems =>
      rw [decode, hlist]
      · rfl
      · exact fun _ => Document.noConfusion
  | line text =>
    change doc.Says (.string text) at hsaid
    cases hsaid
    rfl

end Template

namespace Set

/-- The fields of a command set in the order in which they are written. -/
def parts (s : Set) : List (String × Option Json) :=
  [("check", s.check.map Template.toJson), ("syntax", s.parsing.map Template.toJson),
    ("validation", s.validation.map Template.toJson), ("query", s.query.map Template.toJson)]

/-- The command that checks may be read under another name, but is written under its own. -/
def aliases (name : String) : List String := if name = "check" then ["parse"] else []

theorem toJson_eq (s : Set) : s.toJson = .object (present s.parts) := by
  simp [toJson, parts, present]

theorem reads_toJson (s : Set) : Reads decode s.toJson s := by
  intro doc hsaid
  have hnames : s.parts.map Prod.fst = ["check", "syntax", "validation", "query"] := rfl
  have haliases : ∀ part ∈ s.parts, ∀ name ∈ aliases part.1, name ∉ s.parts.map Prod.fst := by
    intro part _ name hname
    have hparse : name = "parse" := by
      unfold aliases at hname
      split at hname
      · exact List.mem_singleton.mp hname
      · cases hname
    rw [hnames, hparse]
    decide
  have htemplate : ∀ t : Option Template,
      ReadsField (Decode.maybe Template.decode) (t.map Template.toJson) t :=
    fun _ => readsField_maybe fun t _ => ⟨t.toJson_ne_null, t.reads_toJson⟩
  rw [toJson_eq] at hsaid
  obtain ⟨found, hrecord, hfound⟩ :=
    record_of_says_aliases aliases (by rw [hnames]; decide) haliases hsaid
  simp only [parts, List.forall_mem_cons] at hfound
  obtain ⟨hcheck, hparsing, hvalidation, hquery, -⟩ := hfound
  refine bind_eq_some_of hrecord ?_
  refine bind_eq_some_of (htemplate _ _ hcheck) ?_
  refine bind_eq_some_of (htemplate _ _ hparsing) ?_
  refine bind_eq_some_of (htemplate _ _ hvalidation) ?_
  exact bind_eq_some_of (htemplate _ _ hquery) rfl

end Set

end Command

namespace Differential

theorem Dimension.reads_name (d : Dimension) : Reads Dimension.decode (.string d.name) d := by
  have hfound : ofName? d.name = some d := by cases d <;> rfl
  exact reads_word hfound

namespace Toggles

def parts (t : Toggles) : List (String × Option Json) :=
  Dimension.all.map fun d => (d.name, some (.bool (t.enabled d)))

theorem toJson_eq (t : Toggles) : t.toJson = .object (present t.parts) := rfl

theorem reads_toJson (t : Toggles) : Reads decode t.toJson t := by
  intro doc hsaid
  have hnames : t.parts.map Prod.fst = Dimension.all.map Dimension.name := rfl
  rw [toJson_eq] at hsaid
  obtain ⟨found, hrecord, hfound⟩ := record_of_says (by rw [hnames]; decide) hsaid
  simp only [parts, Dimension.all, List.map_cons, List.map_nil, List.forall_mem_cons] at hfound
  obtain ⟨hexit, herrors, hcount, houtput, -⟩ := hfound
  refine bind_eq_some_of hrecord ?_
  refine bind_eq_some_of (readsField_withDefault (reads_bool _) _ hexit) ?_
  refine bind_eq_some_of (readsField_withDefault (reads_bool _) _ herrors) ?_
  refine bind_eq_some_of (readsField_withDefault (reads_bool _) _ hcount) ?_
  exact bind_eq_some_of (readsField_withDefault (reads_bool _) _ houtput) rfl

end Toggles

namespace Comparison

def parts (c : Comparison) : List (String × Option Json) :=
  [("compare", some c.compare.toJson), ("strip_paths", some (.bool c.stripPaths)),
    ("sort_lines", some (.bool c.sortLines))]

theorem toJson_eq (c : Comparison) : c.toJson = .object (present c.parts) := rfl

theorem reads_toJson (c : Comparison) : Reads decode c.toJson c := by
  intro doc hsaid
  have hnames : c.parts.map Prod.fst = ["compare", "strip_paths", "sort_lines"] := rfl
  rw [toJson_eq] at hsaid
  obtain ⟨found, hrecord, hfound⟩ := record_of_says (by rw [hnames]; decide) hsaid
  simp only [parts, List.forall_mem_cons] at hfound
  obtain ⟨hcompare, hstrip, hsort, -⟩ := hfound
  refine bind_eq_some_of hrecord ?_
  refine bind_eq_some_of (readsField_withDefault c.compare.reads_toJson _ hcompare) ?_
  refine bind_eq_some_of (readsField_withDefault (reads_bool _) _ hstrip) ?_
  exact bind_eq_some_of (readsField_withDefault (reads_bool _) _ hsort) rfl

end Comparison

namespace Implementation

def parts (i : Implementation) : List (String × Option Json) :=
  [("commands", some i.commands.toJson), ("timeout_secs", i.timeout.map .nat)]

theorem toJson_eq (i : Implementation) : i.toJson = .object (present i.parts) := by
  simp [toJson, parts, present, fieldIf]

theorem reads_toJson (i : Implementation) : Reads decode i.toJson i := by
  intro doc hsaid
  have hnames : i.parts.map Prod.fst = ["commands", "timeout_secs"] := rfl
  rw [toJson_eq] at hsaid
  obtain ⟨found, hrecord, hfound⟩ := record_of_says (by rw [hnames]; decide) hsaid
  simp only [parts, List.forall_mem_cons] at hfound
  obtain ⟨hcommands, htimeout, -⟩ := hfound
  refine bind_eq_some_of hrecord ?_
  refine bind_eq_some_of (readsField_withDefault i.commands.reads_toJson _ hcommands) ?_
  exact bind_eq_some_of (readsField_nat _ _ htimeout) rfl

end Implementation

namespace Group

def parts (g : Group) : List (String × Option Json) :=
  [("implementations", some (Json.strings g.implementations)),
    ("description", g.description.map .string)]

theorem toJson_eq (g : Group) : g.toJson = .object (present g.parts) := by
  simp [toJson, parts, present, fieldIf]

theorem reads_toJson (g : Group) : Reads decode g.toJson g := by
  intro doc hsaid
  have hnames : g.parts.map Prod.fst = ["implementations", "description"] := rfl
  rw [toJson_eq] at hsaid
  obtain ⟨found, hrecord, hfound⟩ := record_of_says (by rw [hnames]; decide) hsaid
  simp only [parts, List.forall_mem_cons] at hfound
  obtain ⟨himplementations, hdescription, -⟩ := hfound
  refine bind_eq_some_of hrecord ?_
  refine bind_eq_some_of (readsField_withDefault (reads_strings _) _ himplementations) ?_
  exact bind_eq_some_of (readsField_text _ _ hdescription) rfl

end Group

namespace KnownDifference

def parts (k : KnownDifference) : List (String × Option Json) :=
  [("input_pattern", some (.string k.inputPattern)),
    ("dimension", k.dimension.map fun d => .string d.name), ("note", some (.string k.note))]

theorem toJson_eq (k : KnownDifference) : k.toJson = .object (present k.parts) := by
  simp [toJson, parts, present, fieldIf]

theorem reads_toJson (k : KnownDifference) : Reads decode k.toJson k := by
  intro doc hsaid
  have hnames : k.parts.map Prod.fst = ["input_pattern", "dimension", "note"] := rfl
  have hword : ReadsField (Decode.maybe Dimension.decode)
      (k.dimension.map fun d => .string d.name) k.dimension :=
    readsField_maybe fun d _ => ⟨Json.noConfusion, d.reads_name⟩
  rw [toJson_eq] at hsaid
  obtain ⟨found, hrecord, hfound⟩ := record_of_says (by rw [hnames]; decide) hsaid
  simp only [parts, List.forall_mem_cons] at hfound
  obtain ⟨hpattern, hdimension, hnote, -⟩ := hfound
  refine bind_eq_some_of hrecord ?_
  refine bind_eq_some_of (readsField_required (reads_string _) _ hpattern) ?_
  refine bind_eq_some_of (hword _ hdimension) ?_
  exact bind_eq_some_of (readsField_withDefault (reads_string _) _ hnote) rfl

end KnownDifference

namespace Config

/-- The maps of a configuration have their keys in order. -/
structure Ordered (c : Config) : Prop where
  implementations : Ascending c.implementations
  comparisons : Ascending c.comparisons
  groups : Ascending c.groups

def parts (c : Config) : List (String × Option Json) :=
  [("implementations", some (.object (c.implementations.map fun e => (e.1, e.2.toJson)))),
    ("comparisons", some (.object (c.comparisons.map fun e => (e.1, e.2.toJson)))),
    ("groups", some (.object (c.groups.map fun e => (e.1, e.2.toJson)))),
    ("known_differences", some (.array (c.knownDifferences.map KnownDifference.toJson)))]

theorem toJson_eq (c : Config) : c.toJson = .object (present c.parts) := rfl

theorem reads_toJson {c : Config} (h : c.Ordered) : Reads decode c.toJson c := by
  intro doc hsaid
  have hnames : c.parts.map Prod.fst =
      ["implementations", "comparisons", "groups", "known_differences"] := rfl
  rw [toJson_eq] at hsaid
  obtain ⟨found, hrecord, hfound⟩ := record_of_says (by rw [hnames]; decide) hsaid
  simp only [parts, List.forall_mem_cons] at hfound
  obtain ⟨himplementations, hcomparisons, hgroups, hknown, -⟩ := hfound
  have himplementation := reads_map h.implementations fun e _ => e.2.reads_toJson
  have hcomparison := reads_map h.comparisons fun e _ => e.2.reads_toJson
  have hgroup := reads_map h.groups fun e _ => e.2.reads_toJson
  have hdifference : Reads (Decode.list KnownDifference.decode)
      (.array (c.knownDifferences.map KnownDifference.toJson)) c.knownDifferences :=
    reads_list fun k _ => k.reads_toJson
  refine bind_eq_some_of hrecord ?_
  refine bind_eq_some_of (readsField_withDefault himplementation _ himplementations) ?_
  refine bind_eq_some_of (readsField_withDefault hcomparison _ hcomparisons) ?_
  refine bind_eq_some_of (readsField_withDefault hgroup _ hgroups) ?_
  exact bind_eq_some_of (readsField_withDefault hdifference _ hknown) rfl

theorem ordered_of_decode {doc : Document} {c : Config} (h : decode doc = some c) :
    c.Ordered := by
  obtain ⟨fields, -, h⟩ := Option.bind_eq_some_iff.mp h
  split at h
  · simp only [Option.bind_eq_bind, Option.bind_eq_some_iff, Option.pure_def,
      Option.some.injEq] at h
    obtain ⟨implementations, himplementations, comparisons, hcomparisons, groups, hgroups, _, -,
      rfl⟩ := h
    exact {
      implementations := of_withDefault himplementations .nil fun _ h => (ordered_of_map h).1
      comparisons := of_withDefault hcomparisons .nil fun _ h => (ordered_of_map h).1
      groups := of_withDefault hgroups .nil fun _ h => (ordered_of_map h).1 }
  · cases h

end Config

/-- Configurations, expectations, inputs and command sets are read as what they were
written from, and what was read once is read again from what is written of it. -/
theorem roundTrips_codecs :
    RoundTrips Config.decode Config.toJson Config.Ordered ∧
      RoundTrips Expected.decode Expected.toJson Expected.Ordered ∧
      RoundTrips Input.decode Input.toJson (fun _ => True) ∧
      RoundTrips Command.Set.decode Command.Set.toJson (fun _ => True) :=
  ⟨.of_reads (fun _ h => Config.reads_toJson h) (fun _ _ h => Config.ordered_of_decode h),
    .of_reads (fun _ h => Expected.reads_toJson h) (fun _ _ h => Expected.ordered_of_decode h),
    .of_reads (fun i _ => i.reads_toJson) (fun _ _ _ => trivial),
    .of_reads (fun s _ => s.reads_toJson) (fun _ _ _ => trivial)⟩

/-- Two tools, one with a list of arguments and one with lines. -/
def pairedTools : Config where
  implementations := [
    ("first", {
      commands := {
        check := some (.argv ["first", "check", "\x7bfile\x7d"])
        query := some (.line "first query \x7bfile\x7d \x7bquery\x7d") }
      timeout := some 5 }),
    ("second", { commands := { check := some (.line "second \x7bfile\x7d") } })]
  comparisons := [("strict", { compare := { hasErrors := false, output := true } })]
  groups := [("both", { implementations := ["first", "second"], description := some "a pair" })]
  knownDifferences := [{ inputPattern := "include", dimension := some .output }]

theorem roundTrips_codecs_pairedTools :
    pairedTools.Ordered ∧ Config.decode (.ofJson pairedTools.toJson) = some pairedTools := by
  have hordered : pairedTools.Ordered := by
    constructor <;> decide
  exact ⟨hordered,
    roundTrips_codecs.1.read_write pairedTools hordered _ (Document.says_ofJson _)⟩

end Differential

end LedgerConformance
