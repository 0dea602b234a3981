import LedgerConformance.Catalogue.Load
import LedgerConformance.Differential.Run
import LedgerConformance.Execution.Reference
import LedgerConformance.Proofs.Steps
import Mathlib.Data.List.Nodup

/-!
What a loaded catalogue is. A catalogue loads exactly when its manifest and all
suite files that are there can be read, every record in them describes a case that
can be run, and no identifier stands twice. It then holds the declared cases in
their order, and none of them can come to the faults of a case without an input or
of a query case without a query.
-/

namespace LedgerConformance

open Json

/-- The input of a record stands in it or in a file, and a query case has its query. -/
structure Record.Valid (r : Record) : Prop where
  oneSource : r.input.inline.isSome = !r.input.file.isSome
  hasQuery : Kind.infer r.input r.expected = .query → r.input.query.isSome = true

/-- The case that a record describes in a suite. -/
def Record.caseIn (r : Record) (suite suiteDir : String) : Case where
  id := r.id
  description := r.description
  suite := suite
  suiteDir := suiteDir
  tags := Text.nameSet r.tags
  skip := r.skip
  skipReason := r.skipReason
  specRef := r.specRef
  input := r.input
  expected := r.expected
  kind := Kind.infer r.input r.expected

theorem Record.fault?_eq_none_iff (r : Record) : r.fault? = none ↔ r.Valid := by
  have hvalid : r.Valid ↔ r.input.inline.isSome = !r.input.file.isSome ∧
      (Kind.infer r.input r.expected = .query → r.input.query.isSome = true) :=
    ⟨fun h => ⟨h.oneSource, h.hasQuery⟩, fun h => ⟨h.1, h.2⟩⟩
  rw [hvalid]
  unfold fault?
  cases hinline : r.input.inline with
  | none => cases hfile : r.input.file <;> simp [Option.isSome_iff_ne_none]
  | some text => cases hfile : r.input.file <;> simp [Option.isSome_iff_ne_none]

theorem Record.toCase_eq_ok_iff (r : Record) (suite suiteDir : String) (c : Case) :
    r.toCase suite suiteDir = .ok c ↔ r.Valid ∧ c = r.caseIn suite suiteDir := by
  rw [← r.fault?_eq_none_iff]
  unfold toCase
  cases r.fault? with
  | some fault => simp
  | none =>
    simp only [true_and, Except.ok.injEq]
    exact eq_comm

/-- A value that stands for a case: it has an identifier and a description, and the
record that it describes is valid. -/
structure DeclaresCase (raw : Json) : Prop where
  id : ∃ text, raw.get? "id" = some (.string text)
  description : ∃ text, raw.get? "description" = some (.string text)
  record : ∃ r, Record.decode (.ofJson raw) = some r ∧ r.Valid

/-- The case of a value in a suite. -/
def caseOf? (suite suiteDir : String) (raw : Json) : Option Case :=
  (Record.decode (.ofJson raw)).map (·.caseIn suite suiteDir)

namespace Catalogue

theorem isNone_toString?_eq_false_iff (value : Option Json) :
    (value.bind Json.toString?).isNone = false ↔ ∃ text, value = some (.string text) := by
  cases value with
  | none => simp
  | some v => cases v <;> simp [Json.toString?]

theorem missingField?_eq_none_iff (raw : Json) :
    missingField? raw = none ↔ (∃ text, raw.get? "id" = some (.string text)) ∧
      ∃ text, raw.get? "description" = some (.string text) := by
  simp only [missingField?, List.find?_eq_none, List.forall_mem_cons, Bool.not_eq_true,
    isNone_toString?_eq_false_iff]
  simp

theorem caseAt_eq_ok_iff (path suite suiteDir : String) (index : Nat) (raw : Json) (c : Case) :
    caseAt path suite suiteDir index raw = .ok c ↔
      DeclaresCase raw ∧ caseOf? suite suiteDir raw = some c := by
  have hfields := missingField?_eq_none_iff raw
  unfold caseAt caseOf?
  cases hmissing : missingField? raw with
  | some field =>
    simp only [hmissing, reduceCtorEq, false_iff] at hfields ⊢
    rintro ⟨hraw, -⟩
    exact hfields ⟨hraw.id, hraw.description⟩
  | none =>
    obtain ⟨hid, hdescription⟩ := hfields.mp hmissing
    cases hdecode : Record.decode (.ofJson raw) with
    | none => simp
    | some record =>
      simp only [Record.toCase_eq_ok_iff, Option.map_some, Option.some.injEq]
      constructor
      · rintro ⟨hvalid, rfl⟩
        exact ⟨⟨hid, hdescription, record, hdecode, hvalid⟩, rfl⟩
      · rintro ⟨hraw, rfl⟩
        obtain ⟨r, hr, hvalid⟩ := hraw.record
        rw [hdecode] at hr
        cases hr
        exact ⟨hvalid, rfl⟩

/-- The records of a suite give cases exactly when each of them stands for one. -/
theorem casesFrom_eq_ok_iff (path suite suiteDir : String) (index : Nat) (raws : List Json)
    (cases : List Case) :
    casesFrom path suite suiteDir index raws = .ok cases ↔
      (∀ raw ∈ raws, DeclaresCase raw) ∧ cases = raws.filterMap (caseOf? suite suiteDir) := by
  induction raws generalizing index cases with
  | nil =>
    simp only [casesFrom, Except.ok.injEq, List.filterMap_nil, List.not_mem_nil, false_imp_iff,
      implies_true, true_and]
    exact eq_comm
  | cons raw rest ih =>
    simp only [casesFrom, bind_eq_ok_iff, caseAt_eq_ok_iff, ih, List.forall_mem_cons]
    constructor
    · rintro ⟨first, ⟨hraw, hfirst⟩, others, ⟨hrest, rfl⟩, h⟩
      cases h
      exact ⟨⟨hraw, hrest⟩, by rw [List.filterMap_cons_some hfirst]⟩
    · rintro ⟨⟨hraw, hrest⟩, rfl⟩
      obtain ⟨r, hr, -⟩ := hraw.record
      have hfirst : caseOf? suite suiteDir raw = some (r.caseIn suite suiteDir) := by
        rw [caseOf?, hr]
        rfl
      refine ⟨_, ⟨hraw, hfirst⟩, _, ⟨hrest, rfl⟩, ?_⟩
      rw [List.filterMap_cons_some hfirst]
      rfl

/-- What a readable file says, read in some way. -/
def read? {α : Type} (decode : Document → Option α) (fs : FileSystem) (path : String) :
    Option α := do
  let text ← (fs.readText path).toOption
  let doc ← Document.read? text.toList
  decode doc

/-- The cases of a suite file in its order. -/
def casesOf (path : String) (file : SuiteFile) : List Case :=
  let suiteDir := (Path.parent? path).getD "."
  file.tests.filterMap (caseOf? (file.suite.getD ((Path.fileName? suiteDir).getD "")) suiteDir)

theorem readText_eq_ok_iff (fs : FileSystem) (path text : String) :
    readText fs path = .ok text ↔ (fs.readText path).toOption = some text := by
  unfold readText
  cases fs.readText path <;> simp [Except.mapError, Except.toOption]

theorem loadSuite_eq_ok_iff (fs : FileSystem) (path : String) (cases : List Case) :
    loadSuite fs path = .ok cases ↔ ∃ file, read? SuiteFile.decode fs path = some file ∧
      (∀ raw ∈ file.tests, DeclaresCase raw) ∧ cases = casesOf path file := by
  simp only [loadSuite, bind_eq_ok_iff, readText_eq_ok_iff, read?]
  cases htext : (fs.readText path).toOption with
  | none => simp
  | some text =>
    simp only [Option.some.injEq, exists_eq_left', Option.bind_eq_bind, Option.bind_some]
    cases (Document.read? text.toList).bind SuiteFile.decode with
    | none => simp [throw, throwThe, MonadExceptOf.throw]
    | some file =>
      simp only [casesFrom_eq_ok_iff, Option.some.injEq, exists_eq_left']
      rfl

/-- The identifiers that are taken and those that come stay apart exactly when the
cases are all added. -/
theorem foldlM_addCase_eq_ok_iff (done : Catalogue) (hdone : (done.cases.map Case.id).Nodup)
    (cases : List Case) (result : Catalogue) :
    cases.foldlM addCase done = .ok result ↔ ((done.cases ++ cases).map Case.id).Nodup ∧
      result = { done with cases := done.cases ++ cases } := by
  induction cases generalizing done with
  | nil =>
    simp only [List.foldlM_nil, pure, Except.pure, Except.ok.injEq, List.append_nil, hdone,
      true_and]
    exact eq_comm
  | cons c rest ih =>
    have happend : done.cases ++ c :: rest = (done.cases ++ [c]) ++ rest := by simp
    rw [List.foldlM_cons, bind_eq_ok_iff, happend]
    unfold addCase
    cases hfind : done.cases.find? (·.id == c.id) with
    | some first =>
      have hfirst := List.mem_of_find?_eq_some hfind
      have hid : first.id = c.id := by simpa using List.find?_some hfind
      simp only [reduceCtorEq, false_and, exists_false, false_iff]
      rintro ⟨hnodup, -⟩
      rw [List.map_append, List.map_append] at hnodup
      have hapart := (List.nodup_append.mp hnodup.of_append_left).2.2
      exact hapart first.id (List.mem_map_of_mem hfirst) c.id (by simp) hid
    | none =>
      have hnew : c.id ∉ done.cases.map Case.id := by
        intro hmem
        obtain ⟨other, hother, hid⟩ := List.mem_map.mp hmem
        simpa [hid] using List.find?_eq_none.mp hfind other hother
      have hnext : ((done.cases ++ [c]).map Case.id).Nodup := by
        rw [List.map_append, List.map_singleton, ← List.concat_eq_append]
        exact hdone.concat hnew
      simp only [Except.ok.injEq, exists_eq_left']
      exact ih { done with cases := done.cases ++ [c] } hnext

/-- The file of the suite in a directory of a catalogue. -/
def suitePath (baseDir directory : String) : String :=
  Path.join (Path.join baseDir directory) "tests.json"

/-- The cases that a directory declares; without a file there are none. -/
def declared (fs : FileSystem) (baseDir directory : String) : List Case :=
  let path := suitePath baseDir directory
  if fs.isFile path then ((read? SuiteFile.decode fs path).map (casesOf path)).getD [] else []

/-- The suite of a directory is missing, or it can be read and each of its records
stands for a case. -/
def SuiteSound (fs : FileSystem) (baseDir directory : String) : Prop :=
  fs.isFile (suitePath baseDir directory) = true →
    ∃ file, read? SuiteFile.decode fs (suitePath baseDir directory) = some file ∧
      ∀ raw ∈ file.tests, DeclaresCase raw

/-- The files of the directories that are not there. -/
def missingSuites (fs : FileSystem) (baseDir : String) (directories : List String) :
    List String :=
  (directories.map (suitePath baseDir)).filter fun path => !fs.isFile path

/-- The catalogue with the cases of more directories. -/
def extend (fs : FileSystem) (done : Catalogue) (directories : List String) : Catalogue :=
  { done with
    cases := done.cases ++ directories.flatMap (declared fs done.baseDir)
    missing := done.missing ++ missingSuites fs done.baseDir directories }

theorem extend_nil (fs : FileSystem) (done : Catalogue) : extend fs done [] = done := by
  simp [extend, missingSuites]

theorem extend_cons (fs : FileSystem) (done : Catalogue) (directory : String)
    (rest : List String) :
    extend fs (extend fs done [directory]) rest = extend fs done (directory :: rest) := by
  simp [extend, missingSuites, List.filter_cons]
  split <;> simp

theorem extend_of_read {fs : FileSystem} {done : Catalogue} {directory : String}
    {file : SuiteFile} (hfile : fs.isFile (suitePath done.baseDir directory) = true)
    (hread : read? SuiteFile.decode fs (suitePath done.baseDir directory) = some file) :
    extend fs done [directory] =
      { done with cases := done.cases ++ casesOf (suitePath done.baseDir directory) file } := by
  simp [extend, missingSuites, declared, hfile, hread]

theorem extend_of_missing {fs : FileSystem} {done : Catalogue} {directory : String}
    (hfile : fs.isFile (suitePath done.baseDir directory) = false) :
    extend fs done [directory] =
      { done with missing := done.missing ++ [suitePath done.baseDir directory] } := by
  simp [extend, missingSuites, declared, hfile]

theorem addSuite_eq_ok_iff (fs : FileSystem) (done : Catalogue)
    (hdone : (done.cases.map Case.id).Nodup) (directory : String) (result : Catalogue) :
    addSuite fs done directory = .ok result ↔ SuiteSound fs done.baseDir directory ∧
      ((extend fs done [directory]).cases.map Case.id).Nodup ∧
      result = extend fs done [directory] := by
  have hadd : addSuite fs done directory =
      if fs.isFile (suitePath done.baseDir directory) then do
        (← loadSuite fs (suitePath done.baseDir directory)).foldlM addCase done
      else return { done with missing := done.missing ++ [suitePath done.baseDir directory] } := rfl
  rw [hadd]
  cases hfile : fs.isFile (suitePath done.baseDir directory) with
  | false =>
    have hsound : SuiteSound fs done.baseDir directory := by simp [SuiteSound, hfile]
    simp only [extend_of_missing hfile, hsound, hdone, true_and]
    constructor
    · intro h
      cases h
      rfl
    · rintro rfl
      rfl
  | true =>
    simp only [if_true, bind_eq_ok_iff, loadSuite_eq_ok_iff]
    constructor
    · rintro ⟨cases, ⟨file, hread, hraws, rfl⟩, hfold⟩
      rw [foldlM_addCase_eq_ok_iff done hdone] at hfold
      rw [extend_of_read hfile hread]
      exact ⟨fun _ => ⟨file, hread, hraws⟩, hfold⟩
    · rintro ⟨hsound, hresult⟩
      obtain ⟨file, hread, hraws⟩ := hsound hfile
      rw [extend_of_read hfile hread] at hresult
      refine ⟨_, ⟨file, hread, hraws, rfl⟩, ?_⟩
      rw [foldlM_addCase_eq_ok_iff done hdone]
      exact hresult

/-- Directories are added exactly when the suite of each is sound and no identifier
comes twice; the result is the same as adding the declared cases at once. -/
theorem foldlM_addSuite_eq_ok_iff (fs : FileSystem) (done : Catalogue)
    (hdone : (done.cases.map Case.id).Nodup) (directories : List String) (result : Catalogue) :
    directories.foldlM (addSuite fs) done = .ok result ↔
      (∀ directory ∈ directories, SuiteSound fs done.baseDir directory) ∧
      ((extend fs done directories).cases.map Case.id).Nodup ∧
      result = extend fs done directories := by
  induction directories generalizing done with
  | nil =>
    rw [extend_nil]
    simp only [List.foldlM_nil, pure, Except.pure, Except.ok.injEq, hdone, List.not_mem_nil,
      false_imp_iff, implies_true, true_and]
    exact eq_comm
  | cons directory rest ih =>
    have hbase : (extend fs done [directory]).baseDir = done.baseDir := rfl
    rw [List.foldlM_cons, bind_eq_ok_iff, List.forall_mem_cons]
    constructor
    · rintro ⟨next, hnext, hrest⟩
      obtain ⟨hsound, hnodup, rfl⟩ := (addSuite_eq_ok_iff fs done hdone directory next).mp hnext
      rw [ih _ hnodup, extend_cons, hbase] at hrest
      exact ⟨⟨hsound, hrest.1⟩, hrest.2⟩
    · rintro ⟨⟨hsound, hsounds⟩, hnodup, rfl⟩
      rw [← extend_cons] at hnodup
      -- What is taken before the rest is taken before all of it.
      have hfirst : ((extend fs done [directory]).cases.map Case.id).Nodup := by
        have hcases := hnodup
        rw [extend, List.map_append] at hcases
        exact hcases.of_append_left
      refine ⟨extend fs done [directory], ?_, ?_⟩
      · rw [addSuite_eq_ok_iff fs done hdone]
        exact ⟨hsound, hfirst, rfl⟩
      · rw [ih _ hfirst, hbase]
        exact ⟨hsounds, hnodup, (extend_cons fs done directory rest).symm⟩

/-- What the manifest at a path says, if it is a file that can be read. -/
def manifest? (fs : FileSystem) (path : String) : Option Manifest :=
  if fs.isFile path then read? Manifest.decode fs path else none

theorem loadManifest_eq_ok_iff (fs : FileSystem) (path : String) (manifest : Manifest) :
    loadManifest fs path = .ok manifest ↔ manifest? fs path = some manifest := by
  unfold loadManifest manifest? read?
  by_cases hfile : fs.isFile path = true
  · simp only [hfile, if_true, bind_eq_ok_iff, readText_eq_ok_iff]
    cases htext : (fs.readText path).toOption with
    | none => simp
    | some text =>
      simp only [Option.some.injEq, exists_eq_left', Option.bind_eq_bind, Option.bind_some]
      cases (Document.read? text.toList).bind Manifest.decode with
      | none => simp [throw, throwThe, MonadExceptOf.throw]
      | some found => simp [pure, Except.pure]
  · simp [hfile, throw, throwThe, MonadExceptOf.throw]

/-- The directory from which the suites of a manifest are found. -/
def baseOf (path : String) : String := (Path.parent? path).getD "."

/-- A manifest and suites that make a catalogue. A directory without a file for its
suite is no fault; a directory may be named twice if it declares no case. -/
structure Loadable (fs : FileSystem) (path : String) (m : Manifest) : Prop where
  manifest : manifest? fs path = some m
  suites : ∀ directory ∈ m.directories, SuiteSound fs (baseOf path) directory
  ids : ((m.directories.flatMap (declared fs (baseOf path))).map Case.id).Nodup

/-- The catalogue of the declared cases. -/
def ofManifest (fs : FileSystem) (path : String) (manifest : Manifest) : Catalogue where
  manifest := manifest
  baseDir := baseOf path
  cases := manifest.directories.flatMap (declared fs (baseOf path))
  missing := missingSuites fs (baseOf path) manifest.directories

theorem load_eq_ok_iff (fs : FileSystem) (path : String) (catalogue : Catalogue) :
    load fs path = .ok catalogue ↔
      ∃ manifest, Loadable fs path manifest ∧ catalogue = ofManifest fs path manifest := by
  have hload : load fs path = loadManifest fs path >>= fun manifest =>
      manifest.directories.foldlM (addSuite fs) { manifest, baseDir := baseOf path } := rfl
  rw [hload, bind_eq_ok_iff]
  apply exists_congr
  intro manifest
  have hempty : ofManifest fs path manifest =
      extend fs { manifest, baseDir := baseOf path } manifest.directories := by
    simp [ofManifest, extend]
  rw [loadManifest_eq_ok_iff, foldlM_addSuite_eq_ok_iff fs _ (by simp), ← hempty]
  constructor
  · rintro ⟨hmanifest, hsuites, hids, hcatalogue⟩
    exact ⟨⟨hmanifest, hsuites, hids⟩, hcatalogue⟩
  · rintro ⟨⟨hmanifest, hsuites, hids⟩, hcatalogue⟩
    exact ⟨hmanifest, hsuites, hids, hcatalogue⟩

end Catalogue

/-- A case whose kind is the one that its fields ask for and that has all that it
needs: one source of its ledger, and a query exactly if it is a query case. -/
structure Case.Complete (c : Case) : Prop where
  oneSource : c.input.inline.isSome = !c.input.file.isSome
  kind : c.kind = Kind.infer c.input c.expected
  query : c.kind = .query ↔ c.input.query.isSome = true

theorem Record.Valid.complete {r : Record} (h : r.Valid) (suite suiteDir : String) :
    (r.caseIn suite suiteDir).Complete := by
  refine ⟨h.oneSource, rfl, h.hasQuery, ?_⟩
  intro hquery
  have hinput : r.input.query.isSome = true := hquery
  simp [caseIn, Kind.infer, hinput]

theorem Catalogue.complete_of_mem_declared {fs : FileSystem} {baseDir directory : String}
    (hsound : SuiteSound fs baseDir directory) {c : Case} (hc : c ∈ declared fs baseDir directory) :
    c.Complete := by
  cases hfile : fs.isFile (suitePath baseDir directory) with
  | false => simp [declared, hfile] at hc
  | true =>
    obtain ⟨file, hread, hraws⟩ := hsound hfile
    simp only [declared, hfile, if_true, hread, Option.map_some, Option.getD_some] at hc
    obtain ⟨raw, hraw, hcase⟩ := List.mem_filterMap.mp hc
    obtain ⟨r, hdecode, hvalid⟩ := (hraws raw hraw).record
    rw [caseOf?, hdecode] at hcase
    cases hcase
    exact hvalid.complete _ _

namespace Case.Complete

variable {c : Case}

/-- The ledger of the case is its text or its file. -/
theorem source (h : c.Complete) :
    (∃ text, c.input.inline = some text) ∨
      ∃ file, c.input.inline = none ∧ c.input.file = some file := by
  have hone := h.oneSource
  cases hinline : c.input.inline with
  | some text => exact Or.inl ⟨text, rfl⟩
  | none =>
    rw [hinline] at hone
    obtain ⟨file, hfile⟩ := Option.isSome_iff_exists.mp (by simpa using hone.symm)
    exact Or.inr ⟨file, rfl, hfile⟩

theorem ofCase_eq_error (h : c.Complete) {fs : FileSystem} {fault : Fault}
    (hfault : InputSource.ofCase fs c = .error fault) : ∃ path, fault = .missingInput path := by
  unfold InputSource.ofCase InputSource.filePath? at hfault
  rcases h.source with ⟨text, hinline⟩ | ⟨file, hinline, hfile⟩
  · simp [hinline] at hfault
  · simp only [hinline, hfile, Option.map_some] at hfault
    split at hfault
    · cases hfault
    · cases hfault
      exact ⟨_, rfl⟩

theorem observeText_ne_error (h : c.Complete) (source : String) (fault : Fault) :
    Reference.observeText c.kind c.input.query source ≠ .error fault := by
  cases hkind : c.kind with
  | parsing => simp [Reference.observeText]
  | validation => simp [Reference.observeText]
  | query =>
    obtain ⟨text, htext⟩ := Option.isSome_iff_exists.mp (h.query.mp hkind)
    simp [Reference.observeText, htext]

/-- The reference implementation fails on the case only because of its file. -/
theorem observe_eq_error (h : c.Complete) {fs : FileSystem} {fault : Fault}
    (hfault : Reference.observe fs c = .error fault) :
    (∃ path, fault = .missingInput path) ∨ ∃ path reason, fault = .unreadableInput path reason := by
  have hquery : (c.kind == .query && c.input.query.isNone) = false := by
    by_cases hkind : c.kind = .query
    · have hsome := h.query.mp hkind
      rw [Option.isNone_eq_false_iff.mpr hsome, Bool.and_false]
    · simp [hkind]
  unfold Reference.observe at hfault
  simp only [hquery, Bool.false_eq_true, if_false] at hfault
  cases hinput : InputSource.ofCase fs c with
  | error problem =>
    rw [hinput] at hfault
    cases hfault
    exact Or.inl (h.ofCase_eq_error hinput)
  | ok source =>
    rw [hinput] at hfault
    cases source with
    | inline text => exact absurd hfault (h.observeText_ne_error text fault)
    | file path =>
      simp only [bind, Except.bind] at hfault
      cases hread : fs.readText path with
      | error reason =>
        rw [hread] at hfault
        cases hfault
        exact Or.inr ⟨path, reason, rfl⟩
      | ok text =>
        rw [hread] at hfault
        exact absurd hfault (h.observeText_ne_error text fault)

/-- What is compared on the case is its own text or file. -/
theorem ledgerInput (h : c.Complete) :
    (∃ text, c.input.inline = some text ∧
      (Differential.LedgerInput.ofCase c).source = .inline text) ∨
    ∃ file, c.input.file = some file ∧
      (Differential.LedgerInput.ofCase c).source = .file (Path.join c.suiteDir file) := by
  rcases h.source with ⟨text, hinline⟩ | ⟨file, hinline, hfile⟩
  · refine Or.inl ⟨text, hinline, ?_⟩
    simp [Differential.LedgerInput.ofCase, hinline]
  · refine Or.inr ⟨file, hfile, ?_⟩
    simp [Differential.LedgerInput.ofCase, InputSource.filePath?, hinline, hfile]

end Case.Complete

/-- A catalogue loads exactly when everything that its manifest declares is sound. It
then holds the declared cases in their order and names the suites that are missing;
no case of it can lack its input or its query when it is run. -/
theorem Catalogue.load_declared (fs : FileSystem) (path : String) :
    ((∃ catalogue, load fs path = .ok catalogue) ↔ ∃ manifest, Loadable fs path manifest) ∧
    ∀ catalogue, load fs path = .ok catalogue →
      manifest? fs path = some catalogue.manifest ∧
      catalogue.cases =
        catalogue.manifest.directories.flatMap (declared fs (baseOf path)) ∧
      catalogue.missing = missingSuites fs (baseOf path) catalogue.manifest.directories ∧
      (catalogue.cases.map Case.id).Nodup ∧
      ∀ c ∈ catalogue.cases,
        c.kind = Kind.infer c.input c.expected ∧
        (c.kind = .query ↔ c.input.query.isSome = true) ∧
        (∀ files, InputSource.ofCase files c ≠ .error .noInput ∧
          Reference.observe files c ≠ .error .noInput ∧
          Reference.observe files c ≠ .error .noQuery) ∧
        ((∃ text, c.input.inline = some text ∧
            (Differential.LedgerInput.ofCase c).source = .inline text) ∨
          ∃ file, c.input.file = some file ∧
            (Differential.LedgerInput.ofCase c).source = .file (Path.join c.suiteDir file)) := by
  constructor
  · constructor
    · rintro ⟨catalogue, hload⟩
      obtain ⟨manifest, hloadable, -⟩ := (load_eq_ok_iff fs path catalogue).mp hload
      exact ⟨manifest, hloadable⟩
    · rintro ⟨manifest, hloadable⟩
      exact ⟨_, (load_eq_ok_iff fs path _).mpr ⟨manifest, hloadable, rfl⟩⟩
  · intro catalogue hload
    obtain ⟨manifest, hloadable, rfl⟩ := (load_eq_ok_iff fs path catalogue).mp hload
    refine ⟨hloadable.manifest, rfl, rfl, hloadable.ids, ?_⟩
    intro c hc
    obtain ⟨directory, hdirectory, hdeclared⟩ := List.mem_flatMap.mp hc
    have hcomplete := complete_of_mem_declared (hloadable.suites directory hdirectory) hdeclared
    refine ⟨hcomplete.kind, hcomplete.query, ?_, hcomplete.ledgerInput⟩
    intro files
    refine ⟨?_, ?_, ?_⟩
    · intro hfault
      obtain ⟨_, h⟩ := hcomplete.ofCase_eq_error hfault
      cases h
    · intro hfault
      rcases hcomplete.observe_eq_error hfault with ⟨_, h⟩ | ⟨_, _, h⟩ <;> cases h
    · intro hfault
      rcases hcomplete.observe_eq_error hfault with ⟨_, h⟩ | ⟨_, _, h⟩ <;> cases h

/-- Two suites and a directory without one. -/
def pairedSuites : FileSystem where
  root := .directory [("work", .directory [
    ("manifest.json", .file "\x7b\"test_directories\": [\"b\", \"gone\", \"a\"]\x7d".toUTF8),
    ("a", .directory [("tests.json", .file ("\x7b\"tests\": [\x7b\"id\": \"a-1\", " ++
      "\"description\": \"\", \"input\": \x7b\"file\": \"x\"\x7d\x7d]\x7d").toUTF8)]),
    ("b", .directory [("tests.json", .file ("\x7b\"tests\": [\x7b\"id\": \"b-1\", " ++
      "\"description\": \"\", \"input\": \x7b\"inline\": \"\", " ++
      "\"query\": \"q\"\x7d\x7d]\x7d").toUTF8)])])]

theorem Catalogue.load_declared_pairedSuites :
    ∃ catalogue, load pairedSuites "manifest.json" = .ok catalogue ∧
      catalogue.cases.map (fun c => (c.id, c.kind)) = [("b-1", .query), ("a-1", .parsing)] ∧
      catalogue.missing = ["gone/tests.json"] ∧
      ∀ c ∈ catalogue.cases, Reference.observe pairedSuites c ≠ .error .noQuery := by
  have hfound : (load pairedSuites "manifest.json").toOption.map (fun catalogue =>
      (catalogue.cases.map (fun c => (c.id, c.kind)), catalogue.missing)) =
        some ([("b-1", .query), ("a-1", .parsing)], ["gone/tests.json"]) := by decide +kernel
  obtain ⟨catalogue, hsome, hread⟩ := Option.map_eq_some_iff.mp hfound
  have hload := eq_ok_of_toOption_eq_some hsome
  obtain ⟨hnames, hmissing⟩ := Prod.mk.inj hread
  obtain ⟨-, -, -, -, hcases⟩ := (load_declared pairedSuites "manifest.json").2 catalogue hload
  refine ⟨catalogue, hload, hnames, hmissing, ?_⟩
  intro c hc
  exact ((hcases c hc).2.2.1 pairedSuites).2.2

end LedgerConformance
