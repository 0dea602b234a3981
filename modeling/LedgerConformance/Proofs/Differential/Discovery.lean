import LedgerConformance.Differential.Discovery
import LedgerConformance.Proofs.FileSystem.EntryOrder
import LedgerConformance.Proofs.FileSystem.Places
import Mathlib.Data.List.Perm.Basic

/-!
The ledgers of a directory. A run over a directory finds every ledger at any depth, once and
in the order of paths, and nothing else. What it finds does not depend on the order in which
directories list their entries. A run over what encloses the directory of a configuration finds
what the path of the configuration tells of it: all its ledgers where both directories are
spelled out, and none where the path is too short to tell of it.
-/

namespace LedgerConformance.Differential

open LedgerConformance.Path (IsName join below)

/-- A ledger is called something, a dot, and one of three extensions. -/
def IsLedgerName (name : String) : Prop :=
  ∃ stem ext, stem ≠ "" ∧ ext ∈ ["beancount", "ledger", "journal"] ∧ name = stem ++ "." ++ ext

/-- Names that lead from a node to a ledger, which is anything but a directory. -/
def LeadsToLedger (node : Node) (names : List String) : Prop :=
  (∃ leaf, node.find? names = some leaf ∧ leaf.isDirectory = false) ∧
    ∃ name ∈ names.getLast?, IsLedgerName name

theorem isLedger_join_iff {name : String} (h : IsName name) (base : String) :
    isLedger (join base name) = true ↔ IsLedgerName name := by
  have hdots : ∀ ext ∈ ledgerExtensions, '.' ∉ ext.toList := by decide
  rw [isLedger, Option.any_eq_true]
  constructor
  · rintro ⟨ext, hext, hledger⟩
    obtain ⟨stem, hstem, rfl, -⟩ := (Path.extension?_join_iff h).mp hext
    exact ⟨stem, ext, hstem, List.contains_iff_mem.mp hledger, rfl⟩
  · rintro ⟨stem, ext, hstem, hext, rfl⟩
    exact ⟨ext, (Path.extension?_join_iff h).mpr ⟨stem, hstem, rfl, hdots ext hext⟩,
      List.contains_iff_mem.mpr hext⟩

/-! ### What a node holds -/

theorem ledgersAmong_eq (base : String) (entries : List (String × Node)) :
    ledgersAmong base entries =
      entries.flatMap fun entry => ledgersIn (join base entry.1) entry.2 := by
  induction entries with
  | nil => rfl
  | cons entry rest ih => rw [ledgersAmong, ih, List.flatMap_cons]

theorem ledgersIn_leaf {node : Node} (h : node.isDirectory = false) (base : String) :
    ledgersIn base node = if isLedger base then [base] else [] := by
  cases node with
  | directory => contradiction
  | _ => rfl

theorem mem_ledgersIn_iff {node : Node} (h : node.WellNamed) {base path : String} :
    path ∈ ledgersIn base node ↔
      ∃ names leaf, node.find? names = some leaf ∧ leaf.isDirectory = false ∧
        path = below base names ∧ isLedger path = true := by
  induction h generalizing base with
  | @directory entries hnodup _ _ ih =>
    rw [ledgersIn, ledgersAmong_eq, List.mem_flatMap]
    constructor
    · rintro ⟨entry, hentry, hmem⟩
      obtain ⟨names, leaf, hfound, hleaf, hpath, hledger⟩ := (ih entry hentry).mp hmem
      have hcons := (Node.find?_directory_cons hnodup).mpr ⟨entry.2, hentry, hfound⟩
      exact ⟨entry.1 :: names, leaf, hcons, hleaf, hpath, hledger⟩
    · rintro ⟨names, leaf, hfound, hleaf, hpath, hledger⟩
      cases names with
      | nil =>
        cases hfound
        contradiction
      | cons name rest =>
        obtain ⟨node, hentry, hrest⟩ := (Node.find?_directory_cons hnodup).mp hfound
        exact ⟨_, hentry, (ih _ hentry).mpr ⟨rest, leaf, hrest, hleaf, hpath, hledger⟩⟩
  | @leaf node hleaf =>
    rw [ledgersIn_leaf hleaf]
    constructor
    · intro hmem
      split at hmem
      · rename_i hledger
        rw [List.mem_singleton] at hmem
        subst hmem
        exact ⟨[], node, rfl, hleaf, rfl, hledger⟩
      · simp at hmem
    · rintro ⟨names, leaf, hfound, -, rfl, hledger⟩
      cases names with
      | nil =>
        rw [below, List.foldl_nil] at hledger ⊢
        rw [if_pos hledger]
        exact List.mem_singleton_self base
      | cons name rest =>
        rw [Node.find?_leaf_cons hleaf] at hfound
        cases hfound

/-- Below a directory, these are the paths of what the names of ledgers lead to. -/
theorem mem_ledgersAmong_iff {entries : List (String × Node)}
    (h : (Node.directory entries).WellNamed) {base path : String} :
    path ∈ ledgersAmong base entries ↔
      ∃ names, LeadsToLedger (.directory entries) names ∧ path = below base names := by
  rw [← ledgersIn, mem_ledgersIn_iff h]
  constructor
  · rintro ⟨names, leaf, hfound, hleaf, rfl, hledger⟩
    obtain rfl | ⟨front, name, rfl⟩ := List.eq_nil_or_concat names
    · cases hfound
      contradiction
    · rw [List.concat_eq_append] at hfound hledger ⊢
      have hname := (h.find? hfound).2 name (by simp)
      rw [Path.below_concat, isLedger_join_iff hname] at hledger
      exact ⟨front ++ [name], ⟨⟨leaf, hfound, hleaf⟩, name, by simp, hledger⟩, rfl⟩
  · rintro ⟨names, ⟨⟨leaf, hfound, hleaf⟩, name, hlast, hledger⟩, rfl⟩
    obtain ⟨front, rfl⟩ := List.getLast?_eq_some_iff.mp hlast
    have hname := (h.find? hfound).2 name (by simp)
    refine ⟨front ++ [name], leaf, hfound, hleaf, rfl, ?_⟩
    rw [Path.below_concat, isLedger_join_iff hname]
    exact hledger

theorem isName_of_leadsToLedger {node : Node} (h : node.WellNamed) {names : List String}
    (hnames : LeadsToLedger node names) : ∀ name ∈ names, IsName name := by
  obtain ⟨⟨leaf, hfound, -⟩, -⟩ := hnames
  exact (h.find? hfound).2

theorem nodup_ledgersIn {node : Node} (h : node.WellNamed) (base : String) :
    (ledgersIn base node).Nodup := by
  induction h generalizing base with
  | @directory entries hnodup hnames hnamed ih =>
    rw [ledgersIn, ledgersAmong_eq, List.nodup_flatMap]
    refine ⟨fun entry hentry => ih entry hentry _, ?_⟩
    refine (List.pairwise_map.mp hnodup).imp_of_mem ?_
    intro first second hfirst hsecond hne
    refine List.disjoint_left.mpr ?_
    intro path hmem hother
    obtain ⟨names, leaf, hfound, -, rfl, -⟩ := (mem_ledgersIn_iff (hnamed _ hfirst)).mp hmem
    obtain ⟨others, other, hfoundOther, -, hpath, -⟩ :=
      (mem_ledgersIn_iff (hnamed _ hsecond)).mp hother
    have hsame : first.1 :: names = second.1 :: others := by
      refine Path.below_inj ?_ ?_ (congrArg Path.components hpath)
      · exact List.forall_mem_cons.mpr ⟨hnames _ hfirst, ((hnamed _ hfirst).find? hfound).2⟩
      · exact List.forall_mem_cons.mpr
          ⟨hnames _ hsecond, ((hnamed _ hsecond).find? hfoundOther).2⟩
    exact hne (List.cons.inj hsame).1
  | leaf hleaf =>
    rw [ledgersIn_leaf hleaf]
    split
    · exact List.nodup_singleton base
    · exact List.nodup_nil

/-- In another order of entries, the same ledgers are found. -/
theorem ledgersIn_perm {node other : Node} (h : node.Reordered other) (base : String) :
    (ledgersIn base other).Perm (ledgersIn base node) := by
  induction h generalizing base with
  | @directory entries others reordered _ order ih =>
    rw [ledgersIn, ledgersIn, ledgersAmong_eq, ledgersAmong_eq]
    refine (order.flatMap_right _).trans ?_
    rw [List.flatMap_map]
    exact .flatMap_left entries fun entry hentry => ih entry hentry _
  | leaf => exact .refl _

/-! ### The whole search -/

theorem discover_eq {fs : FileSystem} {source configDir : String}
    {entries : List (String × Node)}
    (h : fs.node (sourceRoot fs source configDir) = .ok (.directory entries)) :
    discover fs source configDir =
      (ledgersAmong (sourceRoot fs source configDir) entries).mergeSort Path.le := by
  simp only [discover, h]

theorem pairwise_mergeSort_le (paths : List String) :
    (paths.mergeSort Path.le).Pairwise fun a b => Path.le a b = true := by
  apply List.pairwise_mergeSort
  · intro a b c
    exact Path.le_trans
  · exact Path.le_total

/-- Ledgers of a directory are in one order only. -/
theorem mergeSort_ledgersAmong_eq {entries : List (String × Node)} {base : String}
    (h : (Node.directory entries).WellNamed) {paths : List String}
    (hperm : paths.Perm (ledgersAmong base entries)) :
    paths.mergeSort Path.le = (ledgersAmong base entries).mergeSort Path.le := by
  have hsame := (List.mergeSort_perm paths Path.le).trans
    (hperm.trans (List.mergeSort_perm _ Path.le).symm)
  refine hsame.eq_of_pairwise ?_ (pairwise_mergeSort_le _) (pairwise_mergeSort_le _)
  intro a b ha hb hab hba
  obtain ⟨names, hnames, rfl⟩ :=
    (mem_ledgersAmong_iff h).mp (hperm.mem_iff.mp (List.mem_mergeSort.mp ha))
  obtain ⟨others, hothers, rfl⟩ := (mem_ledgersAmong_iff h).mp (List.mem_mergeSort.mp hb)
  rw [Path.below_inj (isName_of_leadsToLedger h hnames) (isName_of_leadsToLedger h hothers)
    (Path.components_eq_of_le hab hba)]

theorem sourceRoot_reordered {fs : FileSystem} {root : Node} (hnamed : fs.root.WellNamed)
    (h : fs.root.Reordered root) (source configDir : String) :
    sourceRoot { fs with root } source configDir = sourceRoot fs source configDir := by
  rw [sourceRoot, sourceRoot, FileSystem.contains_reordered hnamed h]

/-- From a source that is a directory, the ledgers at any depth are found and nothing else,
each once and in the order of their paths, of which no two ledgers have the same. The order in
which directories list their entries does not matter. -/
theorem discover_lists_ledgers {fs : FileSystem} (hnamed : fs.root.WellNamed)
    {source configDir : String} {entries : List (String × Node)}
    (hsource : fs.node (sourceRoot fs source configDir) = .ok (.directory entries)) :
    (∀ path, path ∈ discover fs source configDir ↔ ∃ names,
      LeadsToLedger (.directory entries) names ∧
        path = below (sourceRoot fs source configDir) names) ∧
    (∀ names others, LeadsToLedger (.directory entries) names →
      LeadsToLedger (.directory entries) others →
      below (sourceRoot fs source configDir) names = below (sourceRoot fs source configDir) others →
      names = others) ∧
    (discover fs source configDir).Nodup ∧
    (discover fs source configDir).Pairwise (fun a b => Path.le a b = true) ∧
    ∀ root, fs.root.Reordered root →
      discover { fs with root } source configDir = discover fs source configDir := by
  have hentries := FileSystem.wellNamed_of_node hnamed hsource
  rw [discover_eq hsource]
  refine ⟨?_, ?_, ?_, pairwise_mergeSort_le _, ?_⟩
  · intro path
    rw [List.mem_mergeSort, mem_ledgersAmong_iff hentries]
  · intro names others hnames hothers hsame
    exact Path.below_inj (isName_of_leadsToLedger hentries hnames)
      (isName_of_leadsToLedger hentries hothers) (congrArg Path.components hsame)
  · rw [(List.mergeSort_perm _ _).nodup_iff]
    exact nodup_ledgersIn hentries _
  · intro root hroot
    obtain ⟨other, hother, hreordered⟩ := FileSystem.exists_node_reordered hnamed hroot hsource
    have hperm := ledgersIn_perm hreordered (sourceRoot fs source configDir)
    cases hreordered with
    | directory =>
      rw [← sourceRoot_reordered hnamed hroot] at hother
      rw [discover_eq hother, sourceRoot_reordered hnamed hroot]
      exact mergeSort_ledgersAmong_eq hentries hperm
    | leaf hleaf => contradiction

/-- Files in a directory that is itself called as a ledger; one of them is called nothing but an
extension. -/
def oldFiles : List (String × Node) := [(".ledger", .file .empty), ("old.beancount", .file .empty)]

def shelf : List (String × Node) :=
  [("z.ledger", .directory oldFiles), ("notes.txt", .file .empty), ("a.journal", .file .empty)]

def turnedShelf : List (String × Node) :=
  [("notes.txt", .file .empty), ("a.journal", .file .empty),
    ("z.ledger", .directory oldFiles.reverse)]

def books (entries : List (String × Node)) : FileSystem where
  root := .directory [("books", .directory entries)]
  working := []

theorem wellNamed_books_shelf : (books shelf).root.WellNamed := by
  have hfile : (Node.file .empty).WellNamed := .leaf rfl
  have hold : (Node.directory oldFiles).WellNamed :=
    .directory (by decide) (by decide) (by simp [oldFiles, hfile])
  have hshelf : (Node.directory shelf).WellNamed :=
    .directory (by decide) (by decide) (by simp [shelf, hfile, hold])
  exact .directory (by decide) (by decide) (List.forall_mem_singleton.mpr hshelf)

theorem reordered_books_turnedShelf :
    (books shelf).root.Reordered (books turnedShelf).root := by
  have hfile : (Node.file .empty).Reordered (.file .empty) := .leaf rfl
  have hold : (Node.directory oldFiles).Reordered (.directory oldFiles.reverse) :=
    .directory (fun _ => .file .empty) (by simp [oldFiles, hfile]) (List.reverse_perm _)
  have hshelf : (Node.directory shelf).Reordered (.directory turnedShelf) := by
    refine .directory
      (fun entry => if entry.1 = "z.ledger" then .directory oldFiles.reverse else entry.2)
      (by simp [shelf, hfile, hold]) ?_
    exact List.perm_append_singleton ("z.ledger", Node.directory oldFiles.reverse)
      [("notes.txt", .file .empty), ("a.journal", .file .empty)]
  exact .directory (fun _ => .directory turnedShelf) (List.forall_mem_singleton.mpr hshelf)
    (.refl _)

theorem discover_lists_ledgers_directoryWithExtension :
    (books shelf).root.WellNamed ∧
    (books shelf).node (sourceRoot (books shelf) "books" "") = .ok (.directory shelf) ∧
    (books shelf).root.Reordered (books turnedShelf).root ∧
    "books/z.ledger/old.beancount" ∈ discover (books shelf) "books" "" ∧
    discover (books turnedShelf) "books" "" = discover (books shelf) "books" "" := by
  have hroot : sourceRoot (books shelf) "books" "" = "books" := by decide +kernel
  have hsource : (books shelf).node (sourceRoot (books shelf) "books" "") =
      .ok (.directory shelf) := by
    rw [hroot]
    rfl
  obtain ⟨hmem, -, -, -, horder⟩ := discover_lists_ledgers wellNamed_books_shelf hsource
  refine ⟨wellNamed_books_shelf, hsource, reordered_books_turnedShelf, ?_,
    horder _ reordered_books_turnedShelf⟩
  refine (hmem _).mpr ⟨["z.ledger", "old.beancount"], ⟨⟨.file .empty, rfl, rfl⟩, "old.beancount",
    rfl, "old", "beancount", by decide, by decide, by decide⟩, ?_⟩
  rw [hroot]
  decide

/-! ### Around a configuration -/

/-- A ledger at any depth below a place. -/
def LedgerBelow (fs : FileSystem) (above place : List String) : Prop :=
  ∃ node names, fs.root.find? above = some node ∧ LeadsToLedger node names ∧
    place = above ++ names

/-- What is found around a configuration, as names from the root. -/
def placesAround (fs : FileSystem) (config : String) : List (List String) :=
  (discover fs conformanceSource ((Path.parent? config).getD ".")).map fs.absolute

/-- Paths that spell out the directory of what they lead to and what encloses that. -/
inductive SpellsOut : List Path.Component → Prop
  | names {before : List Path.Component} (directory file : String) : before ≠ [] →
    SpellsOut (before ++ [.name directory, .name file])
  /-- The root encloses itself. -/
  | root (file : String) : SpellsOut [.root, .name file]

section Around

variable {fs : FileSystem} {config : String} {names : List String}

theorem mem_map_discover_iff (hnamed : fs.root.WellNamed) {source configDir : String}
    {entries : List (String × Node)}
    (hsource : fs.node (sourceRoot fs source configDir) = .ok (.directory entries))
    {place : List String} :
    place ∈ (discover fs source configDir).map fs.absolute ↔
      LedgerBelow fs (fs.absolute (sourceRoot fs source configDir)) place := by
  have hentries := FileSystem.wellNamed_of_node hnamed hsource
  have hbelow : ∀ names, LeadsToLedger (.directory entries) names →
      fs.absolute (below (sourceRoot fs source configDir) names) =
        fs.absolute (sourceRoot fs source configDir) ++ names := by
    intro names hnames
    rw [FileSystem.absolute, Path.components_below (isName_of_leadsToLedger hentries hnames),
      FileSystem.placeOf_append_names, ← FileSystem.absolute]
  obtain ⟨here, hhere, hfound⟩ := FileSystem.exists_names_of_node hsource
  obtain rfl := FileSystem.eq_absolute_of_locate hhere
  rw [discover_eq hsource, List.mem_map]
  constructor
  · rintro ⟨path, hpath, rfl⟩
    obtain ⟨names, hnames, rfl⟩ :=
      (mem_ledgersAmong_iff hentries).mp (List.mem_mergeSort.mp hpath)
    exact ⟨_, names, hfound, hnames, hbelow names hnames⟩
  · rintro ⟨node, names, hnode, hnames, rfl⟩
    cases hfound.symm.trans hnode
    refine ⟨_, List.mem_mergeSort.mpr ?_, hbelow names hnames⟩
    exact (mem_ledgersAmong_iff hentries).mpr ⟨names, hnames, rfl⟩

/-- The search starts from what encloses the directory of the configuration, as far as the
path tells it. -/
theorem components_conformanceRoot (h : fs.LeadsToFile config names) :
    ∃ root, sourceRoot fs conformanceSource ((Path.parent? config).getD ".") = root ∧
      Path.components root = Path.enclosing (Path.components config).dropLast ∧
      (root = "" ∨ ∃ entries, fs.node root = .ok (.directory entries)) := by
  obtain ⟨cs, name, hconfig⟩ := h.exists_name
  obtain ⟨dir, hdir, rfl⟩ := Path.exists_parent_of_name hconfig
  refine ⟨(Path.parent? dir).getD dir, ?_, ?_, ?_⟩
  · rw [hdir]
    rfl
  · rw [hconfig, List.dropLast_concat, Path.components_parent]
  · cases hparent : Path.parent? dir with
    | none => exact FileSystem.node_of_parent? h.located hdir
    | some parent =>
      rcases FileSystem.node_of_parent? h.located hdir with rfl | ⟨entries, hentries⟩
      · cases hparent
      · obtain ⟨here, hhere, -⟩ := FileSystem.exists_names_of_node hentries
        exact FileSystem.node_of_parent? hhere hparent

theorem mem_placesAround_iff (hnamed : fs.root.WellNamed) (h : fs.LeadsToFile config names)
    {place : List String} : place ∈ placesAround fs config ↔
      Path.enclosing (Path.components config).dropLast ≠ [] ∧
        LedgerBelow fs (fs.placeOf (Path.enclosing (Path.components config).dropLast)) place := by
  obtain ⟨root, hroot, hcomponents, hfound⟩ := components_conformanceRoot h
  rw [placesAround, ← hcomponents, Ne, Path.components_eq_nil_iff]
  rcases hfound with hempty | ⟨entries, hentries⟩
  · have hnothing : discover fs conformanceSource ((Path.parent? config).getD ".") = [] := by
      simp only [discover, hroot, hempty]
      rfl
    simp [hnothing, hempty]
  · have hne : root ≠ "" := by
      rintro rfl
      cases hentries
    rw [← hroot] at hentries
    rw [mem_map_discover_iff hnamed hentries, hroot, FileSystem.absolute]
    exact (and_iff_right hne).symm

/-- Where both directories are spelled out, the second one is what encloses the first. -/
theorem placeOf_enclosing {cs : List Path.Component} (h : SpellsOut cs) :
    Path.enclosing cs.dropLast ≠ [] ∧
      fs.placeOf (Path.enclosing cs.dropLast) = (fs.placeOf cs).dropLast.dropLast := by
  cases h with
  | @names before directory file hbefore =>
    have hparent : (before ++ [Path.Component.name directory, .name file]).dropLast =
        before ++ [.name directory] := by
      rw [List.append_cons, List.dropLast_concat]
    have hname : Path.Component.name directory ≠ .root := nofun
    have hplace : fs.placeOf (before ++ [.name directory, .name file]) =
        fs.placeOf before ++ [directory, file] :=
      FileSystem.placeOf_append_names before [directory, file]
    rw [hparent, Path.enclosing_concat before hname, hplace]
    exact ⟨hbefore, by simp⟩
  | root => exact ⟨nofun, rfl⟩

end Around

/-- The search around a configuration finds every ledger below what its path tells of the
directory that encloses the one of the configuration, and nothing where the path tells nothing
of it. A path that spells out both directories finds the ledgers below the enclosing one, so all
such paths to one configuration find the same. -/
theorem placesAround_lists_ledgers {fs : FileSystem} (hnamed : fs.root.WellNamed)
    {config : String} {names : List String} (hconfig : fs.LeadsToFile config names) :
    (∀ place, place ∈ placesAround fs config ↔
      Path.enclosing (Path.components config).dropLast ≠ [] ∧
        LedgerBelow fs (fs.placeOf (Path.enclosing (Path.components config).dropLast)) place) ∧
    (SpellsOut (Path.components config) → ∀ place,
      place ∈ placesAround fs config ↔ LedgerBelow fs names.dropLast.dropLast place) ∧
    ∀ other, fs.LeadsToFile other names → SpellsOut (Path.components config) →
      SpellsOut (Path.components other) → ∀ place,
        place ∈ placesAround fs other ↔ place ∈ placesAround fs config := by
  have hspelled : ∀ {config}, fs.LeadsToFile config names → SpellsOut (Path.components config) →
      ∀ place, place ∈ placesAround fs config ↔
        LedgerBelow fs names.dropLast.dropLast place := by
    intro config hconfig hspells place
    obtain ⟨hne, hplace⟩ := placeOf_enclosing hspells
    rw [mem_placesAround_iff hnamed hconfig, hplace, and_iff_right hne, ← FileSystem.absolute,
      ← FileSystem.eq_absolute_of_locate hconfig.located]
  refine ⟨fun place => mem_placesAround_iff hnamed hconfig, hspelled hconfig, ?_⟩
  intro other hother hfirst hsecond place
  rw [hspelled hother hsecond, hspelled hconfig hfirst]

/-- A ledger beside the directory of a configuration, seen from where the ledger is. -/
def project : FileSystem where
  root := .directory [("project", .directory [
    ("differential", .directory [("config.json", .file .empty)]), ("a.ledger", .file .empty)])]
  working := ["project"]

theorem wellNamed_project : project.root.WellNamed := by
  have hfile : (Node.file .empty).WellNamed := .leaf rfl
  have hdifferential : (Node.directory [("config.json", .file .empty)]).WellNamed :=
    .directory (by decide) (by decide) (List.forall_mem_singleton.mpr hfile)
  have hproject : (Node.directory [
      ("differential", .directory [("config.json", .file .empty)]),
      ("a.ledger", .file .empty)]).WellNamed :=
    .directory (by decide) (by decide) (by simp [hfile, hdifferential])
  exact .directory (by decide) (by decide) (List.forall_mem_singleton.mpr hproject)

theorem ledgerBelow_project : LedgerBelow project ["project"] ["project", "a.ledger"] :=
  ⟨_, ["a.ledger"], rfl, ⟨⟨.file .empty, rfl, rfl⟩, "a.ledger", rfl, "a", "ledger", by decide,
    by decide, by decide⟩, rfl⟩

theorem leadsToFile_project (config : String)
    (h : project.locate config = .ok ["project", "differential", "config.json"]) :
    project.LeadsToFile config ["project", "differential", "config.json"] :=
  ⟨h, .file .empty, rfl, rfl⟩

theorem placesAround_lists_ledgers_currentDirectory :
    project.root.WellNamed ∧
    project.LeadsToFile "./differential/config.json"
      ["project", "differential", "config.json"] ∧
    project.LeadsToFile "/project/differential/config.json"
      ["project", "differential", "config.json"] ∧
    SpellsOut (Path.components "./differential/config.json") ∧
    SpellsOut (Path.components "/project/differential/config.json") ∧
    ["project", "a.ledger"] ∈ placesAround project "./differential/config.json" ∧
    ["project", "a.ledger"] ∈ placesAround project "/project/differential/config.json" := by
  have hrelative := leadsToFile_project "./differential/config.json" (by decide +kernel)
  have habsolute := leadsToFile_project "/project/differential/config.json" (by decide +kernel)
  have hhere : [Path.Component.here] ≠ [] := nofun
  have hroot : [Path.Component.root, .name "project"] ≠ [] := nofun
  have hfirst : SpellsOut (Path.components "./differential/config.json") :=
    .names "differential" "config.json" hhere
  have hsecond : SpellsOut (Path.components "/project/differential/config.json") :=
    .names "differential" "config.json" hroot
  obtain ⟨-, hfound, hsame⟩ := placesAround_lists_ledgers wellNamed_project hrelative
  have hmem := (hfound hfirst _).mpr ledgerBelow_project
  exact ⟨wellNamed_project, hrelative, habsolute, hfirst, hsecond, hmem,
    (hsame _ habsolute hfirst hsecond _).mpr hmem⟩

/-- A path of two names tells of nothing around the directory, where the whole path does. -/
theorem placesAround_twoNames :
    project.LeadsToFile "differential/config.json" ["project", "differential", "config.json"] ∧
    project.LeadsToFile "/project/differential/config.json"
      ["project", "differential", "config.json"] ∧
    LedgerBelow project ["project"] ["project", "a.ledger"] ∧
    placesAround project "differential/config.json" = [] ∧
    placesAround project "/project/differential/config.json" = [["project", "a.ledger"]] :=
  ⟨leadsToFile_project _ (by decide +kernel), leadsToFile_project _ (by decide +kernel),
    ledgerBelow_project, by decide +kernel, by decide +kernel⟩

end LedgerConformance.Differential
