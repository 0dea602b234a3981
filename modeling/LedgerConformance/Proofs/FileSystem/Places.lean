import LedgerConformance.Proofs.FileSystem.Files
import LedgerConformance.Proofs.FileSystem.Paths

/-!
The place that a path leads to. It depends on the components of the path alone: each of them
is a step from the place before, the first one from the root or from the working directory.
A path that leads somewhere has gone through what its parent leads to, which is a directory.
-/

namespace LedgerConformance

namespace Node

/-- What encloses a directory is a directory. -/
theorem find?_dropLast {root : Node} {names : List String} {entries : List (String × Node)}
    (h : root.find? names = some (directory entries)) :
    ∃ others, root.find? names.dropLast = some (directory others) := by
  obtain rfl | ⟨front, name, rfl⟩ := List.eq_nil_or_concat names
  · exact ⟨entries, h⟩
  · rw [List.concat_eq_append, find?_append, Option.bind_eq_some_iff] at h
    obtain ⟨node, hfront, hnode⟩ := h
    rw [List.concat_eq_append, List.dropLast_concat, hfront]
    cases node with
    | directory others => exact ⟨others, rfl⟩
    | _ => cases hnode

end Node

namespace FileSystem

open LedgerConformance.Path (components componentOf namesNothing GoesOn)

variable {fs : FileSystem} {root : Node} {path : String} {here there names : List String}

/-- The place that a component leads to. -/
def climb (here : List String) : Path.Component → List String
  | .root => []
  | .here => here
  | .up => here.dropLast
  | .name name => here ++ [name]

/-- The place that components lead to from the working directory. -/
def placeOf (fs : FileSystem) (cs : List Path.Component) : List String :=
  cs.foldl climb fs.working

/-- The names that lead from the root to what a path stands for. -/
def absolute (fs : FileSystem) (path : String) : List String := fs.placeOf (components path)

theorem placeOf_append_names (cs : List Path.Component) (names : List String) :
    fs.placeOf (cs ++ names.map .name) = fs.placeOf cs ++ names := by
  induction names using List.reverseRecOn with
  | nil => simp
  | append_singleton names name ih =>
    rw [List.map_append, List.map_singleton, ← List.append_assoc, placeOf, List.foldl_concat,
      ← placeOf, ih, climb, List.append_assoc]

/-! ### The walk along a path -/

/-- A step is made in a directory, and leads where its segment does as a component. -/
theorem step_eq_ok {segment : List Char} (h : step root here (String.ofList segment) = .ok there) :
    (∃ entries, root.find? here = some (.directory entries)) ∧
      there = if namesNothing segment then here else climb here (componentOf segment) := by
  obtain ⟨entries, hhere, hstep⟩ := step_eq_ok_iff.mp h
  refine ⟨⟨entries, hhere⟩, ?_⟩
  obtain ⟨text, rfl⟩ : ∃ text : String, segment = text.toList :=
    ⟨String.ofList segment, String.toList_ofList.symm⟩
  rw [String.ofList_toList] at hstep
  cases hstep with
  | stay hstay => rcases hstay with rfl | rfl <;> rfl
  | up => rfl
  | entry hproper _ =>
    obtain ⟨hempty, hdot, hup, -⟩ := hproper
    have hother : ∀ {other : String}, text ≠ other → text.toList ≠ other.toList :=
      fun hne heq => hne (String.toList_inj.mp heq)
    have hnamed : namesNothing text.toList = false := by
      simp only [namesNothing, Bool.or_eq_false_iff, beq_eq_false_iff_ne]
      exact ⟨hother hempty, hother hdot⟩
    have hcomponent : componentOf text.toList = .name text := by
      rw [componentOf, if_neg (by simpa using hother hup), String.ofList_toList]
    rw [hnamed, hcomponent]
    rfl

theorem foldlM_step_eq_ok {segments : List (List Char)}
    (h : (segments.map String.ofList).foldlM (step root) here = .ok there) :
    there = ((segments.filter (! namesNothing ·)).map componentOf).foldl climb here := by
  induction segments generalizing here with
  | nil =>
    cases h
    rfl
  | cons segment rest ih =>
    rw [List.map_cons, List.foldlM_cons] at h
    obtain ⟨next, hstep, hrest⟩ := exists_of_bind_eq_ok h
    have hnext := (step_eq_ok hstep).2
    rw [ih hrest, hnext]
    cases hsegment : namesNothing segment <;> simp [hsegment]

/-- What is walked from is a directory, if any step is made. -/
theorem directory_of_foldlM {segments : List (List Char)} (hne : segments ≠ [])
    (h : (segments.map String.ofList).foldlM (step root) here = .ok there) :
    ∃ entries, root.find? here = some (.directory entries) := by
  obtain ⟨segment, rest, rfl⟩ := List.exists_cons_of_ne_nil hne
  rw [List.map_cons, List.foldlM_cons] at h
  obtain ⟨next, hstep, -⟩ := exists_of_bind_eq_ok h
  exact (step_eq_ok hstep).1

theorem start_eq (fs : FileSystem) (path : String) :
    fs.start path = fs.placeOf (Path.leading (Path.divide path.toList).1) := by
  rw [start, Path.isAbsolute]
  generalize path.toList = s
  fun_cases Path.divide s with
  | case1 => rfl
  | case2 => rfl
  | case3 => rfl
  | case4 _ hroot =>
    cases s with
    | nil => rfl
    | cons c rest =>
      have hc : c ≠ '/' := fun heq => hroot rest (by rw [heq])
      simp [hc, Path.leading, placeOf]

/-- A path that leads somewhere leads where its components do. -/
theorem eq_absolute_of_locate (h : fs.locate path = .ok names) : names = fs.absolute path := by
  obtain ⟨⟨⟩, -, hwalk⟩ := exists_of_bind_eq_ok h
  rw [foldlM_step_eq_ok hwalk, absolute, Path.components_eq, placeOf, List.foldl_append,
    ← placeOf, ← start_eq, Path.filter_segments]

/-! ### Parents -/

theorem checkPath_of_append {rest : String} (hne : path ≠ "")
    (h : checkPath (path ++ rest) = .ok ()) : checkPath path = .ok () := by
  have hempty : path.isEmpty = false := by simpa [String.isEmpty_iff] using hne
  unfold checkPath at h ⊢
  split at h
  · cases h
  · rename_i hzero
    split at h
    · cases h
    · split at h
      · cases h
      · rename_i hlong
        rw [String.utf8ByteSize_append] at hlong
        rw [if_neg (by simp_all), hempty, if_neg (by decide), if_neg (by omega)]

theorem node_of_walk {node : Node} (hvalid : checkPath path = .ok ())
    (hwalk : (segments path).foldlM (step fs.root) (fs.start path) = .ok here)
    (hfound : fs.root.find? here = some node) : fs.node path = .ok node := by
  rw [FileSystem.node, locate, hvalid]
  change ((segments path).foldlM (step fs.root) (fs.start path) >>= _) = _
  rw [hwalk]
  dsimp only [bind, Except.bind]
  rw [hfound]
  rfl

theorem node_root {entries : List (String × Node)}
    (h : fs.root.find? [] = some (.directory entries)) :
    fs.node "/" = .ok (.directory entries) := by
  have hstay : step fs.root [] "" = .ok [] := step_eq_ok_iff.mpr ⟨entries, h, .stay (.inl rfl)⟩
  refine node_of_walk rfl ?_ h
  change ["", ""].foldlM (step fs.root) [] = .ok []
  rw [List.foldlM_cons, hstay]
  change (step fs.root [] "" >>= pure) = _
  rw [hstay]
  rfl

/-- What a path that leads somewhere goes on from is a directory. -/
theorem node_of_goesOn {parent : String} {rest : List Char} (h : fs.locate path = .ok names)
    (hgoes : GoesOn path.toList parent.toList rest) (hne : parent ≠ "") :
    ∃ entries, fs.node parent = .ok (.directory entries) := by
  obtain ⟨⟨⟩, hvalid, hwalk⟩ := exists_of_bind_eq_ok h
  generalize hpath : path.toList = s, hparent : parent.toList = t at hgoes
  cases hgoes with
  | alone => exact absurd (String.toList_eq_nil_iff.mp hparent) hne
  | root =>
    -- The root has two segments where the path has one, so its walk is not part of the other.
    have hroot : parent = "/" := String.toList_inj.mp hparent
    rw [segments, hpath, start, Path.isAbsolute, hpath] at hwalk
    obtain ⟨entries, hentries⟩ : ∃ entries, fs.root.find? [] = some (.directory entries) :=
      directory_of_foldlM (Text.splitWhere_ne_nil _ _) hwalk
    exact ⟨entries, hroot ▸ node_root hentries⟩
  | below _ hsome =>
    have happend : path = parent ++ ("/" ++ String.ofList rest) := by
      rw [← String.toList_inj, hpath, ← hparent]
      simp
    have hsegments : segments path =
        segments parent ++ (Path.segments rest).map String.ofList := by
      rw [segments, hpath, ← hparent, Path.segments_append_slash, List.map_append, ← segments]
    have hstart : fs.start path = fs.start parent := by
      obtain ⟨c, t, rfl⟩ := List.exists_cons_of_ne_nil hsome
      rw [start, start, Path.isAbsolute, Path.isAbsolute, hpath, hparent]
      rfl
    rw [hsegments, hstart, List.foldlM_append] at hwalk
    obtain ⟨above, habove, hrest⟩ := exists_of_bind_eq_ok hwalk
    obtain ⟨entries, hentries⟩ := directory_of_foldlM (Text.splitWhere_ne_nil _ rest) hrest
    rw [happend] at hvalid
    exact ⟨entries, node_of_walk (checkPath_of_append hne hvalid) habove hentries⟩

/-- The parent of a path that leads somewhere is empty or a directory. -/
theorem node_of_parent? {parent : String} (h : fs.locate path = .ok names)
    (hparent : Path.parent? path = some parent) :
    parent = "" ∨ ∃ entries, fs.node parent = .ok (.directory entries) := by
  obtain hempty | ⟨rest, hrest⟩ := Path.goesOn_of_parent? hparent
  · exact .inl hempty
  · by_cases hne : parent = ""
    · exact .inl hne
    · exact .inr (node_of_goesOn h hrest hne)

/-! ### Files -/

/-- A path that leads to anything but a directory. -/
structure LeadsToFile (fs : FileSystem) (path : String) (names : List String) : Prop where
  located : fs.locate path = .ok names
  found : ∃ leaf, fs.root.find? names = some leaf ∧ leaf.isDirectory = false

/-- A step that does not lead to a directory is a name. -/
theorem step_to_file {segment : List Char} (h : step root here (String.ofList segment) = .ok there)
    (hfile : ∀ entries, root.find? there ≠ some (.directory entries)) :
    namesNothing segment = false ∧ componentOf segment = .name (String.ofList segment) := by
  obtain ⟨⟨entries, hhere⟩, rfl⟩ := step_eq_ok h
  cases hnothing : namesNothing segment with
  | true =>
    rw [hnothing, if_pos rfl] at hfile
    exact absurd hhere (hfile entries)
  | false =>
    rw [hnothing, if_neg (by decide), componentOf] at hfile
    rw [componentOf]
    split at hfile
    · obtain ⟨others, hothers⟩ := Node.find?_dropLast hhere
      exact absurd hothers (hfile others)
    · rename_i hup
      rw [if_neg hup]
      exact ⟨rfl, rfl⟩

/-- The last component of a path to a file is the name of the file. -/
theorem LeadsToFile.exists_name (h : fs.LeadsToFile path names) :
    ∃ cs name, components path = cs ++ [.name name] := by
  obtain ⟨leaf, hleaf, hfile⟩ := h.found
  have hnames : ∀ entries, fs.root.find? names ≠ some (.directory entries) := by
    intro entries hentries
    cases hleaf.symm.trans hentries
    contradiction
  obtain ⟨⟨⟩, -, hwalk⟩ := exists_of_bind_eq_ok h.located
  obtain hnil | ⟨front, last, hlast⟩ := List.eq_nil_or_concat (Path.segments path.toList)
  · exact absurd hnil (Text.splitWhere_ne_nil _ _)
  · rw [List.concat_eq_append] at hlast
    rw [segments, hlast, List.map_append, List.foldlM_append] at hwalk
    obtain ⟨here, -, hwalk⟩ := exists_of_bind_eq_ok hwalk
    obtain ⟨there, hstep, hthere⟩ := exists_of_bind_eq_ok hwalk
    cases hthere
    obtain ⟨hkept, hname⟩ := step_to_file hstep hnames
    have hcomponents : components path = Path.leading (Path.divide path.toList).1 ++
        ((front.filter (! namesNothing ·)).map componentOf ++ [.name (String.ofList last)]) := by
      rw [Path.components_eq, ← Path.filter_segments, hlast, List.filter_append,
        List.filter_cons_of_pos (by simp [hkept]), List.map_append, List.map_cons, hname]
      rfl
    exact ⟨_, _, hcomponents.trans (List.append_assoc _ _ _).symm⟩

end FileSystem

end LedgerConformance
