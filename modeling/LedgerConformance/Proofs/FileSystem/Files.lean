import LedgerConformance.FileSystem.Tree
import LedgerConformance.Proofs.Json.Fields
import LedgerConformance.Proofs.Steps
import LedgerConformance.Proofs.Text.Pieces

/-!
Files that are written piece by piece. A file that was put where a path leads stays
where the path leads to, since directories keep their entries; so what was written at
its end is found there.
-/

namespace LedgerConformance

namespace Node

theorem lookup_setEntry (name key : String) (node : Node) (entries : List (String × Node)) :
    (setEntry name node entries).lookup key =
      if key = name then some node else entries.lookup key := by
  induction entries with
  | nil => exact Json.lookup_cons key name node []
  | cons entry rest ih =>
    obtain ⟨other, n⟩ := entry
    unfold setEntry
    by_cases hother : (other == name) = true
    · rw [if_pos hother, Json.lookup_cons, Json.lookup_cons]
      rw [beq_iff_eq] at hother
      subst hother
      split <;> rfl
    · rw [if_neg hother, Json.lookup_cons, Json.lookup_cons, ih]
      rw [beq_iff_eq] at hother
      by_cases hkey : key = other
      · have hne : key ≠ name := fun heq => hother (hkey.symm.trans heq)
        rw [if_pos hkey, if_pos hkey, if_neg hne]
      · rw [if_neg hkey, if_neg hkey]

/-- What was put at the end of a sequence of names is found there. -/
theorem find?_insert (root new : Node) (names : List String) :
    (root.insert names new).find? names = some new := by
  induction names generalizing root with
  | nil => rfl
  | cons name rest ih =>
    simp only [insert, find?, lookup_setEntry, if_true]
    exact ih _

theorem find?_append (root : Node) (front rest : List String) :
    root.find? (front ++ rest) = (root.find? front).bind (find? rest) := by
  induction front generalizing root with
  | nil => rfl
  | cons name front ih =>
    cases root with
    | directory entries =>
      rw [List.cons_append, find?, find?]
      cases entries.lookup name with
      | none => rfl
      | some node => exact ih node
    | _ => rfl

/-- A directory is still there after something was put where no directory is, and so is
everything in it. -/
theorem find?_insert_directory (new : Node) {root : Node} {names here : List String}
    {entries : List (String × Node)} (hhere : root.find? here = some (directory entries))
    (hnames : ∀ others, root.find? names ≠ some (directory others)) :
    ∃ kept, (root.insert names new).find? here = some (directory kept) ∧
      ∀ segment, (entries.lookup segment).isSome = true → (kept.lookup segment).isSome = true := by
  induction here generalizing root names with
  | nil =>
    cases names with
    | nil => exact absurd hhere (hnames entries)
    | cons name rest =>
      cases hhere
      refine ⟨_, rfl, ?_⟩
      intro segment hsegment
      rw [lookup_setEntry]
      split
      · rfl
      · exact hsegment
  | cons segment here ih =>
    cases root with
    | directory all =>
      cases names with
      | nil => exact absurd rfl (hnames all)
      | cons name rest =>
        rw [find?] at hhere
        cases hbelow : all.lookup segment with
        | none => simp [hbelow] at hhere
        | some below =>
          rw [hbelow] at hhere
          rw [insert, find?, lookup_setEntry]
          by_cases hsame : segment = name
          · subst hsame
            have hrest : ∀ others, below.find? rest ≠ some (directory others) := by
              intro others heq
              apply hnames others
              rw [find?, hbelow]
              exact heq
            rw [if_pos rfl, hbelow]
            exact ih hhere hrest
          · rw [if_neg hsame, hbelow]
            exact ⟨entries, hhere, fun _ hkept => hkept⟩
    | _ => cases hhere

end Node

/-! ### Paths -/

namespace Text

/-- The last piece of a text that does not end with a separator is not empty. -/
theorem splitOnChar_getLast? {sep : Char} {s : List Char} (hne : s ≠ [])
    (hlast : s.getLast? ≠ some sep) : (splitOnChar sep s).getLast? ≠ some [] := by
  induction s with
  | nil => exact absurd rfl hne
  | cons c rest ih =>
    cases rest with
    | nil =>
      have hc : c ≠ sep := by simpa using hlast
      simp [splitOnChar, splitWhere, hc]
    | cons d rest =>
      have hrest : (splitOnChar sep (d :: rest)).getLast? ≠ some [] :=
        ih (by simp) (by rwa [List.getLast?_cons_cons] at hlast)
      obtain ⟨piece, more, hpieces⟩ :=
        List.exists_cons_of_ne_nil (splitWhere_ne_nil (· == sep) (d :: rest))
      have hcons : splitOnChar sep (c :: d :: rest) =
          if c == sep then [] :: piece :: more else (c :: piece) :: more := by
        rw [splitOnChar, splitWhere, List.foldr_cons, ← splitWhere, hpieces]
      rw [splitOnChar, hpieces] at hrest
      rw [hcons]
      split
      · rwa [List.getLast?_cons_cons]
      · cases more with
        | nil => simp
        | cons second more => rwa [List.getLast?_cons_cons] at hrest ⊢

end Text

namespace FileSystem

variable {fs : FileSystem} {names : List String} {content : ByteArray}

/-- The files with another one at the end of a sequence of names. -/
def withFile (fs : FileSystem) (names : List String) (content : ByteArray) : FileSystem :=
  { fs with root := fs.root.insert names (.file content) }

/-- Where a step leads from a directory with the given entries. -/
inductive StepsTo (entries : List (String × Node)) (here : List String) :
    String → List String → Prop
  | stay {segment : String} : segment = "" ∨ segment = "." → StepsTo entries here segment here
  | up : StepsTo entries here ".." here.dropLast
  | entry {name : String} :
    name ≠ "" ∧ name ≠ "." ∧ name ≠ ".." ∧ name.utf8ByteSize ≤ longestName →
    (entries.lookup name).isSome = true → StepsTo entries here name (here ++ [name])

/-- With more entries in the directory a step leads to the same place. -/
theorem StepsTo.mono {entries more : List (String × Node)} {here there : List String}
    {segment : String} (h : StepsTo entries here segment there)
    (hmore : ∀ name, (entries.lookup name).isSome = true → (more.lookup name).isSome = true) :
    StepsTo more here segment there := by
  cases h with
  | stay hstay => exact .stay hstay
  | up => exact .up
  | entry hproper hentry => exact .entry hproper (hmore segment hentry)

theorem step_eq_ok_iff {root : Node} {here there : List String} {segment : String} :
    step root here segment = .ok there ↔
      ∃ entries, root.find? here = some (.directory entries) ∧
        StepsTo entries here segment there := by
  constructor
  · intro h
    unfold step at h
    split at h
    · rename_i entries hhere
      refine ⟨entries, hhere, ?_⟩
      simp only [Bool.or_eq_true, beq_iff_eq] at h
      split at h
      · rename_i hstay
        cases h
        exact .stay hstay
      · rename_i hstay
        obtain ⟨hempty, hdot⟩ := not_or.mp hstay
        split at h
        · rename_i hup
          cases h
          exact hup ▸ .up
        · rename_i hup
          split at h
          · cases h
          · rename_i hlong
            split at h
            · rename_i hentry
              cases h
              exact .entry ⟨hempty, hdot, hup, Nat.not_lt.mp hlong⟩ hentry
            · cases h
    · cases h
    · cases h
  · rintro ⟨entries, hhere, hstep⟩
    unfold step
    rw [hhere]
    cases hstep with
    | stay hstay => simp [hstay]
    | up => rfl
    | entry hproper hentry =>
      obtain ⟨hempty, hdot, hup, hshort⟩ := hproper
      simp [hempty, hdot, hup, hentry, Nat.not_lt.mpr hshort]

/-- A step that could be made can still be made. -/
theorem step_withFile (hnames : ∀ others, fs.root.find? names ≠ some (.directory others))
    {here there : List String} {segment : String} (h : step fs.root here segment = .ok there) :
    step (fs.withFile names content).root here segment = .ok there := by
  obtain ⟨entries, hhere, hstep⟩ := step_eq_ok_iff.mp h
  obtain ⟨kept, hkept, hentries⟩ := Node.find?_insert_directory (.file content) hhere hnames
  exact step_eq_ok_iff.mpr ⟨kept, hkept, hstep.mono hentries⟩

theorem foldlM_step_withFile (hnames : ∀ others, fs.root.find? names ≠ some (.directory others))
    {segments here there : List String}
    (h : segments.foldlM (step fs.root) here = .ok there) :
    segments.foldlM (step (fs.withFile names content).root) here = .ok there := by
  induction segments generalizing here with
  | nil => exact h
  | cons segment rest ih =>
    rw [List.foldlM_cons] at h ⊢
    obtain ⟨next, hstep, hrest⟩ := exists_of_bind_eq_ok h
    rw [step_withFile hnames hstep]
    exact ih hrest

/-- A path at which a file can be written: the directory that it leads to, and a name. -/
structure Targets (fs : FileSystem) (path : String) (above : List String) (name : String) :
    Prop where
  valid : checkPath path = .ok ()
  divided : segments path = (segments path).dropLast ++ [name]
  reached : (segments path).dropLast.foldlM (step fs.root) (fs.start path) = .ok above
  directory : ∃ entries, fs.root.find? above = some (.directory entries)
  proper : name ≠ "" ∧ name ≠ "." ∧ name ≠ ".." ∧ name.utf8ByteSize ≤ longestName
  free : ∀ others, fs.root.find? (above ++ [name]) ≠ some (.directory others)

theorem place_eq_ok {path : String} {above : List String} {name : String}
    (h : fs.place path = .ok (above, name)) :
    checkPath path = .ok () ∧
      (Text.dropEndWhile (· == "") (segments path)).dropLast.foldlM (step fs.root)
        (fs.start path) = .ok above ∧
      (∃ entries, fs.root.find? above = some (.directory entries)) ∧
      name = (Text.dropEndWhile (· == "") (segments path)).getLast?.getD "" := by
  unfold place at h
  obtain ⟨⟨⟩, hvalid, h⟩ := exists_of_bind_eq_ok h
  obtain ⟨reached, hreached, h⟩ := exists_of_bind_eq_ok h
  split at h
  · rename_i entries hdirectory
    cases h
    exact ⟨hvalid, hreached, ⟨entries, hdirectory⟩, rfl⟩
  · cases h
  · cases h

/-- The last segment of a path that does not end with a slash is not empty. -/
theorem dropEndWhile_segments {path : String} (hvalid : checkPath path = .ok ())
    (hslash : path.toList.getLast? ≠ some '/') :
    Text.dropEndWhile (· == "") (segments path) = segments path := by
  have hpath : path.toList ≠ [] := by
    intro hnil
    have hempty : path = "" := String.toList_eq_nil_iff.mp hnil
    rw [hempty] at hvalid
    revert hvalid
    decide
  apply Text.dropEndWhile_of_getLast?
  intro segment hsegment
  rw [segments, List.getLast?_map, Option.map_eq_some_iff] at hsegment
  obtain ⟨chars, hchars, rfl⟩ := hsegment
  rw [beq_eq_false_iff_ne]
  intro heq
  have hnil : chars = [] := by simpa using heq
  exact Text.splitOnChar_getLast? hpath hslash (hnil ▸ hchars)

theorem targets_of_target {path : String} (h : fs.target path = .ok names) :
    ∃ above name, names = above ++ [name] ∧ fs.Targets path above name := by
  unfold target at h
  obtain ⟨⟨above, name⟩, hplace, h⟩ := exists_of_bind_eq_ok h
  obtain ⟨hvalid, hreached, hdirectory, hname⟩ := place_eq_ok hplace
  dsimp only at h
  split at h
  · cases h
  · rename_i hproper
    simp only [Bool.or_eq_true, beq_iff_eq, not_or] at hproper
    obtain ⟨⟨⟨hslash, hempty⟩, hdot⟩, hup⟩ := hproper
    split at h
    · cases h
    · rename_i hshort
      rw [dropEndWhile_segments hvalid hslash] at hreached hname
      have hdivided : segments path = (segments path).dropLast ++ [name] := by
        cases hlast : (segments path).getLast? with
        | none =>
          rw [hlast] at hname
          exact absurd hname hempty
        | some last =>
          rw [hlast, Option.getD_some] at hname
          rw [hname, List.dropLast_append_getLast? last hlast]
      split at h
      · cases h
      · cases h
      · rename_i hdirectory' _
        cases h
        exact ⟨above, name, rfl, hvalid, hdivided, hreached, hdirectory,
          ⟨hempty, hdot, hup, Nat.not_lt.mp hshort⟩, hdirectory'⟩

namespace Targets

variable {path : String} {above : List String} {name : String}

theorem withFile (h : fs.Targets path above name) :
    (fs.withFile (above ++ [name]) content).Targets path above name := by
  obtain ⟨entries, hentries⟩ := h.directory
  obtain ⟨kept, hkept, -⟩ :=
    Node.find?_insert_directory (.file content) hentries h.free
  refine ⟨h.valid, h.divided, foldlM_step_withFile h.free h.reached, ⟨kept, hkept⟩, h.proper, ?_⟩
  intro others heq
  rw [FileSystem.withFile, Node.find?_insert] at heq
  cases heq

/-- A path leads to what was put at its target. -/
theorem locate (h : fs.Targets path above name)
    (hfound : (fs.root.find? (above ++ [name])).isSome = true) :
    fs.locate path = .ok (above ++ [name]) := by
  obtain ⟨entries, hentries⟩ := h.directory
  have hentry : (entries.lookup name).isSome = true := by
    rw [Node.find?_append, hentries, Option.bind_some, Node.find?] at hfound
    cases hlookup : entries.lookup name with
    | none => simp [hlookup] at hfound
    | some node => rfl
  have hstep : step fs.root above name = .ok (above ++ [name]) :=
    step_eq_ok_iff.mpr ⟨entries, hentries, .entry h.proper hentry⟩
  have hreached : (segments path).foldlM (step fs.root) (fs.start path) =
      .ok (above ++ [name]) := by
    rw [h.divided, List.foldlM_append, h.reached]
    change (step fs.root above name >>= pure) = _
    rw [hstep]
    rfl
  rw [FileSystem.locate, h.valid]
  exact hreached

theorem node_eq {node : Node} (h : fs.Targets path above name)
    (hfound : fs.root.find? (above ++ [name]) = some node) : fs.node path = .ok node := by
  unfold FileSystem.node
  rw [h.locate (by rw [hfound]; rfl)]
  dsimp only [bind, Except.bind]
  rw [hfound]
  rfl

end Targets

/-! ### Contents -/

/-- A path leads to a file with a content, which can be written again. -/
structure Holds (fs : FileSystem) (path : String) (names : List String) (content : ByteArray) :
    Prop where
  targets : ∃ above name, names = above ++ [name] ∧ fs.Targets path above name
  found : fs.root.find? names = some (.file content)

theorem holds_withFile {path : String} (h : fs.target path = .ok names) :
    (fs.withFile names content).Holds path names content := by
  obtain ⟨above, name, rfl, htargets⟩ := targets_of_target h
  exact ⟨⟨above, name, rfl, htargets.withFile⟩, Node.find?_insert _ _ _⟩

namespace Holds

variable {path : String}

theorem withFile (h : fs.Holds path names content) (more : ByteArray) :
    (fs.withFile names more).Holds path names more := by
  obtain ⟨⟨above, name, rfl, htargets⟩, -⟩ := h
  exact ⟨⟨above, name, rfl, htargets.withFile⟩, Node.find?_insert _ _ _⟩

theorem read (h : fs.Holds path names content) : fs.read path = .ok content := by
  obtain ⟨⟨above, name, rfl, htargets⟩, hfound⟩ := h
  rw [FileSystem.read, htargets.node_eq hfound]
  rfl

theorem readText {text : String} (h : fs.Holds path names text.toUTF8) :
    fs.readText path = .ok text := by
  have htext : String.fromUTF8? text.toUTF8 = some text := dif_pos text.isValidUTF8
  unfold FileSystem.readText
  rw [h.read]
  dsimp only [bind, Except.bind]
  rw [htext]
  rfl

/-- Bytes that are put at the end of a file are appended. -/
theorem putAt_size (h : fs.Holds path names content) (bytes : ByteArray) :
    ∃ changed, fs.putAt names content.size bytes = .ok changed ∧
      changed.Holds path names (content ++ bytes) := by
  have hover : overwrite content content.size bytes = content ++ bytes := by
    unfold overwrite
    by_cases hempty : bytes.isEmpty = true
    · have hnone : bytes = .empty := ByteArray.size_eq_zero_iff.mp (beq_iff_eq.mp hempty)
      rw [if_pos hempty, hnone, ByteArray.append_empty]
    · have hgap : (⟨(List.replicate (content.size - content.size) 0).toArray⟩ : ByteArray) =
          .empty := by
        rw [Nat.sub_self]
        rfl
      have hrest : content.extract (content.size + bytes.size) content.size = .empty := by
        rw [ByteArray.extract_eq_empty_iff]
        omega
      rw [if_neg hempty]
      simp only [hgap, hrest, ByteArray.append_empty, ByteArray.extract_zero_size]
  refine ⟨_, ?_, h.withFile (content ++ bytes)⟩
  unfold putAt FileSystem.withFile
  rw [h.found, ← hover]

end Holds

theorem put_eq_ok {changed : FileSystem} (h : fs.put names content = .ok changed) :
    changed = fs ∧ (∃ device, fs.root.find? names = some (.device device)) ∨
      changed = fs.withFile names content := by
  unfold put at h
  split at h
  · rename_i hdevice
    cases h
    exact Or.inl ⟨rfl, _, hdevice⟩
  · rename_i hdevice
    cases h
    exact Or.inl ⟨rfl, _, hdevice⟩
  · rename_i hdevice
    split at h
    · cases h
      exact Or.inl ⟨rfl, _, hdevice⟩
    · cases h
  · cases h
    exact Or.inr rfl

/-- A file that was created at a path is empty, unless a device is there. -/
theorem holds_of_create {path : String} {changed : FileSystem}
    (h : fs.create path = .ok (changed, names)) (hfile : changed.isFile path = true) :
    changed.Holds path names .empty := by
  unfold create at h
  obtain ⟨found, htarget, h⟩ := exists_of_bind_eq_ok h
  obtain ⟨put, hput, h⟩ := exists_of_bind_eq_ok h
  cases h
  rcases put_eq_ok hput with ⟨rfl, device, hdevice⟩ | rfl
  · obtain ⟨above, name, rfl, htargets⟩ := targets_of_target htarget
    rw [isFile, htargets.node_eq hdevice] at hfile
    cases hfile
  · exact holds_withFile htarget

end FileSystem

end LedgerConformance
